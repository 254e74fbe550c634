/-
Binding sees no more of values than their canonical texts show.

* `Bag.image_shown_of_canonical`: the canonical text of encodable values shows the
  names and the JSON form of each value;
* `bind_shown`: values of the same forms are bound with the same findings, to values
  of the same types and forms (`Value.face`);
* `bind_of_canonical`: hence values with one canonical text are bound to values with
  one canonical text;
* `bind_eq_of_shown`: where the texts of numbers tell the numbers, they are the same.
-/
import SolidityCanvas.Proofs.Canvas.Distinct
import SolidityCanvas.Proofs.Canvas.Rewritten
import SolidityCanvas.Proofs.Property.Binding
import SolidityCanvas.Proofs.Value.Shown

namespace SolidityCanvas

namespace Value

/-- Whether the value can be written: it is known with all it holds, and no number
in it is infinite. -/
def isEncodable (v : Value) : Bool := v.toJson?.isSome

variable {v w : Value}

/-! ### Values with one canonical text -/

/-- **The canonical text of an encodable value shows its form.** -/
theorem shown_eq_of_canonical (hv : v.isEncodable) (hw : w.isEncodable)
    (h : v.canonical = w.canonical) : v.shown = w.shown := by
  obtain ⟨j, hj⟩ := Option.isSome_iff_exists.mp hv
  obtain ⟨k, hk⟩ := Option.isSome_iff_exists.mp hw
  have hchars : j.chars ++ [] = k.chars ++ [] := by
    rw [← canonicalChars_of_some hj, ← canonicalChars_of_some hk, canonicalChars, h,
      canonicalChars]
  obtain ⟨rfl, -⟩ := Json.told_chars (numerals_toJson? hj) (numerals_toJson? hk)
    (Text.stops_nil _) (Text.stops_nil _) hchars
  exact shown_eq_iff.mpr (.inr ⟨j, hj, hk⟩)

/-- The same of values that documents describe, if their numbers are told apart. -/
theorem shown_eq_of_told {N : Set Number} (hN : Number.Distinguished N)
    (hv : v.isEncodable ∨ v.Described) (hw : w.isEncodable ∨ w.Described)
    (hvN : ∀ n ∈ v.numbers, n ∈ N) (hwN : ∀ n ∈ w.numbers, n ∈ N)
    (h : v.canonical = w.canonical) : v.shown = w.shown := by
  have hchars : v.canonicalChars = w.canonicalChars := congrArg String.toList h
  have hcall : ∀ {v w : Value}, v.isEncodable → w.isEncodable = false → w.Described →
      v.canonicalChars ≠ w.canonicalChars := by
    intro v w hv hw hdescribed
    obtain ⟨j, hj⟩ := Option.isSome_iff_exists.mp hv
    have hnone : w.toJson? = none := by simpa [isEncodable] using hw
    rw [canonicalChars_of_some hj, canonicalChars_of_none hnone]
    exact (hdescribed.callChars_ne_chars (numerals_toJson? hj)).symm
  cases hve : v.isEncodable <;> cases hwe : w.isEncodable
  · have hv := hv.resolve_left (by simp [hve])
    have hw := hw.resolve_left (by simp [hwe])
    obtain ⟨rfl, -⟩ := hv.told hN hw hvN hwN (Text.stops_nil _) (Text.stops_nil _)
      (congrArg (· ++ []) hchars)
    rfl
  · exact absurd hchars.symm (hcall hwe hve (hv.resolve_left (by simp [hve])))
  · exact absurd hchars (hcall hve hwe (hw.resolve_left (by simp [hwe])))
  · exact shown_eq_of_canonical hve hwe h

theorem newline_notMem_canonicalChars (h : v.isEncodable ∨ v.Described) :
    '\n' ∉ v.canonicalChars := by
  obtain h | h := h
  · obtain ⟨j, hj⟩ := Option.isSome_iff_exists.mp h
    exact break_notMem_of_toJson? hj (.inr rfl)
  · exact h.break_notMem_canonicalChars (.inr rfl)

theorem isNull_shown (h : v.shown = w.shown) : v.isNull = w.isNull := by
  obtain rfl | ⟨j, hv, hw⟩ := shown_eq_iff.mp h
  · rfl
  · rw [Bool.eq_iff_iff, isNull_iff_of_toJson? hv, isNull_iff_of_toJson? hw]

theorem describe_shown (h : v.shown = w.shown) : v.describe = w.describe := by
  obtain rfl | ⟨j, hv, hw⟩ := shown_eq_iff.mp h
  · rfl
  · rw [describe_eq_word hv, describe_eq_word hw]

end Value

namespace Bag

variable {α : Type} {b c : Bag}

/-- What something shows of each value, by name. -/
def image (f : Value → α) (b : Bag) : List (String × α) := b.map fun e => (e.1, f e.2)

theorem image_ofList (f : Value → α) (b : Bag) :
    (ofList b).image f = Value.sortNamed (b.image f) := (Value.sortNamed_map f b).symm

theorem lookup_image (f : Value → α) (b : Bag) (n : String) :
    (b.image f).lookup n = (b.get? n).map f := Value.lookup_map_snd f b n

theorem image_congr_of_mem {β : Type} {f : Value → α} {g : Value → β}
    (hfg : ∀ d ∈ b, ∀ e ∈ c, f d.2 = f e.2 → g d.2 = g e.2) (h : image f b = image f c) :
    image g b = image g c := by
  refine map_eq_map_of_mem (fun d hd e he hde => ?_) h
  obtain ⟨hname, hvalue⟩ := Prod.mk.inj hde
  rw [hname, hfg d hd e he hvalue]

/-- What shows more of each value shows more of all. -/
theorem image_congr {β : Type} {f : Value → α} {g : Value → β}
    (hfg : ∀ {v w}, f v = f w → g v = g w) (h : image f b = image f c) : image g b = image g c :=
  image_congr_of_mem (fun _ _ _ _ => hfg) h

theorem names_image (f : Value → α) (b : Bag) : (b.image f).map (·.1) = b.names := by
  rw [image, List.map_map]
  rfl

theorem canonical_image (b : Bag) :
    b.canonical = String.join ((b.image Value.canonical).map fun e =>
      Text.quoted e.1 ++ "=" ++ e.2 ++ "\n") := by
  rw [canonical, image, List.map_map]
  rfl

/-- Values that are shown alike have one canonical text. -/
theorem canonical_shown (h : b.image Value.shown = c.image Value.shown) :
    b.canonical = c.canonical := by
  rw [canonical_image, canonical_image, image_congr Value.canonical_shown h]

/-- The line of a named value shows the name and the canonical text. -/
theorem lineChars_append_eq {d e : String × Value} (hd : '\n' ∉ d.2.canonicalChars)
    (he : '\n' ∉ e.2.canonicalChars) {s t : List Char} (h : lineChars d ++ s = lineChars e ++ t) :
    d.1 = e.1 ∧ d.2.canonical = e.2.canonical ∧ s = t := by
  have hname : d.1 = e.1 := by
    simp only [lineChars, List.append_assoc] at h
    exact (Text.prefixFree_quoted h).1
  obtain ⟨n, v⟩ := d
  obtain ⟨m, w⟩ := e
  obtain rfl : n = m := hname
  exact ⟨rfl, (lineChars_eq_iff hd he).mp h⟩

/-- **The canonical text shows each name and each canonical text**, where these are
single lines. -/
theorem image_canonical_of_canonical : ∀ {b c : Bag},
    (∀ e ∈ b, '\n' ∉ e.2.canonicalChars) → (∀ e ∈ c, '\n' ∉ e.2.canonicalChars) →
      b.canonical = c.canonical → image Value.canonical b = image Value.canonical c := by
  simp only [← String.toList_inj, toList_canonical]
  intro b
  induction b with
  | nil =>
    intro c _ _ h
    cases c with
    | nil => rfl
    | cons e c => exact absurd h.symm (lineChars_ne_nil e _)
  | cons d b ih =>
    intro c hb hc h
    cases c with
    | nil => exact absurd h (lineChars_ne_nil d _)
    | cons e c =>
      obtain ⟨hd, hb⟩ := List.forall_mem_cons.mp hb
      obtain ⟨he, hc⟩ := List.forall_mem_cons.mp hc
      obtain ⟨hname, hvalue, hrest⟩ := lineChars_append_eq hd he h
      have htail := ih hb hc hrest
      change (d.1, d.2.canonical) :: image Value.canonical b =
        (e.1, e.2.canonical) :: image Value.canonical c
      rw [hname, hvalue, htail]

/-- **The canonical text of encodable values shows the form of each.** -/
theorem image_shown_of_canonical (hb : ∀ e ∈ b, e.2.isEncodable) (hc : ∀ e ∈ c, e.2.isEncodable)
    (h : b.canonical = c.canonical) : b.image Value.shown = c.image Value.shown :=
  image_congr_of_mem (fun d hd e he => Value.shown_eq_of_canonical (hb d hd) (hc e he)) <|
    image_canonical_of_canonical (fun e he => Value.newline_notMem_canonicalChars (.inl (hb e he)))
      (fun e he => Value.newline_notMem_canonicalChars (.inl (hc e he))) h

/-- The same of values that documents describe, if their numbers are told apart. -/
theorem image_shown_of_told {N : Set Number} (hN : Number.Distinguished N)
    (hb : ∀ e ∈ b, (e.2.isEncodable ∨ e.2.Described) ∧ ∀ n ∈ e.2.numbers, n ∈ N)
    (hc : ∀ e ∈ c, (e.2.isEncodable ∨ e.2.Described) ∧ ∀ n ∈ e.2.numbers, n ∈ N)
    (h : b.canonical = c.canonical) : b.image Value.shown = c.image Value.shown :=
  image_congr_of_mem (fun d hd e he => Value.shown_eq_of_told hN (hb d hd).1 (hc e he).1
      (hb d hd).2 (hc e he).2) <|
    image_canonical_of_canonical (fun e he => Value.newline_notMem_canonicalChars (hb e he).1)
      (fun e he => Value.newline_notMem_canonicalChars (hc e he).1) h

theorem given?_shown {n : String}
    (h : (b.get? n).map Value.shown = (c.get? n).map Value.shown) :
    (b.given? n).map Value.shown = (c.given? n).map Value.shown := by
  rw [given?, given?]
  cases hb : b.get? n with
  | none =>
    rw [hb, Option.map_none, eq_comm, Option.map_eq_none_iff] at h
    rw [h]
  | some v =>
    rw [hb, Option.map_some, eq_comm, Option.map_eq_some_iff] at h
    obtain ⟨w, hc, hw⟩ := h
    rw [hc, Option.filter_some, Option.filter_some, Value.isNull_shown hw]
    split
    · rw [Option.map_some, Option.map_some, hw]
    · rfl

end Bag

/-! ### One property -/

namespace Property

variable {p : Property} {raw raw' : Bag}

/-- Values that are shown alike are bound to the same, or both to themselves as
values of the type. -/
theorem bind_cases (h : (raw.get? p.name).map Value.shown = (raw'.get? p.name).map Value.shown)
    (id : String) : p.bind id raw = p.bind id raw' ∨
      ∃ v w x y, raw.get? p.name = some v ∧ raw'.get? p.name = some w ∧
        v.coerce? p.type = some x ∧ w.coerce? p.type = some y ∧ x.face = y.face ∧
        p.bind id raw = (x, []) ∧ p.bind id raw' = (y, []) := by
  have hgiven := Bag.given?_shown h
  cases hv : raw.given? p.name with
  | none =>
    rw [hv, Option.map_none, eq_comm, Option.map_eq_none_iff] at hgiven
    rw [bind_eq_of_absent hv, bind_eq_of_absent hgiven]
    exact .inl rfl
  | some v =>
    rw [hv, Option.map_some, eq_comm, Option.map_eq_some_iff] at hgiven
    obtain ⟨w, hw, hshown⟩ := hgiven
    have hcoerce := Value.coerce?_shown hshown p.type
    rw [bind_eq_of_given hv, bind_eq_of_given hw, Value.describe_shown hshown]
    cases hx : v.coerce? p.type with
    | none =>
      rw [hx, Option.map_none, Option.map_eq_none_iff] at hcoerce
      rw [hcoerce]
      exact .inl rfl
    | some x =>
      rw [hx, Option.map_some, Option.map_eq_some_iff] at hcoerce
      obtain ⟨y, hy, hface⟩ := hcoerce
      exact .inr ⟨v, w, x, y, (Option.filter_eq_some_iff.mp hv).1,
        (Option.filter_eq_some_iff.mp hw).1, hx, hy, hface.symm, rfl, by rw [hy]⟩

/-- **Binding a property sees no more of a value than its form.** -/
theorem bind_shown (h : (raw.get? p.name).map Value.shown = (raw'.get? p.name).map Value.shown)
    (id : String) :
    (p.bind id raw).1.face = (p.bind id raw').1.face ∧ (p.bind id raw).2 = (p.bind id raw').2 := by
  obtain hsame | ⟨_, _, x, y, _, _, _, _, hface, hx, hy⟩ := bind_cases h id
  · rw [hsame]
    exact ⟨rfl, rfl⟩
  · rw [hx, hy]
    exact ⟨hface, rfl⟩

/-- **The form of a value is all there is to it**, where the texts of numbers tell
the numbers. -/
theorem bind_eq_of_shown {N : Set Number} (hN : ∀ m ∈ N, ∀ n ∈ N, m.text = n.text → m = n)
    (hp : p.type.isPropertyType) (hraw : ∀ e ∈ raw, ∀ n ∈ e.2.numbers, n ∈ N)
    (hraw' : ∀ e ∈ raw', ∀ n ∈ e.2.numbers, n ∈ N)
    (h : (raw.get? p.name).map Value.shown = (raw'.get? p.name).map Value.shown) (id : String) :
    p.bind id raw = p.bind id raw' := by
  obtain hsame | ⟨v, w, x, y, hv, hw, hx, hy, hface, hbind, hbind'⟩ := bind_cases h id
  · exact hsame
  -- What a value is bound to holds the numbers of the value.
  have hplain : ∀ {raw : Bag} {v x : Value}, (∀ e ∈ raw, ∀ n ∈ e.2.numbers, n ∈ N) →
      raw.get? p.name = some v → v.coerce? p.type = some x → x.Plain N p.type.element? := by
    intro raw v x hraw hv hx
    obtain ⟨hnumbers, hplain⟩ := Value.plain_of_coerce? hp hx
    exact hplain.mono fun n hn => hraw _ (mem_of_lookup hv) n (hnumbers ▸ hn)
  obtain rfl | ⟨j, hxj, hyj⟩ := Value.shown_eq_iff.mp (Value.shown_of_face hface)
  · rw [hbind, hbind']
  · rw [hbind, hbind', (hplain hraw hv hx).toJson?_inj hN (hplain hraw' hw hy) hxj hyj]

end Property

/-! ### All properties -/

section

variable {ps : List Property} {raw raw' : Bag}

/-- **Binding sees no more of values than the form of each.** -/
theorem bind_shown (ps : List Property) (h : raw.image Value.shown = raw'.image Value.shown)
    (id : String) :
    Bag.image Value.face (bind id ps raw).1.values = Bag.image Value.face (bind id ps raw').1.values ∧
      (bind id ps raw).2 = (bind id ps raw').2 := by
  have hget : ∀ n, (raw.get? n).map Value.shown = (raw'.get? n).map Value.shown := fun n => by
    rw [← Bag.lookup_image, ← Bag.lookup_image, h]
  have hnames : raw.names = raw'.names := by
    rw [← Bag.names_image Value.shown, h, Bag.names_image]
  constructor
  · rw [values_bind, values_bind, Bag.image, Bag.image, List.map_map, List.map_map]
    exact List.map_congr_left fun p _ => Prod.ext rfl (p.bind_shown (hget p.name) id).1
  · simp only [bind, List.flatMap_map, undeclared, hnames]
    refine congrArg (· ++ _) ?_
    exact List.flatMap_congr fun p _ => (p.bind_shown (hget p.name) id).2

/-- **The forms of values are all there is to them**, where the texts of numbers tell
the numbers. -/
theorem bind_eq_of_shown {N : Set Number} (hN : ∀ m ∈ N, ∀ n ∈ N, m.text = n.text → m = n)
    (hps : ∀ p ∈ ps, p.type.isPropertyType) (hraw : ∀ e ∈ raw, ∀ n ∈ e.2.numbers, n ∈ N)
    (hraw' : ∀ e ∈ raw', ∀ n ∈ e.2.numbers, n ∈ N)
    (h : raw.image Value.shown = raw'.image Value.shown) (id : String) :
    bind id ps raw = bind id ps raw' := by
  refine Prod.ext (congrArg Bound.mk ?_) (bind_shown ps h id).2
  change (bind id ps raw).1.values = (bind id ps raw').1.values
  rw [values_bind, values_bind]
  refine List.map_congr_left fun p hp => ?_
  rw [p.bind_eq_of_shown hN (hps p hp) hraw hraw' (by rw [← Bag.lookup_image, h, Bag.lookup_image])]

/-- What is bound alike has one canonical text. -/
theorem Bound.canonical_face {b b' : Bound}
    (h : Bag.image Value.face b.values = Bag.image Value.face b'.values) :
    b.canonical = b'.canonical := by
  refine Bag.canonical_shown (Bag.image_congr Value.shown_of_face ?_)
  rw [Bound.bag, Bound.bag, Bag.image_ofList, Bag.image_ofList, h]

/-- **Binding sees no more of encodable values than their canonical text.** -/
theorem bind_of_canonical (hraw : ∀ e ∈ raw, e.2.isEncodable) (hraw' : ∀ e ∈ raw', e.2.isEncodable)
    (h : raw.canonical = raw'.canonical) (id : String) :
    (bind id ps raw).1.canonical = (bind id ps raw').1.canonical ∧
      (bind id ps raw).2 = (bind id ps raw').2 := by
  obtain ⟨hvalues, hfindings⟩ := bind_shown ps (Bag.image_shown_of_canonical hraw hraw' h) id
  exact ⟨Bound.canonical_face hvalues, hfindings⟩

end

end SolidityCanvas
