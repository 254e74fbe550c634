/-
Values that are known and in normal form.

* `Definite`: the value and all it holds are known, texts and names are in
  normal form, and names ascend;
* `Definite.convert?`: a value stays so under conversion;
* `Definite.convert?_primitive`: converted to a text, a number or a truth value,
  it is one.
-/
import SolidityCanvas.Proofs.Number.Digits
import SolidityCanvas.Proofs.Value.Reading
import SolidityCanvas.Value.Convert

namespace SolidityCanvas

/-- Texts of code points below U+0300 are in normal form. -/
theorem Text.normalize_eq_self {s : String} (h : ∀ c ∈ s.toList, c.toNat < 0x300) :
    Text.normalize s = s := by
  rw [Text.normalize, if_pos]
  simpa [List.all_eq_true] using h

/-- The text of a number is in normal form. -/
theorem Number.normalize_text (n : Number) : Text.normalize n.text = n.text := by
  cases n with
  | finite b =>
    refine Text.normalize_eq_self fun c hc => ?_
    rcases b.isNumeral_of_mem_text c hc with hdigit | rfl | rfl
    · simp only [Char.isDigit, Bool.and_eq_true, decide_eq_true_eq] at hdigit
      exact lt_of_le_of_lt (UInt32.le_iff_toNat_le.mp hdigit.2) (by decide)
    · decide
    · decide
  | infinite negative => cases negative <;> exact Text.normalize_eq_self (by simp [text])

namespace Value

/-- The value and all it holds are known and in normal form. -/
inductive Definite : Value → Prop
  | string {s : String} (h : Text.normalize s = s) : Definite (string s)
  | number (n : Number) : Definite (number n)
  | bool (b : Bool) : Definite (bool b)
  | null (t : ValueType) : Definite (null t)
  | sequence {v : Value} {items : List Value} (hv : IsSequence v items)
      (h : ∀ w ∈ items, Definite w) : Definite v
  | record {v : Value} {entries : List (String × Value)} (hv : IsRecord v entries)
      (hascending : Ascending entries) (hnames : ∀ e ∈ entries, Text.normalize e.1 = e.1)
      (h : ∀ e ∈ entries, Definite e.2) : Definite v

namespace Definite

variable {v w : Value} {vs : List Value} {es : List (String × Value)} {t : ValueType} {s : String}

theorem text (s : String) : (Value.text s).Definite := .string (Text.normalize_normalize s)

theorem not_unknown : ¬(unknown t).Definite := by
  intro h
  cases h with
  | sequence hv | record hv => cases hv

theorem items (h : v.Definite) (hv : IsSequence v vs) : ∀ w ∈ vs, w.Definite := by
  cases hv
  all_goals
    cases h with
    | sequence hv' h =>
      cases hv'
      exact h
    | record hv' => cases hv'

theorem entries (h : v.Definite) (hv : IsRecord v es) : Ascending es ∧
    ∀ e ∈ es, Text.normalize e.1 = e.1 ∧ e.2.Definite := by
  cases hv
  all_goals
    cases h with
    | sequence hv' h => cases hv'
    | record hv' hascending hnames h =>
      cases hv'
      exact ⟨hascending, fun e he => ⟨hnames e he, h e he⟩⟩

theorem normal (h : v.Definite) : v.Normal := by
  induction h with
  | string h => simpa only [Normal] using h
  | number | bool | null => simp only [Normal]
  | sequence hv _ ih => cases hv <;> simpa only [Normal, normalItems_iff] using ih
  | record hv hascending hnames _ ih =>
    have hall := And.intro hascending fun e he => And.intro (hnames e he) (ih e he)
    cases hv <;> simpa only [Normal, normalEntries_iff] using hall

theorem isWhollyKnown (h : v.Definite) : v.isWhollyKnown = true := by
  induction h with
  | string | number | bool | null => rfl
  | sequence hv _ ih => cases hv <;> exact allKnown_iff.mpr ih
  | record hv _ _ _ ih => cases hv <;> exact allEntriesKnown_iff.mpr ih

theorem isKnown (h : v.Definite) : v.isKnown = true := by
  cases v with
  | unknown t => exact absurd h not_unknown
  | _ => rfl

end Definite

/-! ### Conversion -/

section conversion

variable {v w : Value} {vs ws : List Value} {es ds : List (String × Value)} {t : ValueType}

theorem mem_of_mem_insertItem (h : w ∈ insertItem v vs) : w = v ∨ w ∈ vs := by
  induction vs with
  | nil => exact .inl (List.mem_singleton.mp h)
  | cons u vs ih =>
    rw [insertItem] at h
    split at h
    · exact .inr h
    split at h
    · exact List.mem_cons.mp h
    · rcases List.mem_cons.mp h with rfl | h
      · exact .inr List.mem_cons_self
      · exact (ih h).imp_right (List.mem_cons_of_mem _)

/-- A set holds no other values than it is made of. -/
theorem mem_of_mem_setItems : ∀ {vs sorted : List Value},
    w ∈ vs.foldl (fun sorted v => insertItem v sorted) sorted → w ∈ sorted ∨ w ∈ vs := by
  intro vs
  induction vs with
  | nil => exact fun h => .inl h
  | cons v vs ih =>
    intro sorted h
    rcases ih h with h | h
    · rcases mem_of_mem_insertItem h with rfl | h
      · exact .inr List.mem_cons_self
      · exact .inl h
    · exact .inr (List.mem_cons_of_mem _ h)

theorem mem_convertItems? (h : convertItems? vs t = some ws) :
    ∀ w ∈ ws, ∃ v ∈ vs, ∃ t, v.convertKnown? t = some w := by
  induction vs generalizing ws with
  | nil =>
    rw [convertItems?, Option.some_inj] at h
    exact h ▸ fun _ hw => absurd hw List.not_mem_nil
  | cons v vs ih =>
    simp only [convertItems?, Option.bind_eq_bind, Option.bind_eq_some_iff, Option.pure_def,
      Option.some_inj] at h
    obtain ⟨w, hw, rest, hrest, rfl⟩ := h
    refine List.forall_mem_cons.mpr ⟨⟨v, List.mem_cons_self, t, hw⟩, fun x hx => ?_⟩
    obtain ⟨u, hu, hux⟩ := ih hrest x hx
    exact ⟨u, List.mem_cons_of_mem _ hu, hux⟩

theorem mem_convertEach? {ts : List ValueType} (h : convertEach? vs ts = some ws) :
    ∀ w ∈ ws, ∃ v ∈ vs, ∃ t, v.convertKnown? t = some w := by
  induction vs generalizing ts ws with
  | nil =>
    cases ts with
    | nil =>
      rw [convertEach?, Option.some_inj] at h
      exact h ▸ fun _ hw => absurd hw List.not_mem_nil
    | cons t ts => cases h
  | cons v vs ih =>
    cases ts with
    | nil => cases h
    | cons t ts =>
      simp only [convertEach?, Option.bind_eq_bind, Option.bind_eq_some_iff, Option.pure_def,
        Option.some_inj] at h
      obtain ⟨w, hw, rest, hrest, rfl⟩ := h
      refine List.forall_mem_cons.mpr ⟨⟨v, List.mem_cons_self, t, hw⟩, fun x hx => ?_⟩
      obtain ⟨u, hu, hux⟩ := ih hrest x hx
      exact ⟨u, List.mem_cons_of_mem _ hu, hux⟩

/-- Named values that were converted: some of the names, in the same order. -/
def Converted (es ds : List (String × Value)) : Prop :=
  (ds.map (·.1)).Sublist (es.map (·.1)) ∧
    ∀ d ∈ ds, ∃ e ∈ es, e.1 = d.1 ∧ ∃ t, e.2.convertKnown? t = some d.2

theorem converted_nil : Converted [] [] := ⟨.slnil, fun _ hd => absurd hd List.not_mem_nil⟩

theorem Converted.cons (h : Converted es ds) (n : String) (hw : v.convertKnown? t = some w) :
    Converted ((n, v) :: es) ((n, w) :: ds) := by
  refine ⟨h.1.cons_cons _, List.forall_mem_cons.mpr ⟨⟨_, List.mem_cons_self, rfl, t, hw⟩, ?_⟩⟩
  intro d hd
  obtain ⟨e, he, hed⟩ := h.2 d hd
  exact ⟨e, List.mem_cons_of_mem _ he, hed⟩

theorem Converted.drop (h : Converted es ds) (e : String × Value) : Converted (e :: es) ds := by
  refine ⟨h.1.cons _, fun d hd => ?_⟩
  obtain ⟨e, he, hed⟩ := h.2 d hd
  exact ⟨e, List.mem_cons_of_mem _ he, hed⟩

theorem converted_convertEntries? (h : convertEntries? es t = some ds) : Converted es ds := by
  induction es generalizing ds with
  | nil =>
    rw [convertEntries?, Option.some_inj] at h
    exact h ▸ converted_nil
  | cons e es ih =>
    obtain ⟨n, v⟩ := e
    simp only [convertEntries?, Option.bind_eq_bind, Option.bind_eq_some_iff, Option.pure_def,
      Option.some_inj] at h
    obtain ⟨w, hw, rest, hrest, rfl⟩ := h
    exact (ih hrest).cons n hw

theorem converted_convertAttributes? {ts : List (String × ValueType)}
    (h : convertAttributes? es ts = some ds) : Converted es ds := by
  induction es generalizing ds with
  | nil =>
    rw [convertAttributes?, Option.some_inj] at h
    exact h ▸ converted_nil
  | cons e es ih =>
    obtain ⟨n, v⟩ := e
    simp only [convertAttributes?, Option.bind_eq_bind, Option.bind_eq_some_iff] at h
    obtain ⟨rest, hrest, h⟩ := h
    split at h
    · obtain rfl := Option.some_inj.mp h
      exact (ih hrest).drop _
    · obtain ⟨w, hw, h⟩ := Option.bind_eq_some_iff.mp h
      obtain rfl := Option.some_inj.mp h
      exact (ih hrest).cons n hw

/-- A sequence is converted item by item. -/
theorem IsSequence.convertKnown? (hv : IsSequence v vs) (h : v.convertKnown? t = some w) :
    w = v ∨ ∃ ws, IsSequence w ws ∧ ∀ x ∈ ws, ∃ y ∈ vs, ∃ t, y.convertKnown? t = some x := by
  have hset : ∀ {t}, (convertItems? vs t).map (setOf t) = some w →
      ∃ ws, IsSequence w ws ∧ ∀ x ∈ ws, ∃ y ∈ vs, ∃ t, y.convertKnown? t = some x := by
    intro t h
    obtain ⟨ws, hws, rfl⟩ := Option.map_eq_some_iff.mp h
    refine ⟨_, .set _ _, fun x hx => mem_convertItems? hws x ?_⟩
    exact (mem_of_mem_setItems hx).resolve_left List.not_mem_nil
  have hlist : ∀ {t}, (convertItems? vs t).map (Value.list t) = some w →
      ∃ ws, IsSequence w ws ∧ ∀ x ∈ ws, ∃ y ∈ vs, ∃ t, y.convertKnown? t = some x := by
    intro t h
    obtain ⟨ws, hws, rfl⟩ := Option.map_eq_some_iff.mp h
    exact ⟨ws, .list _ _, mem_convertItems? hws⟩
  cases t with
  | dynamic =>
    rw [Value.convertKnown?, Option.some_inj] at h
    exact .inl h.symm
  | list t =>
    refine .inr (hlist (t := t) ?_)
    cases hv <;> simpa only [Value.convertKnown?] using h
  | set t =>
    refine .inr (hset (t := t) ?_)
    cases hv <;> simpa only [Value.convertKnown?] using h
  | tuple ts =>
    cases hv with
    | tuple =>
      obtain ⟨ws, hws, rfl⟩ := Option.map_eq_some_iff.mp h
      exact .inr ⟨ws, .tuple _, mem_convertEach? hws⟩
    | list | set => cases h
  | _ => cases hv <;> cases h

/-- A record is converted entry by entry. -/
theorem IsRecord.convertKnown? (hv : IsRecord v es) (h : v.convertKnown? t = some w) :
    w = v ∨ ∃ ds, IsRecord w ds ∧ Converted es ds := by
  cases t with
  | dynamic =>
    rw [Value.convertKnown?, Option.some_inj] at h
    exact .inl h.symm
  | map t =>
    have hmap : (convertEntries? es t).map (Value.map t) = some w := by
      cases hv <;> simpa only [Value.convertKnown?] using h
    obtain ⟨ds, hds, rfl⟩ := Option.map_eq_some_iff.mp hmap
    exact .inr ⟨ds, .map _ _, converted_convertEntries? hds⟩
  | object ts =>
    cases hv with
    | object =>
      obtain ⟨ds, hds, rfl⟩ := Option.map_eq_some_iff.mp h
      exact .inr ⟨ds, .object _, converted_convertAttributes? hds⟩
    | map => cases h
  | _ => cases hv <;> cases h

/-- Whether the value is a text, a number or a truth value. -/
def isPrimitive : Value → Bool
  | string _ | number _ | bool _ => true
  | _ => false

theorem convertKnown?_primitive (hv : v.isPrimitive = true) (h : v.convertKnown? t = some w) :
    w = v ∨ v.convertPrimitive? t = some w := by
  cases v <;> simp only [isPrimitive, Bool.false_eq_true] at hv <;> cases t <;>
    first | exact .inl (Option.some_inj.mp h).symm | exact .inr h

theorem Definite.convertPrimitive? (h : v.Definite) (hw : v.convertPrimitive? t = some w) :
    w.Definite := by
  unfold Value.convertPrimitive? at hw
  split at hw
  · exact Option.some_inj.mp hw ▸ h
  · exact Option.some_inj.mp hw ▸ .string (Number.normalize_text _)
  · refine Option.some_inj.mp hw ▸ .string (Text.normalize_eq_self ?_)
    split <;> simp
  · obtain ⟨n, -, rfl⟩ := Option.map_eq_some_iff.mp hw
    exact .number n
  · exact Option.some_inj.mp hw ▸ h
  · obtain ⟨b, -, rfl⟩ := Option.map_eq_some_iff.mp hw
    exact .bool b
  · exact Option.some_inj.mp hw ▸ h
  · cases hw

/-- A definite value is converted to one. -/
theorem Definite.convertKnown? (h : v.Definite) :
    ∀ {t w}, v.convertKnown? t = some w → w.Definite := by
  induction h with
  | string hs =>
    intro t w hw
    rcases convertKnown?_primitive rfl hw with rfl | hw
    · exact .string hs
    · exact (Definite.string hs).convertPrimitive? hw
  | number n =>
    intro t w hw
    rcases convertKnown?_primitive rfl hw with rfl | hw
    · exact .number n
    · exact (Definite.number n).convertPrimitive? hw
  | bool b =>
    intro t w hw
    rcases convertKnown?_primitive rfl hw with rfl | hw
    · exact .bool b
    · exact (Definite.bool b).convertPrimitive? hw
  | null t =>
    intro t w hw
    cases t with
    | _ => exact Option.some_inj.mp hw ▸ .null _
  | sequence hv h ih =>
    intro t w hw
    rcases hv.convertKnown? hw with rfl | ⟨ws, hseq, hws⟩
    · exact .sequence hv h
    · refine .sequence hseq fun x hx => ?_
      obtain ⟨y, hy, t', hyx⟩ := hws x hx
      exact ih y hy hyx
  | record hv hascending hnames h ih =>
    intro t w hw
    rcases hv.convertKnown? hw with rfl | ⟨ds, hrec, hnames', hds⟩
    · exact .record hv hascending hnames h
    · refine .record hrec (hascending.sublist hnames') (fun d hd => ?_) fun d hd => ?_
      · obtain ⟨e, he, hname, -⟩ := hds d hd
        exact hname ▸ hnames e he
      · obtain ⟨e, he, -, t', hed⟩ := hds d hd
        exact ih e he hed

/-- **A definite value stays definite under conversion.** -/
theorem Definite.convert? (h : v.Definite) (hw : v.convert? t = some w) : w.Definite := by
  rw [Value.convert?] at hw
  split at hw
  · exact Option.some_inj.mp hw ▸ h
  split at hw
  · exact h.convertKnown? hw
  · cases hw

theorem type_of_convertPrimitive? (h : v.convertPrimitive? t = some w) :
    w.isPrimitive = true ∧ w.type = t := by
  unfold Value.convertPrimitive? at h
  split at h
  · exact Option.some_inj.mp h ▸ ⟨rfl, rfl⟩
  · exact Option.some_inj.mp h ▸ ⟨rfl, rfl⟩
  · exact Option.some_inj.mp h ▸ ⟨rfl, rfl⟩
  · obtain ⟨n, -, rfl⟩ := Option.map_eq_some_iff.mp h
    exact ⟨rfl, rfl⟩
  · exact Option.some_inj.mp h ▸ ⟨rfl, rfl⟩
  · obtain ⟨b, -, rfl⟩ := Option.map_eq_some_iff.mp h
    exact ⟨rfl, rfl⟩
  · exact Option.some_inj.mp h ▸ ⟨rfl, rfl⟩
  · cases h

theorem Definite.type_ne_dynamic (h : v.Definite) (hnull : v.isNull = false) :
    v.type ≠ .dynamic := by
  cases v with
  | null t => cases hnull
  | unknown t => exact absurd h not_unknown
  | _ => simp [type]

/-- Converted to a text, a number or a truth value, a definite value is one. -/
theorem Definite.convert?_primitive (ht : t.isPrimitive = true) (h : v.Definite)
    (hnull : v.isNull = false) (hw : v.convert? t = some w) : w.isPrimitive = true ∧ w.type = t := by
  rw [Value.convert?] at hw
  split at hw
  case isTrue heq =>
    obtain rfl := Option.some_inj.mp hw
    obtain rfl := beq_iff_eq.mp heq
    refine ⟨?_, rfl⟩
    cases v with
    | null t => cases hnull
    | unknown t => exact absurd h not_unknown
    | string | number | bool => rfl
    | _ => simp [type, ValueType.isPrimitive] at ht
  split at hw
  case isTrue =>
    refine type_of_convertPrimitive? (v := v) ?_
    cases t <;> simp only [ValueType.isPrimitive, Bool.false_eq_true] at ht <;> cases v <;>
      first | exact hw | exact absurd h not_unknown | cases hnull
  case isFalse => cases hw

/-- The same, where the value may be `null`. -/
theorem Definite.convert?_primitive_or_null (ht : t.isPrimitive = true) (h : v.Definite)
    (hw : v.convert? t = some w) : w.isNull = true ∨ w.isPrimitive = true ∧ w.type = t := by
  cases hnull : v.isNull with
  | false => exact .inr (h.convert?_primitive ht hnull hw)
  | true =>
    refine .inl ?_
    cases v <;> simp only [isNull, Bool.false_eq_true] at hnull
    rw [Value.convert?] at hw
    split at hw
    · exact Option.some_inj.mp hw ▸ rfl
    split at hw
    · cases t <;> exact Option.some_inj.mp hw ▸ rfl
    · cases hw

theorem Definite.convert?_string (h : v.Definite) (hnull : v.isNull = false)
    (hw : v.convert? .string = some w) : ∃ s, w = .string s := by
  obtain ⟨hprimitive, htype⟩ := h.convert?_primitive rfl hnull hw
  cases w <;> simp_all [isPrimitive, type]

theorem Definite.convert?_number (h : v.Definite) (hnull : v.isNull = false)
    (hw : v.convert? .number = some w) : ∃ n, w = .number n := by
  obtain ⟨hprimitive, htype⟩ := h.convert?_primitive rfl hnull hw
  cases w <;> simp_all [isPrimitive, type]

theorem Definite.convert?_bool (h : v.Definite) (hnull : v.isNull = false)
    (hw : v.convert? .bool = some w) : ∃ b, w = .bool b := by
  obtain ⟨hprimitive, htype⟩ := h.convert?_primitive rfl hnull hw
  cases w <;> simp_all [isPrimitive, type]

end conversion

/-! ### Objects and entries -/

/-- An object of definite values. -/
theorem definite_objectOf {es : List (String × Value)} (h : ∀ e ∈ es, e.2.Definite) :
    (objectOf es).Definite := by
  have hmem : ∀ e ∈ sortNamed (es.map fun e => (Text.normalize e.1, e.2)),
      ∃ d ∈ es, (Text.normalize d.1, d.2) = e := fun e he =>
    List.mem_map.mp (mem_of_mem_sortNamed he)
  refine .record (.object _) (ascending_sortNamed _) (fun e he => ?_) fun e he => ?_
  · obtain ⟨d, -, rfl⟩ := hmem e he
    exact Text.normalize_normalize _
  · obtain ⟨d, hd, rfl⟩ := hmem e he
    exact h d hd

/-- A loop over a definite value goes through definite keys and values. -/
theorem Definite.entries? {v : Value} (h : v.Definite) {es : List (Value × Value)}
    (hes : v.entries? = some es) : ∀ e ∈ es, e.1.Definite ∧ e.2.Definite := by
  have hplaces {vs : List Value} (hvs : ∀ w ∈ vs, w.Definite) :
      ∀ e ∈ vs.zipIdx.map fun p => (int p.2, p.1), e.1.Definite ∧ e.2.Definite := by
    intro e he
    obtain ⟨⟨w, i⟩, hw, rfl⟩ := List.mem_map.mp he
    exact ⟨.number _, hvs w (List.fst_mem_of_mem_zipIdx hw)⟩
  have hnamed {ds : List (String × Value)}
      (hds : ∀ d ∈ ds, Text.normalize d.1 = d.1 ∧ d.2.Definite) :
      ∀ e ∈ ds.map fun d => (Value.string d.1, d.2), e.1.Definite ∧ e.2.Definite := by
    intro e he
    obtain ⟨d, hd, rfl⟩ := List.mem_map.mp he
    exact ⟨.string (hds d hd).1, (hds d hd).2⟩
  cases v with
  | list t vs => exact Option.some_inj.mp hes ▸ hplaces (h.items (.list t vs))
  | tuple vs => exact Option.some_inj.mp hes ▸ hplaces (h.items (.tuple vs))
  | set t vs =>
    obtain rfl := Option.some_inj.mp hes
    intro e he
    obtain ⟨w, hw, rfl⟩ := List.mem_map.mp he
    exact ⟨h.items (.set t vs) w hw, h.items (.set t vs) w hw⟩
  | map t ds => exact Option.some_inj.mp hes ▸ hnamed (h.entries (.map t ds)).2
  | object ds => exact Option.some_inj.mp hes ▸ hnamed (h.entries (.object ds)).2
  | _ => cases hes

end Value

end SolidityCanvas
