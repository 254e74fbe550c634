/-
Content that stays the same on its way.

A canvas that is sent is written and read again, and its content is told by the
canonical texts of its values.  All of them stay what they were except for numbers:
a number is written by its text, and the number that is read may be another one.  Its
text is the same all the same, or it is not (`Number.KeepsText`).

* `Value.canonical_reread_iff`: a value has its canonical text after that exactly if
  its numbers keep their texts;
* `Canvas.contentText_reread_iff`: so has a canvas.
-/
import SolidityCanvas.Proofs.Canvas.RoundTrip

namespace SolidityCanvas

open Json (Carries)

/-- The number is read from its text as a number with that text. -/
def Number.KeepsText : Number → Prop
  | finite b => ∃ b', parse? b.text = some (finite b') ∧ b'.text = b.text
  | infinite _ => False

/-- A number that is read back keeps its text. -/
theorem Number.ReadsBack.keepsText {n : Number} (h : n.ReadsBack) : n.KeepsText := by
  cases n with
  | finite b => exact ⟨b, h, rfl⟩
  | infinite _ => exact h

namespace Value

variable {v w : Value} {j : Json}

/-! ### Written forms -/

/-- A written form writes numbers as numerals. -/
theorem numerals_toJson? (h : v.toJson? = some j) : j.Numerals := by
  have hnumerals : ClosedUnderWriting fun _ j => j.Numerals :=
    { string := fun s => .string s
      number := fun b => .number b.toList_text_ne_nil b.isNumeral_of_mem_text
      bool := fun b => .bool b
      null := fun _ => .null
      array := fun _ hitems => .array fun j hj => by
        obtain ⟨_, _, hj⟩ := exists_mem_of_forall₂ hitems j hj
        exact hj
      object := fun _ hentries => .object fun m hm => by
        obtain ⟨_, _, _, hm⟩ := exists_mem_of_forall₂ hentries m hm
        exact hm }
  exact hnumerals.of_toJson? v h

/-- A call does not begin like a document. -/
theorem Plain.callChars_ne_chars {N : Set Number} {form : Option ValueType} (hw : Plain N form w)
    (hj : j.Numerals) : w.callChars ≠ j.chars := by
  obtain ⟨r, hr, _⟩ := hw.callChars_eq
  have hne := (Json.opens_chars hj (d := 'c') rfl).append_ne [] r
  rw [List.append_nil] at hne
  exact fun h => hne (h ▸ hr)

/-- The value is written as the document after it was read. -/
def WrittenAgain (v : Value) (j : Json) : Prop :=
  ∃ w, v.reread? some = some w ∧ w.toJson? = some j

theorem forall₂_writtenAgain {items : List Value} {js : List Json} :
    (∃ ws, rereadItems? some items = some ws ∧ itemsToJson? ws = some js) ↔
      List.Forall₂ WrittenAgain items js := by
  induction items generalizing js with
  | nil =>
    rw [List.forall₂_nil_left_iff]
    simp [rereadItems?, itemsToJson?, eq_comm]
  | cons v items ih =>
    rw [List.forall₂_cons_left_iff]
    simp only [rereadItems?, Option.bind_eq_bind, Option.bind_eq_some_iff, Option.pure_def,
      Option.some_inj, ← ih]
    constructor
    · rintro ⟨_, ⟨w, hw, ws, hws, rfl⟩, hjs⟩
      simp only [itemsToJson?, Option.bind_eq_bind, Option.bind_eq_some_iff, Option.pure_def,
        Option.some_inj] at hjs
      obtain ⟨j, hj, rest, hrest, rfl⟩ := hjs
      exact ⟨j, rest, ⟨w, hw, hj⟩, ⟨ws, hws, hrest⟩, rfl⟩
    · rintro ⟨j, rest, ⟨w, hw, hj⟩, ⟨ws, hws, hrest⟩, rfl⟩
      exact ⟨w :: ws, ⟨w, hw, ws, hws, rfl⟩, by simp [itemsToJson?, hj, hrest]⟩

theorem forall₂_namedWrittenAgain {entries : List (String × Value)}
    {members : List (String × Json)} :
    (∃ named, rereadEntries? some entries = some named ∧ entriesToJson? named = some members) ↔
      List.Forall₂ (fun e m => e.1 = m.1 ∧ WrittenAgain e.2 m.2) entries members := by
  induction entries generalizing members with
  | nil =>
    rw [List.forall₂_nil_left_iff]
    simp [rereadEntries?, entriesToJson?, eq_comm]
  | cons e entries ih =>
    obtain ⟨n, v⟩ := e
    rw [List.forall₂_cons_left_iff]
    simp only [rereadEntries?, Option.bind_eq_bind, Option.bind_eq_some_iff, Option.pure_def,
      Option.some_inj, ← ih]
    constructor
    · rintro ⟨_, ⟨w, hw, ws, hws, rfl⟩, hjs⟩
      simp only [entriesToJson?, Option.bind_eq_bind, Option.bind_eq_some_iff, Option.pure_def,
        Option.some_inj] at hjs
      obtain ⟨j, hj, rest, hrest, rfl⟩ := hjs
      exact ⟨(n, j), rest, ⟨rfl, w, hw, hj⟩, ⟨ws, hws, hrest⟩, rfl⟩
    · rintro ⟨⟨m, j⟩, rest, ⟨rfl, w, hw, hj⟩, ⟨ws, hws, hrest⟩, rfl⟩
      exact ⟨(n, w) :: ws, ⟨w, hw, ws, hws, rfl⟩, by simp [entriesToJson?, hj, hrest]⟩

/-- **A value has its written form again exactly if its numbers keep their texts.** -/
theorem writtenAgain_iff (h : v.toJson? = some j) :
    v.WrittenAgain j ↔ ∀ n ∈ v.numbers, n.KeepsText := by
  have hclosed : ClosedUnderWriting fun v j =>
      (v.WrittenAgain j ↔ ∀ n ∈ v.numbers, n.KeepsText) :=
    { string := fun s => by simp [WrittenAgain, reread?, toJson?, numbers]
      number := fun b => by
        simp only [WrittenAgain, reread?, rereadNumber?, Option.bind_some, Option.map_eq_some_iff,
          numbers, List.forall_mem_singleton, Number.KeepsText]
        constructor
        · rintro ⟨_, ⟨n, hn, rfl⟩, hj⟩
          cases n with
          | finite b' => exact ⟨b', hn, by simpa [toJson?] using hj⟩
          | infinite _ => simp [toJson?] at hj
        · rintro ⟨b', hb', htext⟩
          exact ⟨_, ⟨_, hb', rfl⟩, by simp [toJson?, htext]⟩
      bool := fun b => by simp [WrittenAgain, reread?, toJson?, numbers]
      null := fun t => by simp [WrittenAgain, reread?, toJson?, numbers]
      array := fun {v items js} hseq hitems => by
        have hparts : v.WrittenAgain (.array js) ↔ List.Forall₂ WrittenAgain items js := by
          rw [← forall₂_writtenAgain, WrittenAgain, hseq.reread?]
          simp [Option.map_eq_some_iff, toJson?]
        simp only [hparts, hseq.mem_numbers]
        clear hparts hseq
        induction hitems with
        | nil => simp
        | cons hv _ ih => simp [hv, ih, or_imp, forall_and]
      object := fun {v entries members} hrec hentries => by
        have hparts : v.WrittenAgain (.object members) ↔
            List.Forall₂ (fun e m => e.1 = m.1 ∧ WrittenAgain e.2 m.2) entries members := by
          rw [← forall₂_namedWrittenAgain, WrittenAgain, hrec.reread?]
          simp [Option.map_eq_some_iff, toJson?]
        simp only [hparts, hrec.mem_numbers]
        clear hparts hrec
        induction hentries with
        | nil => simp
        | cons hv _ ih => simp [hv.1, hv.2, ih, or_imp, forall_and] }
  exact hclosed.of_toJson? v h

/-! ### Canonical texts -/

theorem break_notMem_of_toJson? (h : v.toJson? = some j) {x : Char} (hx : Text.IsBreak x) :
    x ∉ v.canonicalChars := by
  rw [canonicalChars_of_some h]
  exact Json.break_notMem_chars (numerals_toJson? h) hx

/-- **A value has its canonical text again exactly if its numbers keep their
texts.** -/
theorem canonical_reread_iff (hv : v.Normal) (h : v.toJson? = some j) :
    (∃ w, v.reread? some = some w ∧ w.canonical = v.canonical) ↔
      ∀ n ∈ v.numbers, n.KeepsText := by
  rw [← writtenAgain_iff h]
  refine exists_congr fun w => and_congr_right fun hw => ?_
  rw [← String.toList_inj]
  change w.canonicalChars = v.canonicalChars ↔ _
  rw [canonicalChars_of_some h]
  have hdescribed : w.Described :=
    described_of_ofJson? j ((ofJson?_carried hv h (Json.carries_refl j)).trans hw)
  constructor
  · intro hchars
    cases hk : w.toJson? with
    | none =>
      rw [canonicalChars_of_none hk] at hchars
      exact absurd hchars (hdescribed.callChars_ne_chars (numerals_toJson? h))
    | some k =>
      rw [canonicalChars_of_some hk] at hchars
      obtain ⟨rfl, _⟩ := Json.told_chars (numerals_toJson? hk) (numerals_toJson? h)
        (Text.stops_nil _) (Text.stops_nil _) (congrArg (· ++ []) hchars)
      rfl
  · exact canonicalChars_of_some

end Value

/-- **Properties have their canonical text again exactly if their numbers keep their
texts.** -/
theorem Bag.canonical_reread_iff {b : Bag} (hb : ∀ e ∈ b, e.2.Normal)
    {members : List (String × Json)} (h : Value.entriesToJson? b = some members) :
    (∃ d, Value.rereadEntries? some b = some d ∧ Bag.canonical d = Bag.canonical b) ↔
      ∀ e ∈ b, ∀ n ∈ e.2.numbers, n.KeepsText := by
  have hforall := Value.entriesToJson?_eq_some.mp h
  clear h
  simp only [← String.toList_inj, toList_canonical]
  induction hforall with
  | nil => simp [Value.rereadEntries?]
  | @cons e m b _ hem _ ih =>
    obtain ⟨n, v⟩ := e
    obtain ⟨hv, hb⟩ := List.forall_mem_cons.mp hb
    have htail : _ ↔ _ := ih hb
    rw [List.forall_mem_cons, ← htail, ← Value.canonical_reread_iff hv hem.2]
    have hbreak := Value.break_notMem_of_toJson? hem.2 (.inr rfl)
    simp only [Value.rereadEntries?, Option.bind_eq_bind, Option.bind_eq_some_iff,
      Option.pure_def, Option.some_inj, List.flatMap_cons]
    -- What is read is described, and so its text has one line as well.
    have hline : ∀ w, v.reread? some = some w → '\n' ∉ w.canonicalChars := fun w hw =>
      (Value.described_of_ofJson? m.2 ((Value.ofJson?_carried hv hem.2
        (Json.carries_refl m.2)).trans hw)).break_notMem_canonicalChars (.inr rfl)
    constructor
    · rintro ⟨_, ⟨w, hw, d, hd, rfl⟩, heq⟩
      obtain ⟨hvalue, hrest⟩ := (lineChars_eq_iff (hline w hw) hbreak).mp heq
      exact ⟨⟨w, hw, hvalue⟩, d, hd, hrest⟩
    · rintro ⟨⟨w, hw, hvalue⟩, d, hd, hrest⟩
      exact ⟨_, ⟨w, hw, d, hd, rfl⟩, (lineChars_eq_iff (hline w hw) hbreak).mpr ⟨hvalue, hrest⟩⟩

namespace Canvas

variable {c d : Canvas} {j : Json}

theorem contentText_eq_iff : d.contentText = c.contentText ↔
    d.instances.map instanceParts = c.instances.map instanceParts ∧
      d.connections = c.connections := by
  refine ⟨parts_eq_of_contentText_eq, fun ⟨hparts, hconnections⟩ => ?_⟩
  have hlength : d.instances.length = c.instances.length := by
    simpa using congrArg List.length hparts
  rw [← String.toList_inj, toList_contentText, toList_contentText, hparts, hconnections, hlength]

/-- **A canvas has its content text again exactly if its numbers keep their texts.** -/
theorem contentText_reread_iff (hc : c.Normal) (h : c.toJson? = some j) :
    (∃ d, c.reread? some = some d ∧ d.contentText = c.contentText) ↔
      ∀ n ∈ c.numbers, n.KeepsText := by
  obtain ⟨js, hjs, -, -⟩ := toJson?_eq_some.mp h
  have hinstance : ∀ i ∈ c.instances,
      ((∃ i', rereadInstance? some i = some i' ∧ instanceParts i' = instanceParts i) ↔
        ∀ e ∈ i.properties, ∀ n ∈ e.2.numbers, n.KeepsText) := by
    intro i hi
    obtain ⟨k, hk⟩ := exists_mapM_iff.mp ⟨js, mapM_eq_some_iff.mpr hjs⟩ i hi
    obtain ⟨members, hmembers, -⟩ := Option.bind_eq_some_iff.mp hk
    rw [← Bag.canonical_reread_iff (hc.properties i hi).values hmembers]
    simp [rereadInstance?, Option.map_eq_some_iff, instanceParts]
  have hreread : (∃ d, c.reread? some = some d ∧ d.contentText = c.contentText) ↔
      ∃ is, c.instances.mapM (rereadInstance? some) = some is ∧
        is.map instanceParts = c.instances.map instanceParts := by
    simp only [contentText_eq_iff, reread?, Json.rereadWord?_some, Option.bind_eq_bind,
      Option.bind_eq_some_iff, Option.pure_def, Option.some_inj]
    constructor
    · rintro ⟨_, ⟨is, his, _, rfl, rfl⟩, hparts, -⟩
      exact ⟨is, his, hparts⟩
    · rintro ⟨is, his, hparts⟩
      exact ⟨_, ⟨is, his, _, rfl, rfl⟩, hparts, rfl⟩
  rw [hreread, exists_mapM_map_iff]
  constructor
  · rintro hall n ⟨i, hi, e, he, hn⟩
    exact (hinstance i hi).mp (hall i hi) e he n hn
  · exact fun hall i hi => (hinstance i hi).mpr fun e he n hn => hall n ⟨i, hi, e, he, hn⟩

end Canvas

end SolidityCanvas
