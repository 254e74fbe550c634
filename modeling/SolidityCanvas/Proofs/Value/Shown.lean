/-
What the JSON form of a value shows of it.

The form hides whether a sequence is a list, a set or a tuple, whether a record is
a map or an object, what type a `null` has, and which of the numbers with one text a
number is.

* `coerce?_of_toJson?`: it shows all the same to which types the value conforms, and
  `describe_eq_word` how messages call it; what conforms keeps its form;
* `face`: the form with the type, which shows the texts that a value holds
  (`words_congr`).
-/
import SolidityCanvas.Proofs.Property.Typed
import SolidityCanvas.Proofs.Value.Coercion
import SolidityCanvas.Proofs.Value.Reading

namespace SolidityCanvas

/-! ### Documents -/

namespace Json

/-- How messages call the values with this form. -/
def word : Json → String
  | null => "null"
  | bool _ => ValueType.bool.friendlyName
  | number _ => ValueType.number.friendlyName
  | string _ => ValueType.string.friendlyName
  | array _ => "list"
  | object _ => "object"

/-- The values with this form conform to the type. -/
inductive Conforms : Json → ValueType → Prop
  | string (s : String) : Conforms (string s) .string
  | number (t : String) : Conforms (number t) .number
  | bool (b : Bool) : Conforms (bool b) .bool
  | array {t : ValueType} {items : List Json} (h : ∀ j ∈ items, Conforms j t) :
      Conforms (array items) (.list t)

theorem conforms_array_iff {items : List Json} {t : ValueType} :
    (array items).Conforms t ↔ ∃ e, t = .list e ∧ ∀ j ∈ items, j.Conforms e := by
  constructor
  · rintro (_ | _ | _ | h)
    exact ⟨_, rfl, h⟩
  · rintro ⟨e, rfl, h⟩
    exact .array h

/-- The text, of a document that is one. -/
def string? : Json → Option String
  | string s => some s
  | _ => none

/-- The texts in a list. -/
def strings : Json → List String
  | array items => items.filterMap string?
  | _ => []

end Json

namespace Value

variable {v w : Value} {j : Json} {t : ValueType}

/-! ### Conformance -/

theorem IsSequence.items?_eq {items : List Value} (h : IsSequence v items) :
    v.items? = some items := by
  cases h <;> rfl

theorem IsSequence.isSome_coerce?_iff {items : List Value} (h : IsSequence v items) :
    (v.coerce? t).isSome ↔ ∃ e, t = .list e ∧ ∀ u ∈ items, (u.coerce? e).isSome := by
  have hlist : ∀ e, v.coerce? (.list e) = (coerceItems? items e).map (Value.list e) := by
    intro e
    cases h <;> rw [coerce?]
  constructor
  · intro hsome
    cases t with
    | list e =>
      rw [hlist, Option.isSome_map] at hsome
      exact ⟨e, rfl, isSome_coerceItems?_iff.mp hsome⟩
    | _ => cases h <;> simp [coerce?] at hsome
  · rintro ⟨e, rfl, hitems⟩
    rw [hlist, Option.isSome_map]
    exact isSome_coerceItems?_iff.mpr hitems

theorem isNull_iff_of_toJson? (h : v.toJson? = some j) : v.isNull = true ↔ j = .null := by
  have hnull : ClosedUnderWriting fun v j => v.isNull = true ↔ j = .null :=
    { string := fun s => by simp [isNull]
      number := fun b => by simp [isNull]
      bool := fun b => by simp [isNull]
      null := fun t => by simp [isNull]
      array := fun hseq _ => by cases hseq <;> simp [isNull]
      object := fun hrec _ => by cases hrec <;> simp [isNull] }
  exact hnull.of_toJson? v h

theorem describe_eq_word (h : v.toJson? = some j) : v.describe = j.word := by
  have hword : ClosedUnderWriting fun v j => v.describe = j.word :=
    { string := fun s => rfl
      number := fun b => rfl
      bool := fun b => rfl
      null := fun t => rfl
      array := fun hseq _ => by cases hseq <;> rfl
      object := fun hrec _ => by cases hrec <;> rfl }
  exact hword.of_toJson? v h

/-- **The form of a value shows to which types it conforms**, and what conforms
keeps its form. -/
theorem coerce?_of_toJson? (h : v.toJson? = some j) :
    ((v.coerce? t).isSome ↔ j.Conforms t) ∧
      ∀ w, v.coerce? t = some w → w.toJson? = some j := by
  have hprimitive : ∀ {v : Value} {j : Json} {s : ValueType}, v.toJson? = some j →
      (∀ t, v.coerce? t = some v ∧ t = s ∨ v.coerce? t = none ∧ t ≠ s) →
      (∀ t, j.Conforms t ↔ t = s) → ∀ t, ((v.coerce? t).isSome ↔ j.Conforms t) ∧
        ∀ w, v.coerce? t = some w → w.toJson? = some j := by
    intro v j s hj hcoerce hconforms t
    obtain ⟨hv, ht⟩ | ⟨hv, ht⟩ := hcoerce t
    · rw [hconforms, hv]
      simp [ht, hj]
    · simp [hconforms, hv, ht]
  -- Both together, since items that conform make a list with the same form.
  have hconforms : ClosedUnderWriting fun v j => ∀ t, ((v.coerce? t).isSome ↔ j.Conforms t) ∧
      ∀ w, v.coerce? t = some w → w.toJson? = some j :=
    { string := fun s => hprimitive (s := .string) rfl (fun t => by cases t <;> simp [coerce?])
        fun t => ⟨by rintro ⟨⟩; rfl, by rintro rfl; exact .string s⟩
      number := fun b => hprimitive (s := .number) rfl (fun t => by cases t <;> simp [coerce?])
        fun t => ⟨by rintro ⟨⟩; rfl, by rintro rfl; exact .number b.text⟩
      bool := fun b => hprimitive (s := .bool) rfl (fun t => by cases t <;> simp [coerce?])
        fun t => ⟨by rintro ⟨⟩; rfl, by rintro rfl; exact .bool b⟩
      null := fun s t => by
        constructor
        · constructor
          · simp [coerce?]
          · rintro ⟨⟩
        · simp [coerce?]
      array := fun {v items js} hseq hitems t => by
        have hsome : ∀ e, (∀ u ∈ items, (u.coerce? e).isSome) ↔ ∀ j ∈ js, j.Conforms e := by
          intro e
          clear hseq
          induction hitems with
          | nil => simp
          | cons hu _ ih => rw [List.forall_mem_cons, List.forall_mem_cons, (hu e).1, ih]
        constructor
        · simp only [hseq.isSome_coerce?_iff, Json.conforms_array_iff, hsome]
        · intro w hw
          obtain ⟨e, rfl, -⟩ := hseq.isSome_coerce?_iff.mp (Option.isSome_of_mem hw)
          obtain ⟨items', results, hitems', rfl, hresults⟩ := coerce?_list_iff.mp hw
          obtain rfl := Option.some_inj.mp (hseq.items?_eq.symm.trans hitems')
          have hforms : itemsToJson? results = some js := by
            rw [itemsToJson?_eq_some]
            clear hw hitems' hseq hsome
            induction hresults generalizing js with
            | nil =>
              cases hitems
              exact .nil
            | cons hux _ ih =>
              obtain _ | ⟨huj, hrest⟩ := hitems
              exact .cons ((huj e).2 _ hux) (ih hrest)
          rw [toJson?, hforms]
          rfl
      object := fun {v entries members} hrec _ t => by
        constructor
        · constructor
          · intro hsome
            cases hrec <;> simp [coerce?] at hsome
          · rintro ⟨⟩
        · intro w hw
          cases hrec <;> simp [coerce?] at hw }
  exact hconforms.of_toJson? v h t

/-! ### Faces -/

/-- The form of a value, or the value itself if it has none. -/
def shown (v : Value) : Json ⊕ Value :=
  match v.toJson? with
  | some j => .inl j
  | none => .inr v

/-- The type and the form of a value. -/
def face (v : Value) : ValueType × (Json ⊕ Value) := (v.type, v.shown)

theorem shown_eq_iff : v.shown = w.shown ↔
    v = w ∨ ∃ j, v.toJson? = some j ∧ w.toJson? = some j := by
  constructor
  · intro h
    rw [shown, shown] at h
    split at h <;> split at h <;> cases h
    · exact .inr ⟨_, ‹_›, ‹_›⟩
    · exact .inl rfl
  · rintro (rfl | ⟨j, hv, hw⟩)
    · rfl
    · rw [shown, shown, hv, hw]

theorem shown_of_face (h : v.face = w.face) : v.shown = w.shown := congrArg Prod.snd h

/-- Values that are shown alike conform alike, to values with one face. -/
theorem coerce?_shown (h : v.shown = w.shown) (t : ValueType) :
    (v.coerce? t).map face = (w.coerce? t).map face := by
  obtain rfl | ⟨j, hv, hw⟩ := shown_eq_iff.mp h
  · rfl
  obtain ⟨hvsome, hvform⟩ := coerce?_of_toJson? (t := t) hv
  obtain ⟨hwsome, hwform⟩ := coerce?_of_toJson? (t := t) hw
  have hsame := hvsome.trans hwsome.symm
  cases hx : v.coerce? t with
  | none =>
    rw [hx] at hsame
    rw [Option.not_isSome_iff_eq_none.mp (mt hsame.mpr (by simp))]
  | some x =>
    obtain ⟨y, hy⟩ := Option.isSome_iff_exists.mp (hsame.mp (Option.isSome_of_mem hx))
    have htype : x.type = y.type :=
      (inhabits_of_coerce? v hx).type_eq.trans (inhabits_of_coerce? w hy).type_eq.symm
    have hshown : x.shown = y.shown := shown_eq_iff.mpr (.inr ⟨j, hvform x hx, hwform y hy⟩)
    rw [hy, Option.map_some, Option.map_some, face, face, htype, hshown]

theorem canonical_shown (h : v.shown = w.shown) : v.canonical = w.canonical := by
  obtain rfl | ⟨j, hv, hw⟩ := shown_eq_iff.mp h
  · rfl
  · rw [canonical, canonical, hv, hw]

/-! ### Texts -/

/-- The text, of a value that is one. -/
def string? : Value → Option String
  | string s => some s
  | _ => none

/-- The texts in a list of texts. -/
def strings : Value → List String
  | list .string items => items.filterMap string?
  | _ => []

/-- The texts that a value holds: the one that it is, and those that it lists. -/
def words (v : Value) : Option String × List String := (v.string?, v.strings)

/-- The texts of a value are those of its form, in the case of a list if it is one
of texts. -/
theorem words_of_toJson? (h : v.toJson? = some j) :
    v.string? = j.string? ∧ v.strings = if v.type = .list .string then j.strings else [] := by
  have hwords : ClosedUnderWriting fun v j =>
      v.string? = j.string? ∧ v.strings = if v.type = .list .string then j.strings else [] :=
    { string := fun s => ⟨rfl, rfl⟩
      number := fun b => ⟨rfl, rfl⟩
      bool := fun b => ⟨rfl, rfl⟩
      null := fun t => ⟨rfl, by simp [strings, Json.strings]⟩
      array := fun {v items js} hseq hitems => by
        have hstrings : items.filterMap string? = js.filterMap Json.string? := by
          clear hseq
          induction hitems with
          | nil => rfl
          | cons hv _ ih => rw [List.filterMap_cons, List.filterMap_cons, hv.1, ih]
        refine ⟨by cases hseq <;> rfl, ?_⟩
        cases hseq with
        | list t => cases t <;> simp [strings, Json.strings, type, hstrings]
        | set | tuple => simp [strings, type]
      object := fun hrec _ => ⟨by cases hrec <;> rfl, by cases hrec <;> simp [strings, type]⟩ }
  exact hwords.of_toJson? v h

/-- **The face of a value shows its texts.** -/
theorem words_congr (h : v.face = w.face) : v.words = w.words := by
  obtain ⟨htype, hshown⟩ := Prod.mk.inj h
  obtain rfl | ⟨j, hv, hw⟩ := shown_eq_iff.mp hshown
  · rfl
  obtain ⟨hvstring, hvstrings⟩ := words_of_toJson? hv
  obtain ⟨hwstring, hwstrings⟩ := words_of_toJson? hw
  rw [words, words, hvstring, hwstring, hvstrings, hwstrings, htype]

end Value

end SolidityCanvas
