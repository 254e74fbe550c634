/-
Values that conform to a type.

* `Value.Inhabits`: the value is of the type, and so are the items of a list; all
  of them are known and not `null`;
* `inhabits_of_coerce?`: what is accepted for a type inhabits it;
* `coerce?_self_iff`: a value is accepted as it is exactly if it inhabits the
  type, so that accepting it again changes nothing;
* `coerce?_primitive_iff`: to a primitive type just the values of that type conform;
* `coerce?_list_iff`: to a list type the lists, tuples and sets do whose items
  conform to the element type;
* `coerce?_spec`: hence when a value conforms, and what it becomes.
-/
import SolidityCanvas.Proofs.Value.Reading
import SolidityCanvas.Property.Schema

namespace SolidityCanvas.Value

variable {v w : Value} {t : ValueType}

/-- The value is of the type, known and not `null`, and a list holds such
values. -/
inductive Inhabits : Value → ValueType → Prop
  | string (s : String) : Inhabits (string s) .string
  | number (n : Number) : Inhabits (number n) .number
  | bool (b : Bool) : Inhabits (bool b) .bool
  | list {t : ValueType} {items : List Value} (h : ∀ v ∈ items, Inhabits v t) :
      Inhabits (list t items) (.list t)

namespace Inhabits

theorem type_eq (h : v.Inhabits t) : v.type = t := by
  cases h <;> rw [type]

theorem isNull_eq_false (h : v.Inhabits t) : v.isNull = false := by
  cases h <;> rfl

theorem isWhollyKnown (h : v.Inhabits t) : v.isWhollyKnown = true := by
  induction h with
  | string | number | bool => rfl
  | list _ ih => exact allKnown_iff.mpr ih

end Inhabits

mutual

/-- **What is accepted for a type inhabits it.** -/
theorem inhabits_of_coerce? : (v : Value) → {t : ValueType} → {w : Value} →
    v.coerce? t = some w → w.Inhabits t
  | string s, t, w, h => by
    cases t <;> simp only [coerce?, Option.some_inj, reduceCtorEq] at h
    exact h ▸ .string s
  | number n, t, w, h => by
    cases t <;> simp only [coerce?, Option.some_inj, reduceCtorEq] at h
    exact h ▸ .number n
  | bool b, t, w, h => by
    cases t <;> simp only [coerce?, Option.some_inj, reduceCtorEq] at h
    exact h ▸ .bool b
  | list _ items, t, w, h | set _ items, t, w, h | tuple items, t, w, h => by
    cases t <;> simp only [coerce?, Option.map_eq_some_iff, reduceCtorEq] at h
    obtain ⟨ws, hws, rfl⟩ := h
    exact .list (inhabits_of_coerceItems? items hws)
  | map _ _, t, w, h | object _, t, w, h | null _, t, w, h | unknown _, t, w, h => by
    simp [coerce?] at h

theorem inhabits_of_coerceItems? : (items : List Value) → {t : ValueType} → {ws : List Value} →
    coerceItems? items t = some ws → ∀ w ∈ ws, w.Inhabits t
  | [], t, ws, h => by
    obtain rfl := Option.some_inj.mp h
    exact fun _ hw => absurd hw List.not_mem_nil
  | v :: items, t, ws, h => by
    simp only [coerceItems?, Option.bind_eq_bind, Option.bind_eq_some_iff, Option.pure_def,
      Option.some_inj] at h
    obtain ⟨w, hw, rest, hrest, rfl⟩ := h
    exact List.forall_mem_cons.mpr
      ⟨inhabits_of_coerce? v hw, inhabits_of_coerceItems? items hrest⟩

end

theorem coerceItems?_self {items : List Value} (h : ∀ v ∈ items, v.coerce? t = some v) :
    coerceItems? items t = some items := by
  induction items with
  | nil => rw [coerceItems?]
  | cons v items ih =>
    obtain ⟨hv, hitems⟩ := List.forall_mem_cons.mp h
    rw [coerceItems?, hv, ih hitems]
    rfl

/-- **A value is accepted as it is exactly if it inhabits the type.** -/
theorem coerce?_self_iff : v.coerce? t = some v ↔ v.Inhabits t := by
  refine ⟨inhabits_of_coerce? v, fun h => ?_⟩
  induction h with
  | string | number | bool => rw [coerce?]
  | list _ ih => rw [coerce?, coerceItems?_self ih, Option.map_some]

/-- What was accepted is accepted again. -/
theorem coerce?_coerce? (h : v.coerce? t = some w) : w.coerce? t = some w :=
  coerce?_self_iff.mpr (inhabits_of_coerce? v h)

/-- The value that stands for a missing one inhabits the type, if properties can
have the type. -/
theorem inhabits_zero (ht : t.isPropertyType) : (zero t).Inhabits t := by
  cases t with
  | string => exact .string ""
  | number => exact .number _
  | bool => exact .bool false
  | list => exact .list fun _ hv => absurd hv List.not_mem_nil
  | _ => cases ht

/-! ### Items -/

variable {e : ValueType}

theorem coerceItems?_eq_some : ∀ {items ws : List Value}, coerceItems? items t = some ws ↔
    List.Forall₂ (fun v w => v.coerce? t = some w) items ws := by
  intro items
  induction items with
  | nil =>
    intro ws
    rw [coerceItems?, List.forall₂_nil_left_iff, Option.some_inj, eq_comm]
  | cons v items ih =>
    intro ws
    simp only [coerceItems?, Option.bind_eq_bind, Option.bind_eq_some_iff, Option.pure_def,
      Option.some_inj, List.forall₂_cons_left_iff, ih]
    constructor
    · rintro ⟨w, hw, ws', hws, rfl⟩
      exact ⟨w, ws', hw, hws, rfl⟩
    · rintro ⟨w, ws', hw, hws, rfl⟩
      exact ⟨w, hw, ws', hws, rfl⟩

theorem isSome_coerceItems?_iff {items : List Value} :
    (coerceItems? items t).isSome ↔ ∀ u ∈ items, (u.coerce? t).isSome := by
  induction items with
  | nil => simp [coerceItems?]
  | cons u items ih =>
    rw [List.forall_mem_cons, ← ih, coerceItems?]
    cases u.coerce? t <;> cases coerceItems? items t <;> simp

/-! ### Primitive types and list types -/

/-- **To a primitive type the values of that type conform**, and stay as they
are. -/
theorem coerce?_primitive_iff (ht : t.isPrimitive) : v.coerce? t = some w ↔
    w = v ∧ v.type = t ∧ v.isNull = false ∧ v.isWhollyKnown = true := by
  constructor
  · intro h
    obtain rfl : w = v := by
      cases v <;> cases t <;> simp_all [coerce?, ValueType.isPrimitive]
    have hv := inhabits_of_coerce? w h
    exact ⟨rfl, hv.type_eq, hv.isNull_eq_false, hv.isWhollyKnown⟩
  · rintro ⟨rfl, rfl, hnull, hknown⟩
    cases w <;> simp_all [coerce?, type, isNull, isWhollyKnown, ValueType.isPrimitive]

/-- **To a list type the lists, tuples and sets of conforming items conform**,
and become lists of what the items become. -/
theorem coerce?_list_iff : v.coerce? (.list e) = some w ↔
    ∃ items results, v.items? = some items ∧ w = list e results ∧
      List.Forall₂ (fun u x => u.coerce? e = some x) items results := by
  have hlist : ∀ items, (coerceItems? items e).map (list e) = some w ↔
      ∃ results, w = list e results ∧
        List.Forall₂ (fun u x => u.coerce? e = some x) items results := by
    intro items
    simp only [Option.map_eq_some_iff, coerceItems?_eq_some]
    constructor
    · rintro ⟨ws, hws, rfl⟩
      exact ⟨ws, rfl, hws⟩
    · rintro ⟨ws, rfl, hws⟩
      exact ⟨ws, hws, rfl⟩
  cases v with
  | list | set | tuple => simpa [coerce?, items?] using hlist _
  | _ => simp [coerce?, items?]

/-- To other types nothing conforms. -/
theorem isPrimitive_or_list_of_coerce? (h : v.coerce? t = some w) :
    t.isPrimitive = true ∨ ∃ e, t = .list e := by
  cases t with
  | string | number | bool => exact .inl rfl
  | list e => exact .inr ⟨e, rfl⟩
  | _ => cases v <;> simp [coerce?] at h

/-! ### Known values -/

theorem isNull_eq_false_of_coerce? (h : v.coerce? t = some w) : v.isNull = false := by
  cases v with
  | null => simp [coerce?] at h
  | _ => rfl

mutual

/-- What conforms is known with all it holds. -/
theorem isWhollyKnown_of_coerce? : (v : Value) → {t : ValueType} → {w : Value} →
    v.coerce? t = some w → v.isWhollyKnown = true
  | string _, _, _, _ | number _, _, _, _ | bool _, _, _, _ => rfl
  | list _ items, t, w, h | set _ items, t, w, h | tuple items, t, w, h => by
    cases t <;> simp only [coerce?, Option.map_eq_some_iff, reduceCtorEq] at h
    obtain ⟨_, hitems, -⟩ := h
    exact allKnown_of_coerceItems? items hitems
  | map _ _, t, w, h | object _, t, w, h | null _, t, w, h | unknown _, t, w, h => by
    simp [coerce?] at h

theorem allKnown_of_coerceItems? : (items : List Value) → {t : ValueType} → {ws : List Value} →
    coerceItems? items t = some ws → allKnown items = true
  | [], _, _, _ => rfl
  | v :: items, t, ws, h => by
    simp only [coerceItems?, Option.bind_eq_bind, Option.bind_eq_some_iff] at h
    obtain ⟨w, hw, rest, hrest, -⟩ := h
    rw [allKnown, isWhollyKnown_of_coerce? v hw, allKnown_of_coerceItems? items hrest]
    rfl

end

/-- A value conforms if it is of a primitive type, or its items conform. -/
theorem isSome_coerce?_iff : (v.coerce? t).isSome = true ↔
    v.isNull = false ∧ v.isWhollyKnown = true ∧
      (t.isPrimitive = true ∧ v.type = t ∨
        ∃ e items, t = .list e ∧ v.items? = some items ∧
          ∀ u ∈ items, (u.coerce? e).isSome = true) := by
  constructor
  · intro h
    obtain ⟨w, hw⟩ := Option.isSome_iff_exists.mp h
    refine ⟨isNull_eq_false_of_coerce? hw, isWhollyKnown_of_coerce? v hw, ?_⟩
    obtain ht | ⟨e, rfl⟩ := isPrimitive_or_list_of_coerce? hw
    · obtain ⟨-, htype, -⟩ := (coerce?_primitive_iff ht).mp hw
      exact .inl ⟨ht, htype⟩
    · obtain ⟨items, results, hitems, -, hresults⟩ := coerce?_list_iff.mp hw
      have hsome := Option.isSome_iff_exists.mpr ⟨_, coerceItems?_eq_some.mpr hresults⟩
      exact .inr ⟨e, items, rfl, hitems, isSome_coerceItems?_iff.mp hsome⟩
  · rintro ⟨hnull, hknown, ⟨ht, htype⟩ | ⟨e, items, rfl, hitems, hsome⟩⟩
    · exact Option.isSome_iff_exists.mpr
        ⟨v, (coerce?_primitive_iff ht).mpr ⟨rfl, htype, hnull, hknown⟩⟩
    · obtain ⟨results, hresults⟩ := Option.isSome_iff_exists.mp (isSome_coerceItems?_iff.mpr hsome)
      exact Option.isSome_iff_exists.mpr
        ⟨_, coerce?_list_iff.mpr ⟨items, results, hitems, rfl, coerceItems?_eq_some.mp hresults⟩⟩

/-! ### Conformance -/

/-- **Conformance of values to types.**  A value that is given conforms exactly if
it is known with all it holds, is not `null`, and is of the type, if this is
primitive, or is a list, tuple or set of items that conform to the element type.
It becomes a known value of just that type: itself, or the list of what its items
become, one for each in their order, all of the element type.  Accepted once
more, that stays as it is. -/
theorem coerce?_spec (given : Option Value) (t : ValueType) :
    ((given.bind (·.coerce? t)).isSome = true ↔
      ∃ v, given = some v ∧ v.isNull = false ∧ v.isWhollyKnown = true ∧
        (t.isPrimitive = true ∧ v.type = t ∨
          ∃ e items, t = .list e ∧ v.items? = some items ∧
            ∀ u ∈ items, (u.coerce? e).isSome = true)) ∧
    ∀ v w, given = some v → v.coerce? t = some w →
      w.type = t ∧ w.isNull = false ∧ w.isWhollyKnown = true ∧ w.coerce? t = some w ∧
      (t.isPrimitive = true → w = v) ∧
      ∀ e, t = .list e → ∃ items results, v.items? = some items ∧ w = list e results ∧
        results.length = items.length ∧
        List.Forall₂ (fun u x => u.coerce? e = some x) items results ∧
        ∀ x ∈ results, x.type = e := by
  refine ⟨?_, fun v w _ hw => ?_⟩
  · cases given with
    | none => simp
    | some v =>
      rw [Option.bind_some, isSome_coerce?_iff]
      simp only [Option.some_inj, exists_eq_left']
  · have hinhabits := inhabits_of_coerce? v hw
    refine ⟨hinhabits.type_eq, hinhabits.isNull_eq_false, hinhabits.isWhollyKnown,
      coerce?_coerce? hw, fun ht => ((coerce?_primitive_iff ht).mp hw).1, ?_⟩
    rintro e rfl
    obtain ⟨items, results, hitems, rfl, hresults⟩ := coerce?_list_iff.mp hw
    refine ⟨items, results, hitems, rfl, hresults.length_eq.symm, hresults, fun x hx => ?_⟩
    -- The list is made of values of one type, since each was accepted for it.
    obtain ⟨u, -, hux⟩ := exists_mem_of_forall₂ hresults x hx
    exact (inhabits_of_coerce? u hux).type_eq

/-- Two sets in a tuple become a list of two lists. -/
theorem coerce?_sets :
    (tuple [set .string [string "a", string "b"], set .string []]).coerce? (.list (.list .string)) =
      some (list (.list .string) [list .string [string "a", string "b"], list .string []]) ∧
    (list (.list .string) [list .string [string "a", string "b"], list .string []]).coerce?
      (.list (.list .string)) =
      some (list (.list .string) [list .string [string "a", string "b"], list .string []]) := by
  have hsets : (tuple [set .string [string "a", string "b"], set .string []]).coerce?
      (.list (.list .string)) =
      some (list (.list .string) [list .string [string "a", string "b"], list .string []]) := rfl
  obtain ⟨-, -, -, hagain, -⟩ := (coerce?_spec (some _) _).2 _ _ rfl hsets
  exact ⟨hsets, hagain⟩

end SolidityCanvas.Value
