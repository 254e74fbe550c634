/-
Values of the types that properties have.

* `plain_of_coerce?`: what is accepted for a property type is a plain value,
  whose lists have the element type;
* `Property.plain_bind`: hence so is the value of a property that suits it, if
  its default was accepted (`Property.Sound`);
* `forall₂_sortNamed`: sorting named values by their names keeps those in one
  place that belong together.
-/
import SolidityCanvas.Proofs.Canvas.Content
import SolidityCanvas.Proofs.Validation.Findings
import SolidityCanvas.Proofs.Value.Coercion
import SolidityCanvas.Property.Bind

namespace SolidityCanvas

/-- The type of the items, of a list type. -/
def ValueType.element? : ValueType → Option ValueType
  | list t => some t
  | _ => none

namespace Value

variable {v w : Value} {t : ValueType}

/-- Values of a primitive type are accepted as they are. -/
theorem coerce?_primitive (ht : t.isPrimitive) (h : v.coerce? t = some w)
    (form : Option ValueType) : w = v ∧ w.Plain {n | n ∈ w.numbers} form := by
  obtain ⟨rfl, rfl, hnull, hknown⟩ := (coerce?_primitive_iff ht).mp h
  refine ⟨rfl, ?_⟩
  cases w with
  | string s => exact .string s
  | number n => exact .number (List.mem_singleton_self n)
  | bool b => exact .bool b
  | null => cases hnull
  | unknown => cases hknown
  | _ => simp [type, ValueType.isPrimitive] at ht

theorem coerceItems?_primitive (ht : t.isPrimitive) (form : Option ValueType) :
    ∀ {items ws : List Value}, coerceItems? items t = some ws →
      ws = items ∧ ∀ w ∈ ws, w.Plain {n | n ∈ w.numbers} form := by
  intro items
  induction items with
  | nil =>
    intro ws h
    rw [coerceItems?] at h
    obtain rfl := Option.some_inj.mp h
    exact ⟨rfl, fun _ hw => absurd hw List.not_mem_nil⟩
  | cons v items ih =>
    intro ws h
    simp only [coerceItems?, Option.bind_eq_bind, Option.bind_eq_some_iff, Option.pure_def,
      Option.some_inj] at h
    obtain ⟨w, hw, rest, hrest, rfl⟩ := h
    obtain ⟨rfl, hplain⟩ := coerce?_primitive ht hw form
    obtain ⟨rfl, hrestPlain⟩ := ih hrest
    exact ⟨rfl, List.forall_mem_cons.mpr ⟨hplain, hrestPlain⟩⟩

/-- **What is accepted for a property type is plain**, and holds the numbers
that were given. -/
theorem plain_of_coerce? (ht : t.isPropertyType) (h : v.coerce? t = some w) :
    w.numbers = v.numbers ∧ w.Plain {n | n ∈ w.numbers} t.element? := by
  have hprimitive : t.isPrimitive →
      w.numbers = v.numbers ∧ w.Plain {n | n ∈ w.numbers} t.element? := by
    intro hp
    obtain ⟨rfl, hplain⟩ := coerce?_primitive hp h t.element?
    exact ⟨rfl, hplain⟩
  match t, ht with
  | .string, _ => exact hprimitive rfl
  | .number, _ => exact hprimitive rfl
  | .bool, _ => exact hprimitive rfl
  | .list e, ht =>
    have hlist : ∀ {items : List Value}, (coerceItems? items e).map (list e) = some w →
        w.numbers = itemsNumbers items ∧ w.Plain {n | n ∈ w.numbers} (some e) := by
      intro items hitems
      obtain ⟨ws, hws, rfl⟩ := Option.map_eq_some_iff.mp hitems
      obtain ⟨rfl, hplain⟩ := coerceItems?_primitive ht (some e) hws
      refine ⟨by rw [numbers], .list rfl ht fun u hu => (hplain u hu).mono fun n hn => ?_⟩
      change n ∈ (list e ws).numbers
      rw [numbers, mem_itemsNumbers]
      exact ⟨u, hu, hn⟩
    cases v with
    | list s items => exact hlist h
    | set s items => exact hlist h
    | tuple items => exact hlist h
    | _ => simp [coerce?] at h

end Value

/-! ### Properties -/

/-- The type is one that properties can have, and the default is of that
type. -/
structure Property.Sound (p : Property) : Prop where
  type : p.type.isPropertyType
  default : ∀ v, p.default = some v → v.Plain {n | n ∈ v.numbers} p.type.element?

/-- **The value of a property that suits it is plain**, and its numbers are
those that were given or those of the default. -/
theorem Property.plain_bind {p : Property} (hp : p.Sound) {id : String} {raw : Bag}
    (hfits : p.Fits raw) :
    (p.bind id raw).1.Plain {n | (∃ e ∈ raw, n ∈ e.2.numbers) ∨
      ∃ v, p.default = some v ∧ n ∈ v.numbers} p.type.element? := by
  have hsome : ∀ {v}, p.default = some v → v.Plain {n | (∃ e ∈ raw, n ∈ e.2.numbers) ∨
      ∃ v, p.default = some v ∧ n ∈ v.numbers} p.type.element? :=
    fun {v} hv => (hp.default v hv).mono fun n hn => .inr ⟨v, hv, hn⟩
  -- Without a value and without a default the property would not be suited.
  have hnone : (∀ v, raw.get? p.name = some v → v.isNull = true) → p.default ≠ none := by
    intro habsent hdefault
    have hsome := (fits_iff_of_absent habsent).mp hfits
    exact absurd hsome (by simp [hdefault])
  rw [bind]
  split
  · rename_i hget
    split
    · rename_i v hv
      exact hsome hv
    · rename_i hdefault
      exact absurd hdefault (hnone (by simp [hget]))
  · rename_i t hget
    split
    · rename_i v hv
      exact hsome hv
    · rename_i hdefault
      exact absurd hdefault (hnone (by simp [hget, Value.isNull]))
  · rename_i v hnull hget
    have hv : v.isNull = false := Value.isNull_eq_false hnull
    obtain ⟨w, hw⟩ := Option.isSome_iff_exists.mp (hfits.2 v hget hv)
    rw [hw]
    obtain ⟨hnumbers, hplain⟩ := Value.plain_of_coerce? hp.type hw
    have hmem : (p.name, v) ∈ raw := by
      obtain ⟨l, m, rfl, _⟩ := List.lookup_eq_some_iff.mp hget
      exact List.mem_append_right _ List.mem_cons_self
    exact hplain.mono fun n hn => .inl ⟨(p.name, v), hmem, hnumbers ▸ hn⟩

theorem Value.plain_zero {t : ValueType} (ht : t.isPropertyType) :
    (zero t).Plain {n | n ∈ (zero t).numbers} t.element? := by
  match t, ht with
  | .string, _ => exact .string ""
  | .number, _ => exact .number (List.mem_singleton_self _)
  | .bool, _ => exact .bool false
  | .list e, ht => exact .list rfl ht fun _ hv => absurd hv List.not_mem_nil

/-- Whatever is given, the value of a property is plain. -/
theorem Property.plain_bind_self {p : Property} (hp : p.Sound) (id : String) (raw : Bag) :
    (p.bind id raw).1.Plain {n | n ∈ (p.bind id raw).1.numbers} p.type.element? := by
  rw [bind]
  split
  · split
    · rename_i v hv
      exact hp.default v hv
    · exact Value.plain_zero hp.type
  · split
    · rename_i v hv
      exact hp.default v hv
    · exact Value.plain_zero hp.type
  · split
    · rename_i w hw
      exact (Value.plain_of_coerce? hp.type hw).2
    · exact Value.plain_zero hp.type

/-! ### Sorted names -/

section sorted

variable {r : Value → Value → Prop}

/-- Values that belong together have one name. -/
def SameName (r : Value → Value → Prop) (d e : String × Value) : Prop := d.1 = e.1 ∧ r d.2 e.2

theorem forall₂_insertNamed {name : String} {v w : Value} (hvw : r v w) {l m : Bag}
    (h : List.Forall₂ (SameName r) l m) : List.Forall₂ (SameName r)
      (Value.insertNamed name v l) (Value.insertNamed name w m) := by
  induction h with
  | nil => exact .cons ⟨rfl, hvw⟩ .nil
  | @cons d e l m hde hrest ih =>
    obtain ⟨n, a⟩ := d
    obtain ⟨n', b⟩ := e
    obtain ⟨rfl, hab⟩ : n = n' ∧ r a b := hde
    rw [Value.insertNamed, Value.insertNamed]
    split
    · exact .cons ⟨rfl, hvw⟩ (.cons ⟨rfl, hab⟩ hrest)
    split
    · exact .cons ⟨rfl, hvw⟩ hrest
    · exact .cons ⟨rfl, hab⟩ ih

/-- Sorting leaves those in one place that belong together. -/
theorem forall₂_sortNamed {l m : Bag} (h : List.Forall₂ (SameName r) l m) :
    List.Forall₂ (SameName r) (Bag.ofList l) (Bag.ofList m) := by
  have hfold : ∀ {l m acc acc' : Bag}, List.Forall₂ (SameName r) l m →
      List.Forall₂ (SameName r) acc acc' → List.Forall₂ (SameName r)
        (l.foldl (fun sorted d => Value.insertNamed d.1 d.2 sorted) acc)
        (m.foldl (fun sorted d => Value.insertNamed d.1 d.2 sorted) acc') := by
    intro l m acc acc' h
    induction h generalizing acc acc' with
    | nil => exact fun hacc => hacc
    | @cons d e l m hde _ ih =>
      intro hacc
      refine ih ?_
      dsimp only
      -- Both are inserted by one name, hence at one place.
      rw [← hde.1]
      exact forall₂_insertNamed hde.2 hacc
  exact hfold h .nil

end sorted

end SolidityCanvas
