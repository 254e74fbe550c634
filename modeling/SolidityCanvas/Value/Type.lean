/-
Types of values.

Texts, numbers and truth values are primitive; lists, sets and maps hold
values of one type; tuples and objects have a type for each place. The
dynamic type is that of a value whose type is not known, such as `null`.
-/

namespace SolidityCanvas

/-- The type of a value. The attributes of an object are sorted by name. -/
inductive ValueType
  | string
  | number
  | bool
  | dynamic
  | list (element : ValueType)
  | set (element : ValueType)
  | map (element : ValueType)
  | tuple (elements : List ValueType)
  | object (attributes : List (String × ValueType))
  deriving Inhabited

namespace ValueType

mutual

/-- Whether two types are the same. -/
def same : ValueType → ValueType → Bool
  | string, string => true
  | number, number => true
  | bool, bool => true
  | dynamic, dynamic => true
  | list a, list b => same a b
  | set a, set b => same a b
  | map a, map b => same a b
  | tuple as, tuple bs => sameList as bs
  | object as, object bs => sameAttributes as bs
  | _, _ => false

/-- Whether two lists of types are the same. -/
def sameList : List ValueType → List ValueType → Bool
  | [], [] => true
  | a :: as, b :: bs => same a b && sameList as bs
  | _, _ => false

/-- Whether two lists of attributes are the same. -/
def sameAttributes : List (String × ValueType) → List (String × ValueType) → Bool
  | [], [] => true
  | (n, a) :: as, (m, b) :: bs => n == m && same a b && sameAttributes as bs
  | _, _ => false

end

mutual

theorem same_refl : (a : ValueType) → same a a = true
  | string | number | bool | dynamic => by simp [same]
  | list a | set a | map a => by simp [same, same_refl a]
  | tuple as => by simp [same, sameList_refl as]
  | object as => by simp [same, sameAttributes_refl as]

theorem sameList_refl : (as : List ValueType) → sameList as as = true
  | [] => by simp [sameList]
  | a :: as => by simp [sameList, same_refl a, sameList_refl as]

theorem sameAttributes_refl : (as : List (String × ValueType)) → sameAttributes as as = true
  | [] => by simp [sameAttributes]
  | (_, a) :: as => by simp [sameAttributes, same_refl a, sameAttributes_refl as]

end

mutual

theorem eq_of_same : (a b : ValueType) → same a b = true → a = b
  | string, b, h => by cases b <;> simp_all [same]
  | number, b, h => by cases b <;> simp_all [same]
  | bool, b, h => by cases b <;> simp_all [same]
  | dynamic, b, h => by cases b <;> simp_all [same]
  | list a, b, h => by
    cases b <;> simp only [same, Bool.false_eq_true] at h
    rw [eq_of_same a _ h]
  | set a, b, h => by
    cases b <;> simp only [same, Bool.false_eq_true] at h
    rw [eq_of_same a _ h]
  | map a, b, h => by
    cases b <;> simp only [same, Bool.false_eq_true] at h
    rw [eq_of_same a _ h]
  | tuple as, b, h => by
    cases b <;> simp only [same, Bool.false_eq_true] at h
    rw [eq_of_sameList as _ h]
  | object as, b, h => by
    cases b <;> simp only [same, Bool.false_eq_true] at h
    rw [eq_of_sameAttributes as _ h]

theorem eq_of_sameList : (as bs : List ValueType) → sameList as bs = true → as = bs
  | [], bs, h => by cases bs <;> simp_all [sameList]
  | a :: as, bs, h => by
    cases bs with
    | nil => simp [sameList] at h
    | cons b bs =>
      simp only [sameList, Bool.and_eq_true] at h
      rw [eq_of_same a b h.1, eq_of_sameList as bs h.2]

theorem eq_of_sameAttributes :
    (as bs : List (String × ValueType)) → sameAttributes as bs = true → as = bs
  | [], bs, h => by cases bs <;> simp_all [sameAttributes]
  | (n, a) :: as, bs, h => by
    cases bs with
    | nil => simp [sameAttributes] at h
    | cons b bs =>
      obtain ⟨m, b⟩ := b
      simp only [sameAttributes, Bool.and_eq_true, beq_iff_eq] at h
      rw [h.1.1, eq_of_same a b h.1.2, eq_of_sameAttributes as bs h.2]

end

instance : DecidableEq ValueType := fun a b =>
  if h : same a b = true then isTrue (eq_of_same a b h)
  else isFalse fun hab => h (hab ▸ same_refl a)

/-- Whether the type is one of texts, numbers and truth values. -/
def isPrimitive : ValueType → Bool
  | string | number | bool => true
  | _ => false

/-- The type in words. `anyName` is the word for the dynamic type. -/
def describe (anyName : String) : ValueType → String
  | string => "string"
  | number => "number"
  | bool => "bool"
  | dynamic => anyName
  | list a => "list of " ++ describe anyName a
  | set a => "set of " ++ describe anyName a
  | map a => "map of " ++ describe anyName a
  | tuple _ => "tuple"
  | object _ => "object"

/-- The name of the type of a value. -/
def friendlyName (t : ValueType) : String := t.describe "dynamic"

/-- The name of a type as a requirement. -/
def requirementName (t : ValueType) : String := t.describe "any type"

end ValueType

end SolidityCanvas
