/-
Values.

A value is a text, a number, a truth value or a collection of values; it may
be `null` of some type, or unknown. Texts and attribute names are in composed
normal form; sets hold distinct values in their order; maps and objects are
sorted by name.
-/
import SolidityCanvas.Number.Basic
import SolidityCanvas.Text.Normal
import SolidityCanvas.Value.Type

namespace SolidityCanvas

/-- A value. An empty list, set or map still has an element type. -/
inductive Value
  | string (s : String)
  | number (n : Number)
  | bool (b : Bool)
  | list (element : ValueType) (items : List Value)
  | set (element : ValueType) (items : List Value)
  | map (element : ValueType) (entries : List (String × Value))
  | tuple (items : List Value)
  | object (attributes : List (String × Value))
  | null (type : ValueType)
  | unknown (type : ValueType)
  deriving Inhabited

namespace Value

/-- A text in normal form. -/
def text (s : String) : Value := string (Text.normalize s)

/-- A whole number. -/
def int (n : Int) : Value := number (Number.ofInt n)

/-- A value of which nothing is known. -/
def anything : Value := unknown .dynamic

/-- A list of texts. -/
def texts (ss : List String) : Value := list .string (ss.map text)

mutual

/-- The type of a value. -/
def type : Value → ValueType
  | string _ => .string
  | number _ => .number
  | bool _ => .bool
  | list t _ => .list t
  | set t _ => .set t
  | map t _ => .map t
  | tuple items => .tuple (types items)
  | object attributes => .object (attributeTypes attributes)
  | null t => t
  | unknown t => t

/-- The types of a list of values. -/
def types : List Value → List ValueType
  | [] => []
  | v :: vs => type v :: types vs

/-- The types of named values. -/
def attributeTypes : List (String × Value) → List (String × ValueType)
  | [] => []
  | (n, v) :: vs => (n, type v) :: attributeTypes vs

end

/-- Whether the value is `null`. -/
def isNull : Value → Bool
  | null _ => true
  | _ => false

/-- Whether the value itself is known. -/
def isKnown : Value → Bool
  | unknown _ => false
  | _ => true

mutual

/-- Whether the value and all it holds are known. -/
def isWhollyKnown : Value → Bool
  | unknown _ => false
  | list _ items | set _ items | tuple items => allKnown items
  | map _ entries | object entries => allEntriesKnown entries
  | _ => true

/-- Whether all values are known. -/
def allKnown : List Value → Bool
  | [] => true
  | v :: vs => isWhollyKnown v && allKnown vs

/-- Whether all named values are known. -/
def allEntriesKnown : List (String × Value) → Bool
  | [] => true
  | (_, v) :: vs => isWhollyKnown v && allEntriesKnown vs

end

/-- The keys and values that a loop over the value goes through, if it can be
looped over. -/
def entries? : Value → Option (List (Value × Value))
  | list _ items | tuple items =>
    some (items.zipIdx.map fun (v, i) => (int i, v))
  | set _ items => some (items.map fun v => (v, v))
  | map _ es | object es => some (es.map fun (n, v) => (string n, v))
  | _ => none

/-- The items of a list, set or tuple. -/
def items? : Value → Option (List Value)
  | list _ items | set _ items | tuple items => some items
  | _ => none

/-- A value in words, for a message about a value of the wrong type. -/
def describe (v : Value) : String :=
  match v with
  | null _ => "null"
  | _ =>
    match v.type with
    | .tuple _ | .list _ | .set _ => "list"
    | .object _ | .map _ => "object"
    | t => t.friendlyName

/-! ### Named values -/

/-- Puts a named value in its place among sorted ones, over one of the same
name. -/
def insertNamed {α : Type} (name : String) (v : α) : List (String × α) → List (String × α)
  | [] => [(name, v)]
  | (n, w) :: rest =>
    if name < n then (name, v) :: (n, w) :: rest
    else if name == n then (name, v) :: rest
    else (n, w) :: insertNamed name v rest

/-- Named values sorted by name; of several with one name the last counts. -/
def sortNamed {α : Type} (entries : List (String × α)) : List (String × α) :=
  entries.foldl (fun sorted (n, v) => insertNamed n v sorted) []

/-- An object with attribute names in normal form. -/
def objectOf (attributes : List (String × Value)) : Value :=
  object (sortNamed (attributes.map fun (n, v) => (Text.normalize n, v)))

/-! ### Equality -/

mutual

/-- Whether two known values are equal. Numbers are equal by value, whatever
their precision, and any two `null`s are equal. Values of different types are
not. -/
def equal : Value → Value → Bool
  | null _, null _ => true
  | string a, string b => a == b
  | number a, number b => a.same b
  | bool a, bool b => a == b
  | list s as, list t bs => s == t && equalList as bs
  | set s as, set t bs => s == t && equalList as bs
  | map s as, map t bs => s == t && equalEntries as bs
  | tuple as, tuple bs => types as == types bs && equalList as bs
  | object as, object bs => attributeTypes as == attributeTypes bs && equalEntries as bs
  | _, _ => false

/-- Whether two lists of values are equal. -/
def equalList : List Value → List Value → Bool
  | [], [] => true
  | a :: as, b :: bs => equal a b && equalList as bs
  | _, _ => false

/-- Whether two lists of named values are equal. -/
def equalEntries : List (String × Value) → List (String × Value) → Bool
  | [], [] => true
  | (n, a) :: as, (m, b) :: bs => n == m && equal a b && equalEntries as bs
  | _, _ => false

end

end Value

end SolidityCanvas
