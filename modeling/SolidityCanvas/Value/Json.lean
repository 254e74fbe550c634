/-
Values and JSON.

* `Value.toJson?`: the written form of a value. There is none for a value
  that is or holds an unknown or an infinity.
* `Value.ofJson?`: the value that a document describes. An array is a tuple
  and an object an object, each with the types of what it holds.

When a member name occurs twice, the values must have one type, and the last
one counts.
-/
import SolidityCanvas.Json.Basic
import SolidityCanvas.Number.Decimal
import SolidityCanvas.Value.Basic

namespace SolidityCanvas.Value

mutual

/-- The written form of a value. -/
def toJson? : Value → Option Json
  | string s => some (.string s)
  | number (.finite b) => some (.number b.text)
  | number (.infinite _) => none
  | bool b => some (.bool b)
  | list _ items | set _ items | tuple items => (itemsToJson? items).map .array
  | map _ entries | object entries => (entriesToJson? entries).map .object
  | null _ => some .null
  | unknown _ => none

/-- The written forms of a list of values. -/
def itemsToJson? : List Value → Option (List Json)
  | [] => some []
  | v :: vs => do
    let j ← toJson? v
    let js ← itemsToJson? vs
    return j :: js

/-- The written forms of named values. -/
def entriesToJson? : List (String × Value) → Option (List (String × Json))
  | [] => some []
  | (n, v) :: vs => do
    let j ← toJson? v
    let js ← entriesToJson? vs
    return (n, j) :: js

end

/-- Whether values with one name have one type. -/
def consistent (named : List (String × Value)) : Bool :=
  named.all fun (n, v) => named.all fun (m, w) => n != m || v.type == w.type

mutual

/-- The value that a document describes. -/
def ofJson? : Json → Option Value
  | .null => some (null .dynamic)
  | .bool b => some (bool b)
  | .number t => (Number.parse? t).map number
  | .string s => some (text s)
  | .array items => (ofItems? items).map tuple
  | .object members => do
    let named ← ofMembers? members
    if named.any (fun (n, _) => Text.normalize n != n) then none
    else if !consistent named then none
    else some (object (sortNamed named))

/-- The values that documents describe. -/
def ofItems? : List Json → Option (List Value)
  | [] => some []
  | j :: js => do
    let v ← ofJson? j
    let vs ← ofItems? js
    return v :: vs

/-- The values that members describe. -/
def ofMembers? : List (String × Json) → Option (List (String × Value))
  | [] => some []
  | (n, j) :: rest => do
    let v ← ofJson? j
    let vs ← ofMembers? rest
    return (n, v) :: vs

end

end SolidityCanvas.Value
