/-
Properties from plain data.

Plain data are JSON documents whose numbers are doubles. Texts, truth values,
numbers, `null` and lists of those are values; an object is none.
-/
import SolidityCanvas.Number.Double
import SolidityCanvas.Property.Bag

namespace SolidityCanvas

namespace Value

mutual

/-- The value of plain data. -/
def ofPlain? : Json → Option Value
  | .null => some (null .dynamic)
  | .bool b => some (bool b)
  | .number t => (Double.parse? t).map fun b => number (.finite b)
  | .string s => some (text s)
  | .array items => (ofPlainItems? items).map tuple
  | .object _ => none

/-- The values of a list of plain data. -/
def ofPlainItems? : List Json → Option (List Value)
  | [] => some []
  | j :: js => do
    let v ← ofPlain? j
    let vs ← ofPlainItems? js
    return v :: vs

end

end Value

/-- The properties of plain data by name. -/
def Bag.ofPlain? (members : List (String × Json)) : Option Bag := do
  let entries ← members.mapM fun (n, j) => do
    let v ← Value.ofPlain? j
    return (n, v)
  return Bag.ofList entries

end SolidityCanvas
