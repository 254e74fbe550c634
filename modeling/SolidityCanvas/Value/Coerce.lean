/-
Strict conformance of values to types.

`Value.coerce?` accepts a primitive value for its own type only, and a list,
tuple or set for a list type if every item conforms to the element type; the
result is a list. `null` and unknown values conform to nothing, and no type
other than these is ever met.
-/
import SolidityCanvas.Value.Basic

namespace SolidityCanvas.Value

mutual

/-- The value as a value of the type, if it conforms. -/
def coerce? : Value → ValueType → Option Value
  | string s, .string => some (string s)
  | number n, .number => some (number n)
  | bool b, .bool => some (bool b)
  | list _ items, .list t | set _ items, .list t | tuple items, .list t =>
    (coerceItems? items t).map (list t)
  | _, _ => none

/-- All items as values of the type. -/
def coerceItems? : List Value → ValueType → Option (List Value)
  | [], _ => some []
  | v :: vs, t => do
    let w ← coerce? v t
    let ws ← coerceItems? vs t
    return w :: ws

end

/-- Whether the value conforms to the type. -/
def conforms (v : Value) (t : ValueType) : Bool := (v.coerce? t).isSome

/-- The value that stands for a missing value of a type. -/
def zero : ValueType → Value
  | .string => string ""
  | .number => int 0
  | .bool => bool false
  | .list t => list t []
  | t => null t

end SolidityCanvas.Value
