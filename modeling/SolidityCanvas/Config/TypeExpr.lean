/-
Types written as expressions.

`string`, `number`, `bool` and `any` are types; `list`, `set` and `map` take
the type of their elements, `tuple` the types of its places, and `object` the
types of its attributes by name, each of which may be marked `optional`.
-/
import SolidityCanvas.Config.Expr

namespace SolidityCanvas.Config.Expr

mutual

/-- The type that an expression writes. -/
def valueType? : Expr → Option ValueType
  | reference "string" [] => some .string
  | reference "number" [] => some .number
  | reference "bool" [] => some .bool
  | reference "any" [] => some .dynamic
  | call name [arg] _ =>
    match name with
    | "list" => (valueType? arg).map .list
    | "set" => (valueType? arg).map .set
    | "map" => (valueType? arg).map .map
    | "tuple" => (placeTypes? arg).map .tuple
    | "object" => (memberTypes? arg).map fun ts => .object (Value.sortNamed ts)
    | _ => none
  | _ => none

/-- The types of the places of a tuple. -/
def placeTypes? : Expr → Option (List ValueType)
  | tuple items => valueTypes? items
  | _ => none

/-- The types that some expressions write. -/
def valueTypes? : List Expr → Option (List ValueType)
  | [] => some []
  | e :: es => do
    let t ← valueType? e
    let ts ← valueTypes? es
    return t :: ts

/-- The types of the attributes of an object. -/
def memberTypes? : Expr → Option (List (String × ValueType))
  | object items => attributeTypes? items
  | _ => none

/-- The types of attributes, whose names are bare words. The mark of an
optional one is left out. -/
def attributeTypes? : List (Expr × Expr) → Option (List (String × ValueType))
  | [] => some []
  | (literal (.string n), call "optional" [e] _) :: rest => do
    let t ← valueType? e
    let ts ← attributeTypes? rest
    return (n, t) :: ts
  | (literal (.string n), e) :: rest => do
    let t ← valueType? e
    let ts ← attributeTypes? rest
    return (n, t) :: ts
  | _ => none

end

end SolidityCanvas.Config.Expr
