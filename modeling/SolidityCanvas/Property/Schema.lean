/-
The properties that a template declares.

A property has a type, a text, number or truth value or a list of those. It
is required, or else has a default value.
-/
import SolidityCanvas.Value.Coerce

namespace SolidityCanvas

/-- What the text of a property is expected to mean. -/
inductive Check
  | unchecked
  | type
  | parameters
  | fields
  | number
  | address
  | identifier
  deriving DecidableEq, Inhabited

namespace Check

/-- The word for a check in a catalog. -/
def text : Check → String
  | unchecked => ""
  | type => "type"
  | parameters => "params"
  | fields => "fields"
  | number => "uint"
  | address => "address"
  | identifier => "identifier"

/-- All checks. -/
def all : List Check := [unchecked, type, parameters, fields, number, address, identifier]

/-- The check that a word stands for. -/
def ofText? (s : String) : Option Check := all.find? (·.text == s)

end Check

/-- A property of a template. One without a default is required. -/
structure Property where
  name : String
  type : ValueType
  default : Option Value
  check : Check
  oneOf : List String
  description : String
  deriving Inhabited

/-- Whether a value has to be given. -/
def Property.required (p : Property) : Bool := p.default.isNone

namespace ValueType

/-- Whether properties can have the type. -/
def isPropertyType : ValueType → Bool
  | string | number | bool => true
  | list t => t.isPrimitive
  | _ => false

/-- The written form of a property type. -/
def propertyTypeText : ValueType → String
  | list t => "list(" ++ t.friendlyName ++ ")"
  | t => t.friendlyName

end ValueType

end SolidityCanvas
