/-
The properties of an instance, checked against those of its template.

`bind` gives every declared property a value of its type: the given one if it
conforms, else the default, else the zero of the type. It reports required
properties that are missing, values that do not conform, and as warnings
names that are not declared.
-/
import SolidityCanvas.Diagnostic
import SolidityCanvas.Property.Bag
import SolidityCanvas.Property.Schema

namespace SolidityCanvas

/-- A value for each declared property, in the order of their declaration. -/
structure Bound where
  values : List (String × Value)
  deriving Inhabited

namespace Bound

/-- The names of the properties. -/
def names (b : Bound) : List String := b.values.map (·.1)

/-- The value of a property. -/
def get? (b : Bound) (name : String) : Option Value := b.values.lookup name

/-- The value of a text property, empty if there is none. -/
def text (b : Bound) (name : String) : String :=
  match b.get? name with
  | some (.string s) => s
  | _ => ""

/-- The value of a truth property, false if there is none. -/
def flag (b : Bound) (name : String) : Bool :=
  match b.get? name with
  | some (.bool x) => x
  | _ => false

/-- The texts of a list of texts. -/
def texts? (b : Bound) (name : String) : Option (List String) :=
  match b.get? name with
  | some (.list .string items) => some (items.filterMap fun
    | .string s => some s
    | _ => none)
  | _ => none

/-- The texts of a list of texts, none if there is no such list. -/
def texts (b : Bound) (name : String) : List String := (b.texts? name).getD []

/-- The values sorted by name. -/
def bag (b : Bound) : Bag := Bag.ofList b.values

/-- The canonical text. -/
def canonical (b : Bound) : String := b.bag.canonical

end Bound

/-- The value of a property, and what is wrong with it. -/
def Property.bind (p : Property) (instanceId : String) (raw : Bag) :
    Value × List Diagnostic :=
  match raw.get? p.name with
  | none | some (.null _) =>
    match p.default with
    | some v => (v, [])
    | none =>
      (.zero p.type, [Diagnostic.errorOn Code.missingProperty instanceId p.name
        ("required property " ++ Text.quoted p.name ++ " is missing")])
  | some v =>
    match v.coerce? p.type with
    | some w => (w, [])
    | none =>
      (.zero p.type, [Diagnostic.errorOn Code.typeMismatch instanceId p.name
        ("property " ++ Text.quoted p.name ++ " must be " ++ p.type.friendlyName ++ ", got " ++
          v.describe)])

/-- The warnings about names that are not declared. -/
def undeclared (instanceId : String) (schema : List Property) (raw : Bag) : List Diagnostic :=
  (raw.names.filter fun n => !schema.any (·.name == n)).map fun n =>
    Diagnostic.warningOn Code.unknownProperty instanceId n
      ("property " ++ Text.quoted n ++ " is not declared by the template and is ignored")

/-- The values of the declared properties, and what is wrong with them. -/
def bind (instanceId : String) (schema : List Property) (raw : Bag) :
    Bound × List Diagnostic :=
  let bound := schema.map fun p => (p.name, p.bind instanceId raw)
  (⟨bound.map fun (n, v, _) => (n, v)⟩,
    bound.flatMap (fun (_, _, ds) => ds) ++ undeclared instanceId schema raw)

end SolidityCanvas
