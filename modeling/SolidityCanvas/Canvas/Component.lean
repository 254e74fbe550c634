/-
The instances of a canvas with their templates.

A component is an instance with its template and a value for each property
that the template declares. Of several instances with one id only the first
becomes a component. A template that the catalog lacks breaks the agreement
between a canvas and its catalog, and nothing can be said about the canvas.
-/
import SolidityCanvas.Canvas.Basic
import SolidityCanvas.Catalog.Basic
import SolidityCanvas.Graph
import SolidityCanvas.Property.Bind
import SolidityCanvas.Solidity.Name

namespace SolidityCanvas

/-- What breaks the agreement between a canvas and its catalog. -/
inductive InvariantCause
  | unknownTemplate (id : String)
  | edge (f : Graph.EdgeFault)
  | unsorted (zone : Section)
  | render (e : RenderError)

/-- The cause in words; `reported` stands for faults of evaluation. -/
def InvariantCause.message (reported : String) : InvariantCause → String
  | unknownTemplate id => Catalog.missingMessage id
  | edge f => f.message
  | unsorted zone => "ordering section " ++ zone.text ++ ": " ++ Graph.unsortableMessage
  | render e => e.message reported

/-- A broken agreement, at an instance if one is known. -/
structure InvariantError where
  instanceId : String
  cause : InvariantCause

/-- The error in words; `reported` stands for faults of evaluation. -/
def InvariantError.message (reported : String) (e : InvariantError) : String :=
  Diagnostic.invariantMessage e.instanceId (e.cause.message reported)

/-- An instance with its template and its properties. -/
structure Component where
  id : String
  template : Template
  properties : Bound
  /-- What is wrong with the properties. -/
  findings : List Diagnostic
  deriving Inhabited

namespace Component

/-- Whether the value of a property could not be used. -/
def isBad (c : Component) (property : String) : Bool :=
  c.findings.any fun d => d.isError && d.property == property

/-- Whether the value of any property could not be used. -/
def hasBad (c : Component) : Bool := c.findings.any (·.isError)

/-- The name: the value of the property that the category reads it from. -/
def name (c : Component) : String :=
  match c.template.category.nameProperty with
  | some p => c.properties.text p
  | none => ""

/-- The name, or else the id. -/
def displayName (c : Component) : String := if c.name.isEmpty then c.id else c.name

/-- The property that a type is named by: that of the name, or else the one with
the empty name. -/
def typeProperty (c : Component) : String := c.template.category.nameProperty.getD ""

/-- The type that the component declares, if it can be named. -/
def declaredType? (c : Component) : Option String :=
  let name := c.properties.text c.typeProperty
  if c.template.category.providesType && Solidity.isIdentifier name then some name else none

/-- The component of an instance. -/
def ofInstance (i : Instance) (t : Template) : Component :=
  let (properties, findings) := bind i.id t.properties i.properties
  { id := i.id, template := t, properties, findings }

end Component

namespace Canvas

/-- The finding about an instance whose id an earlier one has. -/
def duplicateId (id : String) : Diagnostic :=
  Diagnostic.errorOn Code.duplicateInstance id ""
    ("instance id " ++ Text.quoted id ++ " is used by more than one instance")

/-- The components of some instances, and what was found on the way. `seen`
holds the ids of the instances before. -/
def bindFrom (catalog : Catalog) (seen : List String) :
    List Instance → Except InvariantError (List Component × List Diagnostic)
  | [] => .ok ([], [])
  | i :: rest =>
    if seen.contains i.id then do
      let (components, findings) ← bindFrom catalog seen rest
      return (components, duplicateId i.id :: findings)
    else
      match catalog.template? i.template with
      | none => .error ⟨i.id, .unknownTemplate i.template⟩
      | some t => do
        let c := Component.ofInstance i t
        let (components, findings) ← bindFrom catalog (i.id :: seen) rest
        return (c :: components, c.findings ++ findings)

/-- The components of a canvas, and what was found on the way. -/
def components (c : Canvas) (catalog : Catalog) :
    Except InvariantError (List Component × List Diagnostic) :=
  bindFrom catalog [] c.instances

end Canvas

/-- The component with an id. -/
def componentWith? (components : List Component) (id : String) : Option Component :=
  components.find? (·.id == id)

end SolidityCanvas
