/-
Findings about a canvas.

A diagnostic is an error or a warning with a stable code, a message, and the
place it is about: an instance, possibly one of its properties, and other
instances that take part. The part of a code before the point decides its
kind.
-/
import SolidityCanvas.Text.Quoted

namespace SolidityCanvas

/-- How bad a finding is. Findings made here are errors or warnings; those that
others report may have a word of their own. -/
structure Severity where
  text : String
  deriving DecidableEq, Inhabited

/-- A finding that refuses the canvas. -/
def Severity.error : Severity := ⟨"error"⟩

/-- A finding that does not. -/
def Severity.warning : Severity := ⟨"warning"⟩

/-- What a finding is about. Those that others report may have a word of
their own. -/
structure FindingKind where
  text : String
  deriving DecidableEq, Inhabited

namespace FindingKind

/-- Properties and the number of instances. -/
def schema : FindingKind := ⟨"SchemaError"⟩
/-- Names. -/
def naming : FindingKind := ⟨"NamingError"⟩
/-- Connections. -/
def connection : FindingKind := ⟨"ConnectionError"⟩
/-- Instances that depend on each other. -/
def cycle : FindingKind := ⟨"CycleError"⟩
/-- The meaning of values. -/
def value : FindingKind := ⟨"ValueWarning"⟩

end FindingKind

namespace Code

/-! ### Codes -/

/-- A required property is absent. -/
def missingProperty := "schema.missing_property"
/-- A property has a value of another type. -/
def typeMismatch := "schema.type_mismatch"
/-- A property is not declared. -/
def unknownProperty := "schema.unknown_property"
/-- A category that allows one instance has more. -/
def singleton := "schema.singleton_violation"
/-- An instance id is used twice. -/
def duplicateInstance := "schema.duplicate_instance"
/-- A name is no identifier. -/
def invalidIdentifier := "naming.invalid_identifier"
/-- A name is a reserved word. -/
def reservedWord := "naming.reserved_word"
/-- Two instances claim one name. -/
def nameCollision := "naming.collision"
/-- Two categories cannot be connected. -/
def incompatible := "connection.incompatible"
/-- A connection ends at no instance. -/
def danglingEndpoint := "connection.dangling_endpoint"
/-- A connection joins an instance to itself. -/
def selfLoop := "connection.self_loop"
/-- A connection is drawn twice. -/
def duplicateLink := "connection.duplicate"
/-- An order runs against the sections. -/
def sectionConflict := "connection.section_conflict"
/-- Instances depend on each other. -/
def cycle := "resolve.cycle"
/-- A type is not known. -/
def unknownType := "value.unknown_type"
/-- A literal is malformed. -/
def invalidLiteral := "value.invalid_literal"
/-- A value is none of the expected ones. -/
def unexpectedOption := "value.unexpected_option"
/-- A name is unusual. -/
def suspectName := "value.suspect_name"

/-- The kind of a code, by the part before its first point. -/
def kind (code : String) : FindingKind :=
  match String.ofList (code.toList.takeWhile (· != '.')) with
  | "schema" => .schema
  | "naming" => .naming
  | "connection" => .connection
  | "resolve" => .cycle
  | _ => .value

end Code

/-- A single error or warning. Empty places are absent. -/
structure Diagnostic where
  severity : Severity
  code : String
  instanceId : String := ""
  property : String := ""
  message : String
  related : List String := []
  /-- What it is about, which the code decides. -/
  kind : FindingKind := Code.kind code
  deriving DecidableEq, Inhabited

namespace Diagnostic

/-- Whether the finding is an error. -/
def isError (d : Diagnostic) : Bool := d.severity == .error

/-- An error about an instance and, if not empty, one of its properties. -/
def errorOn (code instanceId property message : String) : Diagnostic :=
  { severity := .error, code, instanceId, property, message }

/-- A warning about an instance and, if not empty, one of its properties. -/
def warningOn (code instanceId property message : String) : Diagnostic :=
  { severity := .warning, code, instanceId, property, message }

/-- The finding with further instances that take part. -/
def withRelated (d : Diagnostic) (ids : List String) : Diagnostic :=
  { d with related := d.related ++ ids }

/-- The finding on one line. A property is named only with its instance. -/
def text (d : Diagnostic) : String :=
  let place := if d.instanceId.isEmpty then ""
    else " " ++ d.instanceId ++ (if d.property.isEmpty then "" else "." ++ d.property)
  d.severity.text ++ " [" ++ d.code ++ "]" ++ place ++ ": " ++ d.message

/-- Whether any of the findings is an error. -/
def hasErrors (ds : List Diagnostic) : Bool := ds.any isError

/-- One line for each finding. -/
def listText (ds : List Diagnostic) : String := "\n".intercalate (ds.map text)

/-- The wording of a broken agreement between a canvas and its catalog, at an
instance if one is known. -/
def invariantMessage (instanceId cause : String) : String :=
  if instanceId.isEmpty then "internal invariant violated: " ++ cause
  else "internal invariant violated at instance " ++ Text.quoted instanceId ++ ": " ++ cause

end Diagnostic

end SolidityCanvas
