/-
Canvases as JSON documents.

* `Canvas.toJson?`: the written form. There is none if a property has no
  JSON form or the timestamp cannot be written.
* `Canvas.ofJson`: the canvas of a document. `null` is the empty canvas, and
  every instance needs an id.
-/
import SolidityCanvas.Canvas.Basic
import SolidityCanvas.Json.Fields
import SolidityCanvas.Json.Reader

namespace SolidityCanvas

/-- Why a document is no canvas. -/
inductive CanvasFault
  | shape
  | missingId (template : String)
  deriving DecidableEq, Inhabited

/-- The fault in words; `reported` stands for one of the shape. -/
def CanvasFault.message (reported : String) : CanvasFault → String
  | shape => reported
  | missingId t => "instance with template " ++ Text.quoted t ++ " has no id"

namespace Canvas

/-! ### Writing -/

/-- The written form of an instance. -/
def instanceToJson? (i : Instance) : Option Json := do
  let properties ← Value.entriesToJson? i.properties
  return .object ([("id", .string i.id), ("templateId", .string i.template)] ++
    if properties.isEmpty then [] else [("properties", .object properties)])

/-- The written form of a connection. -/
def connectionToJson (k : Connection) : Json :=
  .object [("from", .string k.source), ("to", .string k.target)]

/-- The written form of a canvas. -/
def toJson? (c : Canvas) : Option Json := do
  let instances ← c.instances.mapM instanceToJson?
  if !c.timestamp.all (·.isPortable) then none
  return .object ([("instances", .array instances),
      ("connections", .array (c.connections.map connectionToJson))] ++
    Json.wordMember "version" c.version ++
    c.timestamp.toList.map fun t => ("timestamp", Json.string t.text))

/-! ### Reading -/

/-- Reads properties over earlier ones. -/
def readProperties (old : Bag) : Json → Option Bag
  | .object members => (Bag.ofMembers? members).map fun b => Bag.ofList (old ++ b)
  | .null => some []
  | _ => none

/-- Reads an instance over an earlier one. -/
def readInstance (old : Instance) : Json → Option Instance
  | .object members => do
    let id ← Json.readField members "id" Json.readText old.id
    let template ← Json.readField members "templateId" Json.readText old.template
    let properties ← Json.readField members "properties" readProperties old.properties
    return { id, template, properties }
  | .null => some old
  | _ => none

/-- Reads a connection over an earlier one. -/
def readConnection (old : Connection) : Json → Option Connection
  | .object members => do
    let source ← Json.readField members "from" Json.readText old.source
    let target ← Json.readField members "to" Json.readText old.target
    return { source, target }
  | .null => some old
  | _ => none

/-- Reads a timestamp. -/
def readTimestamp (_ : Option Timestamp) : Json → Option (Option Timestamp)
  | .string s => (Timestamp.parse? s).map some
  | .null => some none
  | _ => none

/-- Reads a canvas whose instances may lack ids. -/
def readShape? : Json → Option Canvas
  | .object members => do
    let instances ←
      Json.readField members "instances" (Json.readList ⟨"", "", []⟩ readInstance) []
    let connections ←
      Json.readField members "connections" (Json.readList ⟨"", ""⟩ readConnection) []
    let version ← Json.readField members "version" Json.readWord 0
    let timestamp ← Json.readField members "timestamp" readTimestamp none
    return { instances, connections, version, timestamp := timestamp.filter (!·.isZero) }
  | .null => some {}
  | _ => none

/-- The canvas of a document. -/
def ofJson (j : Json) : Except CanvasFault Canvas :=
  match readShape? j with
  | none => .error .shape
  | some c =>
    match c.instances.find? (·.id.isEmpty) with
    | some i => .error (.missingId i.template)
    | none => .ok c

/-- The canvas of a JSON text. -/
def parse (s : String) : Except CanvasFault Canvas :=
  match Json.parse? s with
  | none => .error .shape
  | some j => ofJson j

end Canvas

end SolidityCanvas
