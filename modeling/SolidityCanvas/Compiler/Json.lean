/-
Findings and outcomes of compilations as JSON documents.
-/
import SolidityCanvas.Compiler
import SolidityCanvas.Contract.Json
import SolidityCanvas.Diagnostic
import SolidityCanvas.Json.Fields

namespace SolidityCanvas.Diagnostic

/-- The written form. -/
def toJson (d : Diagnostic) : Json :=
  .object ([("severity", .string d.severity.text), ("kind", .string d.kind.text),
      ("code", .string d.code)] ++
    Json.textMember "instanceId" d.instanceId ++ Json.textMember "propertyName" d.property ++
    [("message", .string d.message)] ++ Json.textsMember "related" d.related)

/-- The written form of several findings. -/
def listToJson (ds : List Diagnostic) : Json := .array (ds.map toJson)

/-- A finding without content. -/
def blank : Diagnostic := { severity := ⟨""⟩, code := "", message := "", kind := ⟨""⟩ }

/-- Reads a finding over an earlier one. -/
def read (old : Diagnostic) : Json → Option Diagnostic
  | .object members => do
    let severity ← Json.readField members "severity" Json.readText old.severity.text
    let kind ← Json.readField members "kind" Json.readText old.kind.text
    let code ← Json.readField members "code" Json.readText old.code
    let instanceId ← Json.readField members "instanceId" Json.readText old.instanceId
    let property ← Json.readField members "propertyName" Json.readText old.property
    let message ← Json.readField members "message" Json.readText old.message
    let related ← Json.readField members "related" (Json.readList "" Json.readText) old.related
    return {
      severity := ⟨severity⟩, kind := ⟨kind⟩, code, instanceId, property, message, related }
  | .null => some old
  | _ => none

end SolidityCanvas.Diagnostic

namespace SolidityCanvas.CompileResult

/-- The written form. -/
def toJson (r : CompileResult) : Json :=
  .object ([("status", .string r.status.text)] ++
    r.document.toList.map (fun d => ("document", d.toJson)) ++
    r.interface.toList.map (fun x => ("interface", x.toJson)) ++
    [("diagnostics", match r.diagnostics with
      | some ds => Diagnostic.listToJson ds
      | none => .null)] ++
    Json.textsMember "order" r.order)

/-- Reads an outcome over an earlier one. -/
def read (old : CompileResult) : Json → Option CompileResult
  | .object members => do
    let status ← Json.readField members "status" Json.readText old.status.text
    let document ← Json.readField members "document"
      (Json.readOption Document.blank Document.read) old.document
    let interface ← Json.readField members "interface"
      (Json.readOption {} Interface.read) old.interface
    let diagnostics ← Json.readField members "diagnostics"
      (Json.readListOption Diagnostic.blank Diagnostic.read) old.diagnostics
    let order ← Json.readField members "order" (Json.readList "" Json.readText) old.order
    return { status := ⟨status⟩, document, interface, diagnostics, order }
  | .null => some old
  | _ => none

end SolidityCanvas.CompileResult
