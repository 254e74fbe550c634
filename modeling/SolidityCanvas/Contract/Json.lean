/-
Headers, documents and interfaces as JSON documents.
-/
import SolidityCanvas.Contract.Document
import SolidityCanvas.Contract.Interface
import SolidityCanvas.Json.Fields
import SolidityCanvas.Json.Reader
import SolidityCanvas.Json.Writer

namespace SolidityCanvas

open Solidity

/-! ### Headers -/

namespace Header

/-- The written form. Empty fields are left out. -/
def toJson (h : Header) : Json :=
  .object (Json.textMember "contractName" h.contractName ++ Json.textMember "license" h.license ++
    Json.textMember "pragma" h.pragma)

/-- Reads a header over an earlier one. -/
def read (old : Header) : Json → Option Header
  | .object members => do
    let contractName ← Json.readField members "contractName" Json.readText old.contractName
    let license ← Json.readField members "license" Json.readText old.license
    let pragma ← Json.readField members "pragma" Json.readText old.pragma
    return { contractName, license, pragma }
  | .null => some old
  | _ => none

end Header

/-! ### Documents -/

/-- The bytes that pairs of hexadecimal digits stand for. -/
def bytesOfHex? : List Char → Option (List UInt8)
  | [] => some []
  | a :: b :: rest => do
    if Text.isHexDigit a && Text.isHexDigit b then
      let bytes ← bytesOfHex? rest
      return UInt8.ofNat (Text.hexDigitValue a * 16 + Text.hexDigitValue b) :: bytes
    else none
  | [_] => none

/-- The digest that a text stands for: 64 hexadecimal digits after `0x`. -/
def digestOfText? (s : String) : Option (List UInt8) :=
  match s.toList with
  | '0' :: x :: digits =>
    if (x == 'x' || x == 'X') && digits.length == 64 then bytesOfHex? digits else none
  | _ => none

/-- Reads a digest. -/
def readDigest (_ : List UInt8) : Json → Option (List UInt8)
  | .string s => digestOfText? s
  | _ => none

namespace Document

/-- The written form. -/
def toJson (d : Document) : Json :=
  .object ([("source", .string d.source)] ++ Json.textsMember "imports" d.imports ++
    Json.textsMember "inherits" d.inherits ++
    [("estimatedCost", .number (toString d.estimatedCost.toInt)),
      ("hash", .string (hexText d.hash))])

/-- A document without content. -/
def blank : Document := ⟨"", [], [], 0, List.replicate 32 0⟩

/-- Reads a document over an earlier one. -/
def read (old : Document) : Json → Option Document
  | .object members => do
    let source ← Json.readField members "source" Json.readText old.source
    let imports ← Json.readField members "imports" (Json.readList "" Json.readText) old.imports
    let inherits ← Json.readField members "inherits" (Json.readList "" Json.readText) old.inherits
    let estimatedCost ← Json.readField members "estimatedCost" Json.readInt old.estimatedCost
    let hash ← Json.readField members "hash" readDigest old.hash
    return { source, imports, inherits, estimatedCost, hash }
  | .null => some old
  | _ => none

end Document

/-! ### Interfaces -/

mutual

/-- The written form of an argument. -/
def argumentToJson : AbiArgument → Json
  | .mk name type internalType components indexed =>
    .object ([("name", .string name), ("type", .string type)] ++
      Json.textMember "internalType" internalType ++
      (match argumentsToJson components with
        | [] => []
        | cs => [("components", .array cs)]) ++
      Json.flagMember "indexed" indexed)

/-- The written forms of arguments. -/
def argumentsToJson : List AbiArgument → List Json
  | [] => []
  | a :: as => argumentToJson a :: argumentsToJson as

end

/-- An argument without content. -/
def blankArgument : AbiArgument := .mk "" "" "" [] false

/-- Reads an argument over an earlier one. `depth` bounds the nesting of
components. -/
def readArgument : Nat → AbiArgument → Json → Option AbiArgument
  | depth + 1, old, .object members => do
    let name ← Json.readField members "name" Json.readText old.name
    let type ← Json.readField members "type" Json.readText old.type
    let internalType ← Json.readField members "internalType" Json.readText old.internalType
    let components ← Json.readField members "components"
      (Json.readList blankArgument (readArgument depth)) old.components
    let indexed ← Json.readField members "indexed" Json.readBool old.indexed
    return .mk name type internalType components indexed
  | _, old, .null => some old
  | _, _, _ => none

/-- Reads arguments over earlier ones. No document is nested deeper than
readers of documents allow. -/
def readArguments : List AbiArgument → Json → Option (List AbiArgument) :=
  Json.readList blankArgument (readArgument Json.maxDepth)

namespace InterfaceEntry

/-- The written form. -/
def toJson (e : InterfaceEntry) : Json :=
  .object ([("type", .string e.type)] ++ Json.textMember "name" e.name ++
    [("inputs", match e.inputs with
      | some as => .array (argumentsToJson as)
      | none => .null)] ++
    (if e.outputs.isEmpty then [] else [("outputs", .array (argumentsToJson e.outputs))]) ++
    Json.textMember "stateMutability" e.mutability ++ Json.flagMember "anonymous" e.anonymous)

/-- Reads an entry over an earlier one. -/
def read (old : InterfaceEntry) : Json → Option InterfaceEntry
  | .object members => do
    let type ← Json.readField members "type" Json.readText old.type
    let name ← Json.readField members "name" Json.readText old.name
    let inputs ← Json.readField members "inputs"
      (Json.readListOption blankArgument (readArgument Json.maxDepth)) old.inputs
    let outputs ← Json.readField members "outputs" readArguments old.outputs
    let mutability ← Json.readField members "stateMutability" Json.readText old.mutability
    let anonymous ← Json.readField members "anonymous" Json.readBool old.anonymous
    return { type, name, inputs, outputs, mutability, anonymous }
  | .null => some old
  | _ => none

end InterfaceEntry

/-- Reads an instance that an interface leaves out over an earlier one. -/
def Skipped.read (old : Skipped) : Json → Option Skipped
  | .object members => do
    let instanceId ← Json.readField members "instanceId" Json.readText old.instanceId
    let reason ← Json.readField members "reason" Json.readText old.reason
    return { instanceId, reason }
  | .null => some old
  | _ => none

namespace Interface

/-- The entries as a document. -/
def entriesToJson (x : Interface) : Json := .array ((x.entries.getD []).map (·.toJson))

/-- The entries as a text, one field a line. -/
def entriesText (x : Interface) : String := x.entriesToJson.indented 0

/-- The written form. -/
def toJson (x : Interface) : Json :=
  .object ([("abi", match x.entries with
      | some es => .array (es.map (·.toJson))
      | none => .null)] ++
    (if x.selectors.isEmpty then []
      else [("selectors", .object (x.selectors.map fun (sig, id) => (sig, .string id)))]) ++
    if x.skipped.isEmpty then []
      else [("skipped", .array (x.skipped.map fun s =>
        .object [("instanceId", .string s.instanceId), ("reason", .string s.reason)]))])

/-- Reads identifiers by signature over earlier ones. -/
def readSelectors (old : List (String × String)) : Json → Option (List (String × String))
  | .object members => members.foldlM (fun sorted (sig, j) => do
      let id ← Json.readText "" j
      return Value.insertNamed sig id sorted) old
  | .null => some []
  | _ => none

/-- Reads an interface over an earlier one. -/
def read (old : Interface) : Json → Option Interface
  | .object members => do
    let entries ← Json.readField members "abi"
      (Json.readListOption { type := "" } InterfaceEntry.read) old.entries
    let selectors ← Json.readField members "selectors" readSelectors old.selectors
    let skipped ← Json.readField members "skipped" (Json.readList {} Skipped.read) old.skipped
    return { entries, selectors, skipped }
  | .null => some old
  | _ => none

end Interface

end SolidityCanvas
