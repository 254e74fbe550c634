/-
The interface of a contract.

Functions that can be called from outside, events and the constructor have an
entry, whose arguments name their types in the format of contract interfaces:
a declared record is a tuple of its fields, a declared enumeration a number.
What has no such form is listed with the reason.  Where a type has no room in
the machine, the work breaks off and there is no interface at all.
-/
import SolidityCanvas.Arrangement
import SolidityCanvas.Hash.Keccak
import SolidityCanvas.Solidity.AbiType
import SolidityCanvas.Text.Split

namespace SolidityCanvas

open Solidity

/-- An entry of an interface. -/
structure InterfaceEntry where
  type : String
  name : String := ""
  /-- `none` where the list is not given at all. -/
  inputs : Option (List AbiArgument) := none
  outputs : List AbiArgument := []
  mutability : String := ""
  anonymous : Bool := false
  deriving Inhabited

/-- An instance that the interface leaves out. -/
structure Skipped where
  instanceId : String := ""
  reason : String := ""
  deriving DecidableEq, Inhabited

/-- The interface of a contract. -/
structure Interface where
  /-- `none` where the list is not given at all. -/
  entries : Option (List InterfaceEntry) := none
  /-- The identifiers of functions and events by signature, in hexadecimal and
  sorted. -/
  selectors : List (String × String) := []
  skipped : List Skipped := []
  deriving Inhabited

/-- Why a parameter has no form in the interface. -/
inductive MarshalFault
  | tooDeep (type : String)
  | mapping
  | noEncoding (type : String)
  | refused (f : AbiTypeFault)
  deriving DecidableEq

/-- The fault in words. -/
def MarshalFault.message : MarshalFault → String
  | tooDeep t => "type " ++ Text.quoted t ++ " nests too deeply"
  | mapping => "mappings cannot appear in the ABI"
  | noEncoding t => "type " ++ Text.quoted t ++ " has no ABI encoding"
  | refused f => f.message

/-- The types that a contract declares. -/
structure UserTypes where
  enums : List String := []
  /-- The fields of each record; of two with one name the later counts. -/
  structs : List (String × List String) := []
  deriving Inhabited

namespace UserTypes

/-- Whether a type is an enumeration. -/
def isEnum (u : UserTypes) (name : String) : Bool := u.enums.contains name

/-- The fields of a record. -/
def fields? (u : UserTypes) (name : String) : Option (List String) := u.structs.lookup name

/-- The types that entries declare. -/
def ofEntries (entries : List Entry) : UserTypes where
  enums := (entries.filter (·.component.template.kind == .enumeration)).map
    (·.component.properties.text "name")
  structs := ((entries.filter (·.component.template.kind == .record)).map fun e =>
    (e.component.properties.text "name", e.component.properties.texts "fields")).reverse

end UserTypes

/-- The type before its array brackets, and the brackets without blanks. -/
def splitArray (type : String) : String × String :=
  let t := Text.trim type
  if Text.hasPrefix t "mapping(" || !t.toList.contains '[' then (t, "")
  else
    let base := t.toList.takeWhile (· != '[')
    let brackets := t.toList.dropWhile (· != '[')
    (Text.trim (String.ofList base), String.ofList (brackets.filter (· != ' ')))

/-- The full name of a type that has a shorter one. -/
def fullTypeName : String → String
  | "uint" => "uint256"
  | "int" => "int256"
  | "byte" => "bytes1"
  | "address payable" => "address"
  | t => t

/-- How deep records may be nested. -/
def maxNesting : Nat := 8

/-- The form of a parameter in the interface. `levels` is one more than the
number of record levels that may follow. -/
def marshal (u : UserTypes) : Nat → String → String → Except MarshalFault AbiArgument
  | 0, _, type => .error (.tooDeep type)
  | levels + 1, name, type =>
    let (base, brackets) := splitArray type
    if Text.hasPrefix base "mapping(" then .error .mapping
    else if u.isEnum base then .ok (.mk name ("uint8" ++ brackets) ("enum " ++ type) [] false)
    else match u.fields? base with
      | some fields => do
        let components ← fields.mapM fun f =>
          let p := Parameter.read f
          marshal u levels p.name p.type
        return .mk name ("tuple" ++ brackets) ("struct " ++ type) components false
      | none =>
        let full := fullTypeName base
        if isType full fun _ => false then .ok (.mk name (full ++ brackets) "" [] false)
        else .error (.noEncoding type)

/-- A parameter of an entry: its form and its canonical type. -/
structure MarshaledParameter where
  argument : AbiArgument
  typeText : String

/-- The form of a declared parameter. -/
def marshalParameter (u : UserTypes) (indexable : Bool) (declaration : String) :
    Except MarshalFault MarshaledParameter := do
  let p := Parameter.read declaration
  let a ← marshal u (maxNesting + 1) p.name p.type
  let typeText ← a.typeText.mapError .refused
  return ⟨.mk a.name a.type a.internalType a.components (indexable && p.indexed), typeText⟩

/-- Why an entry gives nothing to an interface. -/
inductive ExportFault
  | leftOut (reason : String)
  /-- There is no room for a type, and no interface. -/
  | broken
  deriving DecidableEq

/-- What comes of a declaration without a form. -/
def MarshalFault.ending (declaration : String) : MarshalFault → ExportFault
  | refused .noRoom => .broken
  | f => .leftOut ("parameter " ++ Text.quoted declaration ++ ": " ++ f.message)

/-- The forms of declared parameters, or what comes of the first one without a
form. -/
def marshalParameters (u : UserTypes) (indexable : Bool) (declarations : List String) :
    Except ExportFault (List MarshaledParameter) :=
  declarations.mapM fun d => (marshalParameter u indexable d).mapError (·.ending d)

/-- The signature of a function or event. -/
def signature (name : String) (types : List String) : String :=
  name ++ "(" ++ ",".intercalate types ++ ")"

/-- The identifier of a function, in hexadecimal. -/
def selectorText (sig : String) : String := hexText ((keccak256 sig).take 4)

/-- The identifier of an event, in hexadecimal. -/
def topicText (sig : String) : String := keccakText sig

/-- What an entry gives to an interface. -/
structure Contribution where
  entry : InterfaceEntry
  selector : Option (String × String) := none

namespace Entry

/-- The contribution of a function. -/
def functionContribution (e : Entry) (u : UserTypes) : Except ExportFault Contribution := do
  let p := e.component.properties
  let name := p.text "name"
  let inputs ← marshalParameters u false (p.texts "params")
  let outputs ← marshalParameters u false (p.texts "returns")
  let given := p.text "mutability"
  let sig := signature name (inputs.map (·.typeText))
  return {
    entry := {
      type := "function", name, inputs := some (inputs.map (·.argument))
      outputs := outputs.map (·.argument)
      mutability := if given.isEmpty then "nonpayable" else given }
    selector := some (sig, selectorText sig) }

/-- The contribution of an event. -/
def eventContribution (e : Entry) (u : UserTypes) : Except ExportFault Contribution := do
  let p := e.component.properties
  let name := p.text "name"
  let inputs ← marshalParameters u true (p.texts "params")
  let sig := signature name (inputs.map (·.typeText))
  return {
    entry := { type := "event", name, inputs := some (inputs.map (·.argument)) }
    selector := some (sig, topicText sig) }

/-- The contribution of a constructor. -/
def creationContribution (e : Entry) (u : UserTypes) : Except ExportFault Contribution := do
  let p := e.component.properties
  let inputs ← marshalParameters u false (p.texts "params")
  return {
    entry := {
      type := "constructor", inputs := some (inputs.map (·.argument))
      mutability := if p.flag "payable" then "payable" else "nonpayable" } }

/-- Whether a function can be called from outside. -/
def isCallable (e : Entry) : Bool :=
  ["public", "external"].contains (e.component.properties.text "visibility")

/-- What the entry gives to an interface, if it takes part in it. -/
def contribution? (e : Entry) (u : UserTypes) : Option (Except ExportFault Contribution) :=
  match e.component.template.kind with
  | .function => if e.isCallable then some (e.functionContribution u) else none
  | .event => some (e.eventContribution u)
  | .creation => some (e.creationContribution u)
  | _ => none

end Entry

namespace Interface

/-- The interface with one more entry. -/
def push (x : Interface) (c : Contribution) : Interface :=
  { x with
    entries := some (x.entries.getD [] ++ [c.entry])
    selectors := c.selector.elim x.selectors fun (sig, id) =>
      Value.insertNamed sig id x.selectors }

/-- The interface with one more entry, or one more instance left out; `none`
if the work breaks off. -/
def add (u : UserTypes) (x : Interface) (e : Entry) : Option Interface :=
  match e.contribution? u with
  | none => some x
  | some (.ok c) => some (x.push c)
  | some (.error (.leftOut reason)) => some { x with skipped := x.skipped ++ [⟨e.id, reason⟩] }
  | some (.error .broken) => none

end Interface

/-- The interface of the contract, unless the work breaks off. -/
def Arrangement.interface? (a : Arrangement) : Option Interface :=
  a.entries.foldlM (Interface.add (UserTypes.ofEntries a.entries)) {}

end SolidityCanvas
