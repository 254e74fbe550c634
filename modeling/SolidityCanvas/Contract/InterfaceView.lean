/-
Reading an interface back.

A reader of the entries of an interface tells functions and events apart by
name, where a repeated name gets a number, and writes each as a declaration.
An argument whose type it does not know makes it refuse the whole interface.
-/
import SolidityCanvas.Contract.Json

namespace SolidityCanvas

open Solidity

/-- Why entries cannot be read. -/
inductive InterfaceFault
  | shape
  | type (f : AbiTypeFault)
  | unknownEntry (type name : String)

/-- The fault in words. -/
def InterfaceFault.message : InterfaceFault → String
  | shape => "invalid interface"
  | type f => f.message
  | unknownEntry t n => "abi: could not recognize type " ++ t ++ " of field " ++ n

/-- An argument whose type is known. -/
structure TypedArgument where
  name : String
  typeText : String
  indexed : Bool

/-- A function. -/
structure MethodView where
  /-- The name in the interface. -/
  rawName : String
  inputs : List TypedArgument
  signature : String
  /-- Empty for a constructor. -/
  identifier : String
  text : String
  isConstant : Bool
  isPayable : Bool

/-- An event. -/
structure EventView where
  /-- The name in the interface. -/
  rawName : String
  inputs : List TypedArgument
  signature : String
  identifier : String
  text : String

/-- What a reader makes of an interface. Names are distinct. -/
structure InterfaceView where
  methods : List (String × MethodView) := []
  events : List (String × EventView) := []
  /-- The declaration of the constructor, empty if there is none. -/
  creation : String := ""

namespace InterfaceView

/-- The arguments with their types. -/
def typed (arguments : List AbiArgument) : Except InterfaceFault (List TypedArgument) :=
  arguments.mapM fun a => do
    let typeText ← a.typeText.mapError .type
    return ⟨a.name, typeText, a.indexed⟩

/-- The declaration of a function or constructor. -/
def callText (head mutability : String) (inputs outputs : List TypedArgument) : String :=
  let taken := inputs.map fun a => a.typeText ++ " " ++ a.name
  let given := outputs.map fun a => a.typeText ++ (if a.name.isEmpty then "" else " " ++ a.name)
  let middle := if mutability.isEmpty || mutability == "nonpayable" then ""
    else " " ++ mutability
  head ++ "(" ++ ", ".intercalate taken ++ ")" ++ middle ++
    " returns(" ++ ", ".intercalate given ++ ")"

/-- A function. -/
def method (name mutability : String) (inputs outputs : List TypedArgument) : MethodView :=
  let sig := signature name (inputs.map (·.typeText))
  { rawName := name, inputs, signature := sig, identifier := selectorText sig
    text := callText ("function " ++ name) mutability inputs outputs
    isConstant := mutability == "view" || mutability == "pure"
    isPayable := mutability == "payable" }

/-- An event. Arguments without a name get one by their place. -/
def event (name : String) (inputs : List TypedArgument) : EventView :=
  let sig := signature name (inputs.map (·.typeText))
  let declared := inputs.zipIdx.map fun (a, i) =>
    a.typeText ++ (if a.indexed then " indexed " else " ") ++
      (if a.name.isEmpty then "arg" ++ toString i else a.name)
  { rawName := name, inputs, signature := sig, identifier := topicText sig
    text := "event " ++ name ++ "(" ++ ", ".intercalate declared ++ ")" }

/-- An entry with the types of its arguments. -/
structure TypedEntry where
  entry : InterfaceEntry
  inputs : List TypedArgument
  outputs : List TypedArgument

/-- Reads the types of an entry. -/
def typedEntry (e : InterfaceEntry) : Except InterfaceFault TypedEntry := do
  let inputs ← typed (e.inputs.getD [])
  let outputs ← typed e.outputs
  return ⟨e, inputs, outputs⟩

/-- Takes in an entry. -/
def add (v : InterfaceView) (t : TypedEntry) : Except InterfaceFault InterfaceView :=
  let e := t.entry
  match e.type with
  | "constructor" => .ok { v with creation := callText "constructor" e.mutability t.inputs [] }
  | "function" =>
    let name := freshName (v.methods.map (·.1)) e.name
    .ok { v with methods := v.methods ++ [(name, method e.name e.mutability t.inputs t.outputs)] }
  | "event" =>
    let name := freshName (v.events.map (·.1)) e.name
    .ok { v with events := v.events ++ [(name, event e.name t.inputs)] }
  | other => .error (.unknownEntry other e.name)

/-- Reads entries. -/
def ofEntries (entries : List InterfaceEntry) : Except InterfaceFault InterfaceView := do
  let typed ← entries.mapM typedEntry
  typed.foldlM add {}

/-- Reads the text of an interface. -/
def parse (text : String) : Except InterfaceFault InterfaceView :=
  match Json.parse? text with
  | none => .error .shape
  | some j =>
    match Json.readList { type := "" } InterfaceEntry.read [] j with
    | none => .error .shape
    | some entries => ofEntries entries

end InterfaceView

end SolidityCanvas
