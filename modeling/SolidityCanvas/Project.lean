/-
Project files.

A project file says what the contract is called, under which license it
stands and for which compilers it is meant. It has at most one block, and
what it does not say is left to the defaults.
-/
import SolidityCanvas.Config.Decode
import SolidityCanvas.Config.Parser
import SolidityCanvas.Contract.Document
import SolidityCanvas.FileTree
import SolidityCanvas.Solidity.Name
import SolidityCanvas.Text.Quoted

namespace SolidityCanvas

open Config

/-- Why a project file cannot be read. -/
inductive ProjectError
  | malformed (file : String)
  | form (file : String) (faults : List Fault)
  | badName (name : String)

namespace ProjectError

/-- The error in words; `reported` stands for faults of the configuration. -/
def message (reported : String) : ProjectError → String
  | malformed file => "failed to parse project file " ++ file ++ ": " ++ reported
  | form file _ => "failed to decode project file " ++ file ++ ": " ++ reported
  | badName name => "project name " ++ Text.quoted name ++ " is not a valid contract name"

end ProjectError

namespace Project

/-- The block of a project file. -/
def block : BlockForm := ⟨"project", ["name"]⟩

/-- Reads the block of a project file. -/
def headerOf (k : Block) : Decode Header := do
  let b := k.body
  b.checkForm { optional := ["license", "pragma"] }
  let license ← b.text "license"
  let pragma ← b.text "pragma"
  return { contractName := k.labels.headD "", license, pragma }

/-- Reads a project file. There is none if there is no block. -/
def read (b : Body) : Decode (Option Header) := do
  b.checkForm { blocks := [block] }
  match b.blocksOf block with
  | [] => return none
  | [k] => return some (← headerOf k)
  | _ =>
    Decode.report (.body (.duplicateBlock block.type))
    return none

/-- Whether a contract may have a name. -/
def isContractName (name : String) : Bool :=
  Solidity.isIdentifier name && !Solidity.isReserved name

/-- The header in a project file with a text. -/
def ofText (file text : String) : Except ProjectError Header := do
  match Body.parse? text with
  | none => .error (.malformed file)
  | some body =>
    match ← (read body).result.mapError (.form file) with
    | none => .ok Header.default
    | some h =>
      if isContractName h.contractName then .ok h.withDefaults else .error (.badName h.contractName)

/-- The header in the project file at a path; the empty path stands for no
file. -/
def load (tree : FileTree) (path : String) : Except ProjectError Header :=
  if path.isEmpty then .ok Header.default
  else match tree.read path with
    | .error _ => .error (.malformed path)
    | .ok text => ofText path text

end Project

end SolidityCanvas
