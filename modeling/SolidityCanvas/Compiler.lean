/-
Compiling a canvas.

A canvas is checked and arranged, and written if there are no errors. The
result is emitted, with a document and an interface, or rejected, with the
findings that stand against it. Results are remembered by the content of the
canvas and the header, so that only the first compilation of a canvas does
the work.
-/
import SolidityCanvas.Contract.Document
import SolidityCanvas.Contract.Interface
import SolidityCanvas.Validation

namespace SolidityCanvas

open Solidity (AbiTypeFault)

/-- How a compilation ended. Those that others report may have a word of
their own. -/
structure Status where
  text : String
  deriving DecidableEq, Inhabited

/-- There is a document. -/
def Status.emitted : Status := ⟨"emitted"⟩

/-- There are findings that stand against a document. -/
def Status.rejected : Status := ⟨"rejected"⟩

/-- The outcome of a compilation. -/
structure CompileResult where
  status : Status := ⟨""⟩
  document : Option Document := none
  interface : Option Interface := none
  /-- `none` where the list is not given at all. -/
  diagnostics : Option (List Diagnostic) := none
  /-- The ids of the instances in the order they are written. -/
  order : List String := []
  deriving Inhabited

namespace CompileResult

/-- Whether there is a document. -/
def isEmitted (r : CompileResult) : Bool := r.status == .emitted

/-- The source text, empty if there is none. -/
def source (r : CompileResult) : String := (r.document.map (·.source)).getD ""

/-- The findings. -/
def findings (r : CompileResult) : List Diagnostic := r.diagnostics.getD []

/-- A rejected compilation. -/
def rejected (findings : List Diagnostic) : CompileResult :=
  { status := .rejected, diagnostics := some findings }

end CompileResult

/-- Why there is no outcome. -/
inductive CompileError
  | canceled
  | invariant (e : InvariantError)
  /-- The work broke off when the interface was made. -/
  | broken

/-- The error in words; `reported` stands for faults of evaluation. -/
def CompileError.message (reported : String) : CompileError → String
  | canceled => "context canceled"
  | invariant e => e.message reported
  | broken => AbiTypeFault.noRoom.message

/-- A catalog with remembered results. -/
structure Compiler where
  catalog : Catalog
  results : Cache (List UInt8) CompileResult
  renders : RenderCache

namespace Compiler

/-- How many results are remembered, if no number is given. -/
def defaultCapacity : Nat := 128

/-- A compiler that remembers a number of results; zero stands for the
default. -/
def new (catalog : Catalog) (capacity : Nat) : Compiler :=
  let capacity := if capacity == 0 then defaultCapacity else capacity
  { catalog, results := ⟨capacity, []⟩, renders := RenderCache.new (capacity * 8) }

/-- The digest that identifies a compilation. The version and the time of the
canvas take no part. -/
def resultKey (canvas : Canvas) (h : Header) : List UInt8 :=
  Keccak.digest (keccak256 canvas.contentText ++ h.contractName.toUTF8.toList ++
    0 :: h.license.toUTF8.toList ++ 0 :: h.pragma.toUTF8.toList)

/-- The remembered result of a compilation. -/
def remembered? (c : Compiler) (canvas : Canvas) (h : Header) : Option CompileResult :=
  c.results.find? (resultKey canvas h.withDefaults)

/-- Compiles without looking at remembered results. -/
def run (c : Compiler) (canvas : Canvas) (h : Header) (canceled : Bool) :
    Except CompileError CompileResult × RenderCache :=
  match canvas.validate c.catalog with
  | .error e => (.error (.invariant e), c.renders)
  | .ok findings =>
    if canceled then (.error .canceled, c.renders)
    else match canvas.resolve c.catalog findings with
      | .error e => (.error (.invariant e), c.renders)
      | .ok (none, findings) => (.ok (.rejected findings), c.renders)
      | .ok (some arrangement, findings) =>
        if Diagnostic.hasErrors findings then (.ok (.rejected findings), c.renders)
        else
          let (document, renders) := arrangement.emit h c.renders
          (match document with
            | .error e => .error (.invariant e)
            | .ok document =>
              match arrangement.interface? with
              | none => .error .broken
              | some interface => .ok {
                  status := .emitted, document := some document, interface := some interface
                  diagnostics := some findings, order := arrangement.order }, renders)

/-- Compiles a canvas, and gives the compiler afterwards. A compilation that
is canceled does no work, but may still find a remembered result. -/
def compile (c : Compiler) (canvas : Canvas) (h : Header) (canceled : Bool) :
    Except CompileError CompileResult × Compiler :=
  let h := h.withDefaults
  let key := resultKey canvas h
  match c.results.get key with
  | (some r, results) => (.ok r, { c with results })
  | (none, results) =>
    match c.run canvas h canceled with
    | (.ok r, renders) => (.ok r, { c with results := results.add key r, renders })
    | (.error e, renders) => (.error e, { c with results, renders })

end Compiler

end SolidityCanvas
