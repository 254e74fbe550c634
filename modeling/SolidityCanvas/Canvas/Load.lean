/-
Reading canvases from files.

A canvas is written as a JSON document or as a configuration with a block for
each component and each connection. The ending of a file's name decides which
of the two it is.
-/
import SolidityCanvas.Canvas.Json
import SolidityCanvas.Config.Decode
import SolidityCanvas.Config.Parser
import SolidityCanvas.FileTree
import SolidityCanvas.Text.Case

namespace SolidityCanvas

open Config

/-- Why a canvas cannot be read. -/
inductive CanvasError
  | document (f : CanvasFault)
  | malformed (file : String)
  | form (file : String) (faults : List Fault)
  | component (id file : String) (faults : List Fault)
  | unreadable (file : String) (f : FileFault)
  | unsupported (file : String)

namespace CanvasError

/-- The faults behind an error. -/
def faults : CanvasError → List Fault
  | form _ fs | component _ _ fs => fs
  | _ => []

/-- The error in words. `document` stands for what is wrong with a JSON text,
and `configuration` for faults of a configuration. -/
def message (document configuration : String) : CanvasError → String
  | .document f => "failed to decode canvas JSON: " ++ f.message document
  | malformed file => "failed to parse HCL file " ++ file ++ ": " ++ configuration
  | form file _ => "failed to decode canvas " ++ file ++ ": " ++ configuration
  | component id file _ =>
    "component " ++ Text.quoted id ++ " in " ++ file ++ ": " ++ configuration
  | unreadable file f =>
    "failed to read canvas " ++ file ++ ": " ++
      (if f == .isFolder then "read " else "open ") ++ file ++ ": " ++ f.message
  | unsupported file => "unsupported canvas file " ++ file ++ ": expected .json or .hcl"

end CanvasError

namespace Canvas

/-- The blocks of a canvas. -/
def componentBlock : BlockForm := ⟨"component", ["id"]⟩

/-- The blocks of a canvas. -/
def connectionBlock : BlockForm := ⟨"connection", []⟩

/-- Reads a component, without its properties. -/
def componentOf (k : Block) : Decode (String × String × Expr) := do
  let b := k.body
  b.checkForm { required := ["template"], optional := ["properties"] }
  let template ← b.text "template"
  return (k.labels.headD "", template, b.expr "properties")

/-- Reads a connection. -/
def connectionOf (k : Block) : Decode Connection := do
  let b := k.body
  b.checkForm { required := ["from", "to"] }
  let source ← b.text "from"
  let target ← b.text "to"
  return { source, target }

/-- Reads the components and connections of a body. -/
def blocksOf (b : Body) : Decode (List (String × String × Expr) × List Connection) := do
  b.checkForm { blocks := [componentBlock, connectionBlock] }
  let components ← (b.blocksOf componentBlock).mapM componentOf
  let connections ← (b.blocksOf connectionBlock).mapM connectionOf
  return (components, connections)

/-- The properties that an expression gives; `null` gives none. -/
def propertiesOf (e : Expr) : Except (List Fault) Bag :=
  let o := e.eval {}
  if !o.faults.isEmpty then .error (o.faults.map .eval)
  else match o.value with
    | .null _ => .ok []
    | .object entries | .map _ entries => .ok entries
    | _ => .error [.meaning "Invalid properties" "The properties attribute must be an object."]

/-- The canvas of a configuration text. -/
def ofConfig (file text : String) : Except CanvasError Canvas := do
  match Body.parse? text with
  | none => .error (.malformed file)
  | some body =>
    let (components, connections) ← (blocksOf body).result.mapError (.form file)
    let instances ← components.mapM fun (id, template, e) => do
      let properties ← (propertiesOf e).mapError (.component id file)
      return { id, template, properties : Instance }
    return { instances, connections }

/-- The canvas of a JSON text. -/
def ofDocument (text : String) : Except CanvasError Canvas := (parse text).mapError .document

/-- The ending of a path: its last point and what follows, if no slash
does. -/
def endingOf (path : String) : String :=
  let name := path.toList.reverse.takeWhile (· != '/')
  if name.contains '.' then String.ofList ('.' :: (name.takeWhile (· != '.')).reverse) else ""

/-- The canvas of a file. -/
def load (tree : FileTree) (path : String) : Except CanvasError Canvas := do
  let text ← (tree.read path).mapError (.unreadable path)
  match Text.toLower (endingOf path) with
  | ".json" => ofDocument text
  | ".hcl" => ofConfig path text
  | _ => .error (.unsupported path)

end Canvas

end SolidityCanvas
