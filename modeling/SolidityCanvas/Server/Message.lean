/-
What editors and the server tell each other.

* `CompileRequest`: asks for a canvas to be compiled, as a version of a
  session.
* `CompileResponse`: the outcome, or that a newer version has taken its
  place.
* `ErrorReply`: why there is no outcome.

Each has a written form and a reader. On an open connection, messages travel
as plain data: `encode?` is the form they have there, and the readers take
that form too.
-/
import SolidityCanvas.Canvas.Json
import SolidityCanvas.Compiler.Json
import SolidityCanvas.Number.Double

namespace SolidityCanvas

/-! ### Plain data -/

namespace Json

mutual

/-- The document as plain data: numbers are doubles, and the members of an
object are sorted by name, of which each counts once, with the last of its
values. There is none if a number is too large. -/
def plain? : Json → Option Json
  | .number t => (Double.parse? t).map fun b => .number (Double.text b)
  | .array items => (plainItems? items).map .array
  | .object members => (plainMembers? [] members).map .object
  | j => some j

/-- The items of a list as plain data. -/
def plainItems? : List Json → Option (List Json)
  | [] => some []
  | j :: js => do
    let item ← plain? j
    let rest ← plainItems? js
    return item :: rest

/-- The members of an object as plain data, after some others. -/
def plainMembers? (done : List (String × Json)) :
    List (String × Json) → Option (List (String × Json))
  | [] => some done
  | (name, j) :: rest => do
    let value ← plain? j
    plainMembers? (Value.insertNamed name value done) rest

end

/-- The document as plain data, after it was written and read. -/
def passed? (j : Json) : Option Json := (parse? j.text).bind plain?

end Json

/-! ### Requests -/

/-- Asks for one version of a canvas to be compiled. -/
structure CompileRequest where
  /-- Empty if versions do not matter. -/
  session : String := ""
  version : UInt64 := 0
  canvas : Option Canvas := none
  header : Header := {}
  deriving Inhabited

namespace CompileRequest

/-- What is said about a request without a canvas. -/
def missingMessage : String := "request has no canvas"

/-- The written form. There is none if the canvas has none. -/
def toJson? (r : CompileRequest) : Option Json := do
  let canvas ← match r.canvas with
    | none => some .null
    | some c => c.toJson?
  return .object (Json.textMember "session" r.session ++ Json.wordMember "version" r.version ++
    [("canvas", canvas), ("header", r.header.toJson)])

/-- The canvas of an object; the last one given counts, and `null` stands for
none. The first that cannot be read decides the fault. -/
def canvasOf (members : List (String × Json)) : Except CanvasFault (Option Canvas) :=
  (Json.fieldValues members "canvas").foldlM (fun _ j => match j with
    | .null => .ok none
    | j => (Canvas.ofJson j).map some) none

/-- Reads a request. A fault of the canvas goes before all others. -/
def ofJson : Json → Except CanvasFault CompileRequest
  | .object members => do
    let canvas ← canvasOf members
    let others : Option CompileRequest := do
      let session ← Json.readField members "session" Json.readText ""
      let version ← Json.readField members "version" Json.readWord 0
      let header ← Json.readField members "header" Header.read {}
      return { session, version, canvas, header }
    match others with
    | some r => return r
    | none => .error .shape
  | .null => .ok {}
  | _ => .error .shape

/-- The request as it travels on an open connection. -/
def encode? (r : CompileRequest) : Option Json := r.toJson?.bind Json.passed?

end CompileRequest

/-! ### Responses -/

/-- Answers a request. -/
structure CompileResponse where
  session : String := ""
  version : UInt64 := 0
  /-- Whether a newer version of the session was asked for; there is no
  result then. -/
  superseded : Bool := false
  result : Option CompileResult := none
  deriving Inhabited

namespace CompileResponse

/-- The written form. -/
def toJson (r : CompileResponse) : Json :=
  .object (Json.textMember "session" r.session ++ Json.wordMember "version" r.version ++
    Json.flagMember "superseded" r.superseded ++
    r.result.toList.map fun x => ("result", x.toJson))

/-- Reads a response. -/
def ofJson? : Json → Option CompileResponse
  | .object members => do
    let session ← Json.readField members "session" Json.readText ""
    let version ← Json.readField members "version" Json.readWord 0
    let superseded ← Json.readField members "superseded" Json.readBool false
    let result ← Json.readField members "result" (Json.readOption {} CompileResult.read) none
    return { session, version, superseded, result }
  | .null => some {}
  | _ => none

/-- The response as it travels on an open connection. -/
def encode? (r : CompileResponse) : Option Json := r.toJson.passed?

end CompileResponse

/-- Says why a request was not compiled. -/
structure ErrorReply where
  session : String := ""
  version : UInt64 := 0
  error : String := ""
  deriving DecidableEq, Inhabited

namespace ErrorReply

/-- The written form. -/
def toJson (r : ErrorReply) : Json :=
  .object (Json.textMember "session" r.session ++ Json.wordMember "version" r.version ++
    [("error", .string r.error)])

/-- Reads such a message. -/
def ofJson? : Json → Option ErrorReply
  | .object members => do
    let session ← Json.readField members "session" Json.readText ""
    let version ← Json.readField members "version" Json.readWord 0
    let error ← Json.readField members "error" Json.readText ""
    return { session, version, error }
  | .null => some {}
  | _ => none

/-- The message as it travels on an open connection. -/
def encode? (r : ErrorReply) : Option Json := r.toJson.passed?

end ErrorReply

end SolidityCanvas
