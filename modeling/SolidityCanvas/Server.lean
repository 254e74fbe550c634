/-
The server that compiles for editors.

* `Server.compile`: compiles a request. Within a session, a version that is
  older than one asked for before is superseded and has no result.
* `Server.handle`: the reply to a request over the network. A POST to
  `/compile` compiles, and `/health` says that the server is there.
-/
import SolidityCanvas.Http.Basic
import SolidityCanvas.Json.Writer
import SolidityCanvas.Server.Message
import SolidityCanvas.Session

namespace SolidityCanvas

/-- A compiler and the versions that its editors have asked for. -/
structure Server where
  compiler : Compiler
  sessions : SessionStore CompileResult := .empty
  /-- Stands for the fields of a header that a request leaves empty. -/
  header : Header := {}

namespace Server

/-- A server for a catalog. -/
def new (catalog : Catalog) (header : Header) : Server :=
  { compiler := Compiler.new catalog 0, header }

/-- Why a request has no response. -/
inductive Fault
  | noCanvas
  | compile (e : CompileError)

/-- The fault in words; `reported` stands for faults of evaluation. -/
def Fault.message (reported : String) : Fault → String
  | noCanvas => CompileRequest.missingMessage
  | compile e => e.message reported

/-- Compiles a canvas for a request. -/
def run (s : Server) (r : CompileRequest) (canvas : Canvas) (canceled : Bool) :
    Except CompileError CompileResult × Server :=
  let (result, compiler) := s.compiler.compile canvas (r.header.orElse s.header) canceled
  (result, { s with compiler })

/-- Compiles a request. Versions matter only within a session with a name. -/
def compile (s : Server) (r : CompileRequest) (canceled : Bool) :
    Except Fault CompileResponse × Server :=
  let response : CompileResponse := { session := r.session, version := r.version }
  match r.canvas with
  | none => (.error .noCanvas, s)
  | some canvas =>
    if r.session.isEmpty then
      match s.run r canvas canceled with
      | (.error e, s) => (.error (.compile e), s)
      | (.ok result, s) => (.ok { response with result := some result }, s)
    else
      match s.sessions.begin r.session r.version with
      | (false, sessions) => (.ok { response with superseded := true }, { s with sessions })
      | (true, sessions) =>
        match { s with sessions }.run r canvas canceled with
        | (.error e, s) => (.error (.compile e), s)
        | (.ok result, s) =>
          match s.sessions.complete r.session r.version result with
          | (true, sessions) => (.ok { response with result := some result }, { s with sessions })
          | (false, sessions) => (.ok { response with superseded := true }, { s with sessions })

/-! ### Over the network -/

/-- The largest body of a request that is read. -/
def maxBodyBytes : Nat := 8388608

/-- A reply with a document. -/
def jsonReply (status : Nat) (j : Json) : Http.Reply :=
  { status, type := "application/json", body := j.text ++ "\n" }

/-- A reply that says why there is no response. -/
def errorReply (status : Nat) (e : ErrorReply) : Http.Reply := jsonReply status e.toJson

/-- What is said about a body that is no request. -/
def malformedMessage : String := "malformed request"

/-- Faults of evaluation, as a reply tells of them. -/
def reportedFaults : String := "evaluation failed"

/-- The status of a fault. -/
def Fault.status : Fault → Nat
  | noCanvas => 400
  | compile .canceled => 503
  | compile (.invariant _) => 500
  | compile .broken => Http.Reply.dropped.status

/-- The request in a body, of which the first document is read. -/
def requestOf (body : String) : Except CanvasFault CompileRequest :=
  match Json.parseFirst? (Http.firstBytes maxBodyBytes body) with
  | none => .error .shape
  | some j => CompileRequest.ofJson j

/-- The reply to a request to compile. If the work breaks off there is none. -/
def handleCompile (s : Server) (method body : String) (canceled : Bool) : Http.Reply × Server :=
  if method != "POST" then
    ({ errorReply 405 { error := "method not allowed" } with allow := "POST" }, s)
  else match requestOf body with
    | .error f => (errorReply 400 { error := f.message malformedMessage }, s)
    | .ok r =>
      match s.compile r canceled with
      | (.ok response, s) => (jsonReply 200 response.toJson, s)
      | (.error (.compile .broken), s) => (.dropped, s)
      | (.error e, s) =>
        (errorReply e.status {
          session := r.session, version := r.version, error := e.message reportedFaults }, s)

/-- A text with the characters that mean something in a web page replaced. -/
def pageText (s : String) : String :=
  String.ofList <| s.toList.flatMap fun
    | '&' => "&amp;".toList
    | '<' => "&lt;".toList
    | '>' => "&gt;".toList
    | '"' => "&#34;".toList
    | '\'' => "&#39;".toList
    | c => [c]

/-- The reply that leads elsewhere. -/
def movedReply (method location : String) : Http.Reply :=
  let type := if method == "GET" || method == "HEAD" then "text/html; charset=utf-8" else ""
  let body := if method == "GET" then
    "<a href=\"" ++ pageText location ++ "\">Moved Permanently</a>.\n\n" else ""
  { status := 301, type, location, body }

/-- The names on a path, without their escapes. -/
def pathNames (path : String) : List (Option (List UInt8)) :=
  (Text.splitOnChar '/' path.toList).map fun name => (Url.bytes name).toOption

/-- Whether a path leads where another one does, once its escapes are
taken away. -/
def leadsTo (path place : String) : Bool := pathNames path == pathNames place

/-- The reply to a request over the network, and the server afterwards. The
target is a path and perhaps a query. A path that is not straight leads
elsewhere. -/
def handle (s : Server) (method target body : String) (canceled : Bool) : Http.Reply × Server :=
  let path := String.ofList (target.toList.takeWhile (· != '?'))
  let query := String.ofList (target.toList.dropWhile (· != '?'))
  let straight := Http.straightPath path
  if straight != path then (movedReply method (straight ++ query), s)
  else if leadsTo path "/compile" then s.handleCompile method body canceled
  else if leadsTo path "/health" then ({ status := 200, body := "OK\n" }, s)
  else ({ status := 404, type := "text/plain; charset=utf-8", body := "404 page not found\n" }, s)

end Server

end SolidityCanvas
