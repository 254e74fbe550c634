/-
Asking a server to compile.

* `Client.request`: the request that goes out for a canvas.
* `Client.response`: what its reply says.
* `Client.socketUrl`: the address for an open connection.

What happens in between is left to whoever has a network: the reply, or the
reason why there was none, is handed in.
-/
import SolidityCanvas.Http.Basic
import SolidityCanvas.Json.Writer
import SolidityCanvas.Server
import SolidityCanvas.Text.Quoted

namespace SolidityCanvas

/-- Why there is no response. -/
inductive ClientError
  | unwritable
  | badEndpoint (e : UrlError)
  | unreachable (url : Url) (cause : String)
  | refused (status : Nat) (error : String)
  | malformed
  | badUrl (e : UrlError)
  | incompleteUrl (url : String)
  | timedOut

namespace ClientError

/-- The error in words; `reported` stands for what is wrong with a canvas or a
reply. -/
def message (reported : String) : ClientError → String
  | unwritable => "failed to encode request: " ++ reported
  | badEndpoint e => "failed to create request: " ++ e.message
  | unreachable url cause =>
    "failed to execute request: Post " ++ Text.quoted url.discreetText ++ ": " ++ cause
  | refused status error =>
    if error.isEmpty then "server could not compile the canvas: " ++ Http.statusText status
    else "server could not compile the canvas (" ++ Http.statusText status ++ "): " ++ error
  | malformed => "failed to decode response: " ++ reported
  | badUrl e => "failed to parse URL: " ++ e.message
  | incompleteUrl url => "URL " ++ Text.quoted url ++ " must include a scheme and host"
  | timedOut => "timed out while waiting for initial connection"

end ClientError

namespace Client

/-- The largest body of a reply that is read. -/
def maxBodyBytes : Nat := 16777216

/-- The address that a canvas is sent to, on the server at an address. -/
def endpoint (base : String) : String :=
  (if Text.hasSuffix base "/" then String.ofList base.toList.dropLast else base) ++ "/compile"

/-- The address with a host that does not end in a colon. -/
def withoutBareColon (u : Url) : Url :=
  if u.host.getLast? == some 58 then { u with host := u.host.dropLast } else u

/-- The request that goes to the server at an address. -/
def request (base : String) (r : CompileRequest) : Except ClientError Http.Request :=
  match r.toJson? with
  | none => .error .unwritable
  | some j =>
    match Url.parse (endpoint base) with
    | .error e => .error (.badEndpoint e)
    | .ok url => .ok {
        method := "POST", url := withoutBareColon url, type := "application/json", body := j.text }

/-- The error that the body of a reply tells of, empty if there is none. -/
def errorIn (body : String) : String :=
  (((Json.parse? body).bind ErrorReply.ofJson?).map (·.error)).getD ""

/-- What a reply says. -/
def response (reply : Http.Reply) : Except ClientError CompileResponse :=
  let body := Http.firstBytes maxBodyBytes reply.body
  if reply.status != 200 then .error (.refused reply.status (errorIn body))
  else match (Json.parse? body).bind CompileResponse.ofJson? with
    | some r => .ok r
    | none => .error .malformed

/-- What the reply to a request says, or why there was none. -/
def outcome (q : Http.Request) : Except String Http.Reply → Except ClientError CompileResponse
  | .error cause => .error (.unreachable q.url cause)
  | .ok reply => response reply

/-- The reply of a server that needs no network, and the server afterwards. A
reply that leads elsewhere is followed once, without the body. -/
def exchange (s : Server) (q : Http.Request) : Http.Reply × Server :=
  match s.handle q.method q.url.path q.body false with
  | (reply, s) =>
    if reply.location.isEmpty then (reply, s) else s.handle "GET" reply.location "" false

/-- Asks a server that needs no network. -/
def ask (s : Server) (base : String) (r : CompileRequest) :
    Except ClientError CompileResponse × Server :=
  match request base r with
  | .error e => (.error e, s)
  | .ok q =>
    let (reply, s) := exchange s q
    (outcome q (if reply = .dropped then .error "EOF" else .ok reply), s)

/-- The address for an open connection. -/
def socketUrl (url : String) : Except ClientError Url :=
  match Url.parse url with
  | .error e => .error (.badUrl e)
  | .ok u => if u.scheme.isEmpty || u.host.isEmpty then .error (.incompleteUrl url) else .ok u

end Client

end SolidityCanvas
