/-
Requests and replies of the Hypertext Transfer Protocol.
-/
import SolidityCanvas.Http.Url
import SolidityCanvas.Text.Split

namespace SolidityCanvas.Http

/-- A request to a server. -/
structure Request where
  method : String
  url : Url
  /-- The kind of content. -/
  type : String := ""
  body : String := ""
  deriving Inhabited

/-- The reply to a request. -/
structure Reply where
  status : Nat
  /-- The kind of content; empty if it is not given. -/
  type : String := ""
  /-- The methods that may be used instead, if the one of the request may
  not. -/
  allow : String := ""
  /-- Where to go instead; empty if here is right. -/
  location : String := ""
  body : String := ""
  deriving DecidableEq, Inhabited

/-- No reply: the connection is closed without one. -/
def Reply.dropped : Reply := { status := 0 }

/-- What each status means. -/
def statusWords : List (Nat × String) := [
  (100, "Continue"), (101, "Switching Protocols"), (102, "Processing"), (103, "Early Hints"),
  (200, "OK"), (201, "Created"), (202, "Accepted"), (203, "Non-Authoritative Information"),
  (204, "No Content"), (205, "Reset Content"), (206, "Partial Content"), (207, "Multi-Status"),
  (208, "Already Reported"), (226, "IM Used"),
  (300, "Multiple Choices"), (301, "Moved Permanently"), (302, "Found"), (303, "See Other"),
  (304, "Not Modified"), (305, "Use Proxy"), (307, "Temporary Redirect"),
  (308, "Permanent Redirect"),
  (400, "Bad Request"), (401, "Unauthorized"), (402, "Payment Required"), (403, "Forbidden"),
  (404, "Not Found"), (405, "Method Not Allowed"), (406, "Not Acceptable"),
  (407, "Proxy Authentication Required"), (408, "Request Timeout"), (409, "Conflict"),
  (410, "Gone"), (411, "Length Required"), (412, "Precondition Failed"),
  (413, "Request Entity Too Large"), (414, "Request URI Too Long"),
  (415, "Unsupported Media Type"), (416, "Requested Range Not Satisfiable"),
  (417, "Expectation Failed"), (418, "I'm a teapot"), (421, "Misdirected Request"),
  (422, "Unprocessable Entity"), (423, "Locked"), (424, "Failed Dependency"),
  (425, "Too Early"), (426, "Upgrade Required"), (428, "Precondition Required"),
  (429, "Too Many Requests"), (431, "Request Header Fields Too Large"),
  (451, "Unavailable For Legal Reasons"),
  (500, "Internal Server Error"), (501, "Not Implemented"), (502, "Bad Gateway"),
  (503, "Service Unavailable"), (504, "Gateway Timeout"), (505, "HTTP Version Not Supported"),
  (506, "Variant Also Negotiates"), (507, "Insufficient Storage"), (508, "Loop Detected"),
  (510, "Not Extended"), (511, "Network Authentication Required")]

/-- A status with its meaning. -/
def statusText (status : Nat) : String :=
  toString status ++ " " ++ (statusWords.lookup status).getD ""

/-- The longest start of a text that takes no more than a number of bytes. -/
def firstBytes (limit : Nat) (s : String) : String :=
  if s.utf8ByteSize ≤ limit then s
  else String.ofList (take limit s.toList)
where
  take : Nat → List Char → List Char
    | _, [] => []
    | left, c :: cs => if c.utf8Size ≤ left then c :: take (left - c.utf8Size) cs else []

/-! ### Paths -/

/-- The parts of a path after going through it: an empty part and a point
stay where they are, two points go up. -/
def pathParts (path : String) : List (List Char) :=
  ((Text.splitOnChar '/' path.toList).foldl (fun above part =>
    if part.isEmpty || part == ['.'] then above
    else if part == ['.', '.'] then above.tail
    else part :: above) []).reverse

/-- The straight way to where a path leads. A slash at the end is kept. -/
def straightPath (path : String) : String :=
  let parts := pathParts path
  let main := String.ofList (parts.flatMap ('/' :: ·))
  if parts.isEmpty then "/" else if Text.hasSuffix path "/" then main ++ "/" else main

end SolidityCanvas.Http
