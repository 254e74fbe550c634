/-
Addresses on the network.

* `Url.parse`: the parts of an address. Parts are kept as they are written,
  but every escape in them has to be sound.
* `Url.text`: the written form, with a scheme in lower case and with escapes
  for the characters that need them.

An address without a scheme or without a host is an address too; whoever
needs them has to ask.
-/
import SolidityCanvas.Text.Letter
import SolidityCanvas.Text.Quoted

namespace SolidityCanvas

/-- The parts of an address. -/
structure Url where
  /-- In lower case. -/
  scheme : String := ""
  /-- What follows the scheme, if that is no path. -/
  remainder : String := ""
  /-- The name of a user and the password. -/
  user : Option (List UInt8 × Option (List UInt8)) := none
  /-- With the number of the service behind a colon, if that is given. -/
  host : List UInt8 := []
  path : String := ""
  query : Option String := none
  fragment : String := ""
  deriving DecidableEq, Inhabited

/-- Why a text is no address. -/
inductive UrlFault
  | controlCharacter
  | missingScheme
  | colonInPath
  | missingBracket
  | badService (given : String)
  | badUser
  | badEscape (given : String)
  | badHostCharacter (given : Char)
  deriving DecidableEq, Inhabited

/-- The fault in words. -/
def UrlFault.message : UrlFault → String
  | controlCharacter => "net/url: invalid control character in URL"
  | missingScheme => "missing protocol scheme"
  | colonInPath => "first path segment in URL cannot contain colon"
  | missingBracket => "missing ']' in host"
  | badService given => "invalid port " ++ Text.quoted given ++ " after host"
  | badUser => "net/url: invalid userinfo"
  | badEscape given => "invalid URL escape " ++ Text.quoted given
  | badHostCharacter c =>
    "invalid character " ++ Text.quoted (String.singleton c) ++ " in host name"

/-- A text that is no address, and why. -/
structure UrlError where
  text : String
  fault : UrlFault
  deriving DecidableEq, Inhabited

/-- The error in words. -/
def UrlError.message (e : UrlError) : String :=
  "parse " ++ Text.quoted e.text ++ ": " ++ e.fault.message

namespace Url

/-! ### Escapes -/

/-- The bytes that a part stands for. A percent sign and two hexadecimal
digits stand for one byte. -/
def bytes : List Char → Except UrlFault (List UInt8)
  | [] => .ok []
  | '%' :: a :: b :: rest =>
    if Text.isHexDigit a && Text.isHexDigit b then
      (bytes rest).map (UInt8.ofNat (Text.hexValue [a, b]) :: ·)
    else .error (.badEscape (String.ofList ['%', a, b]))
  | c :: rest =>
    if c == '%' then .error (.badEscape (String.ofList (c :: rest)))
    else (bytes rest).map ((String.singleton c).toUTF8.toList ++ ·)

/-- Bytes as they are written in a part in which `keep` says which characters
stand for themselves. -/
def escaped (keep : Char → Bool) (bytes : List UInt8) : String :=
  String.ofList <| bytes.flatMap fun b =>
    let c := Char.ofNat b.toNat
    if b < 128 && keep c then [c]
    else '%' :: (Text.hexPadded 2 b.toNat).map Char.toUpper

/-- The characters that stand for themselves in every part. -/
def isPlain (c : Char) : Bool :=
  Text.isAsciiLetter c || Text.isAsciiDigit c || "-_.~".toList.contains c

/-- The characters that stand for themselves in a path. -/
def isPathChar (c : Char) : Bool := isPlain c || "$&+,/:;=@".toList.contains c

/-- The characters that stand for themselves in a fragment. -/
def isFragmentChar (c : Char) : Bool := isPlain c || "$&+,/:;=?@!()*".toList.contains c

/-- The characters that stand for themselves in a host. -/
def isHostChar (c : Char) : Bool := isPlain c || "!$&'()*+,;=:[]<>\"".toList.contains c

/-- The characters that stand for themselves in the name of a user. -/
def isUserChar (c : Char) : Bool := isPlain c || "$&+,;=".toList.contains c

/-- A part as it is written: unchanged, unless one of its characters needs an
escape. -/
def escapedPart (keep : Char → Bool) (part : String) : String :=
  if part.toList.all fun c => keep c || "!$&'()*+,;=:@[]%".toList.contains c then part
  else match bytes part.toList with
    | .ok bs => escaped keep bs
    | .error _ => part

/-! ### Reading -/

/-- The parts of a text around the first character that satisfies `p`. -/
def cutAt (p : Char → Bool) (cs : List Char) : List Char × Option (List Char) :=
  match cs.dropWhile (!p ·) with
  | [] => (cs, none)
  | _ :: rest => (cs.takeWhile (!p ·), some rest)

/-- The parts of a text around the last occurrence of a character. -/
def cutLast? (c : Char) (cs : List Char) : Option (List Char × List Char) :=
  match cutAt (· == c) cs.reverse with
  | (_, none) => none
  | (after, some before) => some (before.reverse, after.reverse)

/-- The scheme of an address, if there is one, and the rest. A colon at the
start is refused. -/
def takeScheme (cs : List Char) : Except UrlFault (List Char × List Char) :=
  let isInner (c : Char) : Bool := Text.isAsciiDigit c || c == '+' || c == '-' || c == '.'
  let scheme := cs.takeWhile fun c => Text.isAsciiLetter c || isInner c
  match scheme, cs.drop scheme.length with
  | [], ':' :: _ => .error .missingScheme
  | c :: _, ':' :: rest => .ok (if isInner c then ([], cs) else (scheme, rest))
  | _, _ => .ok ([], cs)

/-- Whether what follows a host is empty or a colon and a number. -/
def isServiceNumber : List Char → Bool
  | [] => true
  | c :: digits => c == ':' && digits.all Text.isAsciiDigit

/-- The bytes of a part of a host. `keepEscape` says which bytes may be
escaped besides the percent sign; a character that is not escaped has to stand
for itself. -/
def hostBytes (keepEscape : Nat → Bool) : List Char → Except UrlFault (List UInt8)
  | [] => .ok []
  | '%' :: a :: b :: rest =>
    let n := Text.hexValue [a, b]
    if Text.isHexDigit a && Text.isHexDigit b && (n == 37 || keepEscape n) then
      (hostBytes keepEscape rest).map (UInt8.ofNat n :: ·)
    else .error (.badEscape (String.ofList ['%', a, b]))
  | c :: rest =>
    if c == '%' then .error (.badEscape (String.ofList (c :: rest)))
    else if c.toNat < 128 && !isHostChar c then .error (.badHostCharacter c)
    else (hostBytes keepEscape rest).map ((String.singleton c).toUTF8.toList ++ ·)

/-- The bytes of a name or number of a host. Only bytes outside ASCII are
escaped there. -/
def nameBytes : List Char → Except UrlFault (List UInt8) := hostBytes (128 ≤ ·)

/-- The bytes of the name of a zone. What a host may have and spaces are
escaped there. -/
def zoneBytes : List Char → Except UrlFault (List UInt8) :=
  hostBytes fun n => n == 32 || (n < 128 && isHostChar (Char.ofNat n))

/-- The host of an address. One in brackets may name a zone after its first
escaped percent sign. -/
def hostOf (cs : List Char) : Except UrlFault (List UInt8) := do
  match cs with
  | '[' :: _ =>
    match cutLast? ']' cs with
    | none => .error .missingBracket
    | some (inner, after) =>
      if !isServiceNumber after then .error (.badService (String.ofList after))
      match Text.cut ['%', '2', '5'] inner with
      | some (number, _) =>
        let number' ← nameBytes number
        let zone ← zoneBytes (inner.drop number.length)
        let rest ← nameBytes (']' :: after)
        return number' ++ zone ++ rest
      | none => nameBytes cs
  | _ =>
    let after := match cutLast? ':' cs with
      | some (_, after) => ':' :: after
      | none => []
    if !isServiceNumber after then .error (.badService (String.ofList after))
    nameBytes cs

/-- Whether a character may stand in the name of a user, or in an escape
there. -/
def isUserText (c : Char) : Bool := isPlain c || ":!$&'()*+,;=%@".toList.contains c

/-- The user and the host of an address. -/
def authorityOf (cs : List Char) :
    Except UrlFault (Option (List UInt8 × Option (List UInt8)) × List UInt8) := do
  match cutLast? '@' cs with
  | none => return (none, ← hostOf cs)
  | some (user, host) =>
    let host ← hostOf host
    if !user.all isUserText then .error .badUser
    match cutAt (· == ':') user with
    | (name, none) => return (some (← bytes name, none), host)
    | (name, some password) => return (some (← bytes name, some (← bytes password)), host)

/-- The address without its fragment. -/
def parseMain (cs : List Char) : Except UrlFault Url := do
  if cs.any fun c => c.toNat < 32 || c.toNat == 127 then .error .controlCharacter
  let (scheme, rest) ← takeScheme cs
  let scheme := String.ofList (scheme.map Char.toLower)
  let (rest, query) := cutAt (· == '?') rest
  let query := query.map String.ofList
  match rest with
  | '/' :: '/' :: after =>
    if scheme.isEmpty && after.head? == some '/' then
      let _ ← bytes rest
      return { scheme, query, path := String.ofList rest }
    let (host, path) := after.span (· != '/')
    let (user, host) ← authorityOf host
    let _ ← bytes path
    return { scheme, query, user, host, path := String.ofList path }
  | '/' :: _ =>
    let _ ← bytes rest
    return { scheme, query, path := String.ofList rest }
  | _ =>
    if !scheme.isEmpty then return { scheme, query, remainder := String.ofList rest }
    if (rest.takeWhile (· != '/')).contains ':' then .error .colonInPath
    let _ ← bytes rest
    return { query, path := String.ofList rest }

/-- The parts of an address. -/
def parse (s : String) : Except UrlError Url := do
  let (main, fragment) := cutAt (· == '#') s.toList
  let u ← (parseMain main).mapError (⟨String.ofList main, ·⟩)
  let _ ← (bytes (fragment.getD [])).mapError (⟨s, ·⟩)
  return { u with fragment := String.ofList (fragment.getD []) }

/-! ### Writing -/

/-- The name of a user, with `password` in place of the password. -/
def userText (password : List UInt8 → String) : List UInt8 × Option (List UInt8) → String
  | (name, none) => escaped isUserChar name ++ "@"
  | (name, some p) => escaped isUserChar name ++ ":" ++ password p ++ "@"

/-- The written form, with `password` in place of the password. -/
def textWith (password : List UInt8 → String) (u : Url) : String :=
  let scheme := if u.scheme.isEmpty then "" else u.scheme ++ ":"
  let place := if !u.remainder.isEmpty then u.remainder
    else
      let authority := (u.user.map (userText password)).getD "" ++ escaped isHostChar u.host
      (if authority.isEmpty then "" else "//" ++ authority) ++ escapedPart isPathChar u.path
  scheme ++ place ++ (u.query.map ("?" ++ ·)).getD "" ++
    if u.fragment.isEmpty then "" else "#" ++ escapedPart isFragmentChar u.fragment

/-- The written form. -/
def text (u : Url) : String := u.textWith (escaped isUserChar)

/-- The written form without the password. -/
def discreetText (u : Url) : String := u.textWith fun _ => "***"

end Url

end SolidityCanvas
