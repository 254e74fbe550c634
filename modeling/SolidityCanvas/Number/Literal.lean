/-
Whole numbers as they are given on a command line.

A number may have a sign, a letter that says its base after a zero, and
underscores between digits. A zero alone before other digits says that they
are octal. Numbers have 64 bits.
-/
import SolidityCanvas.Text.Ranges

namespace SolidityCanvas.Literal

/-- The value of the bit that holds the sign of a number. -/
def signBit : Nat := 9223372036854775808

/-- Why a text is no whole number. -/
inductive Fault
  | malformed
  | tooLarge
  deriving DecidableEq, Inhabited

/-- The value of a digit or letter in a base of up to 36. -/
def digitValue? (c : Char) : Option Nat :=
  if '0' ≤ c && c ≤ '9' then some (c.toNat - '0'.toNat)
  else if 'a' ≤ c && c ≤ 'z' then some (c.toNat - 'a'.toNat + 10)
  else if 'A' ≤ c && c ≤ 'Z' then some (c.toNat - 'A'.toNat + 10)
  else none

/-- The base of a number and its digits. -/
def baseOf (cs : List Char) : Nat × List Char :=
  match cs with
  | '0' :: x :: d :: rest =>
    match x.toLower with
    | 'b' => (2, d :: rest)
    | 'o' => (8, d :: rest)
    | 'x' => (16, d :: rest)
    | _ => (8, x :: d :: rest)
  | '0' :: rest => (8, rest)
  | _ => (10, cs)

/-- The value of digits after some others. A number that is too large is
noticed before what follows is looked at. -/
def valueFrom (base : Nat) (n : Nat) : List Char → Except Fault Nat
  | [] => .ok n
  | c :: cs =>
    if c == '_' then valueFrom base n cs
    else match digitValue? c with
      | none => .error .malformed
      | some d =>
        if d ≥ base then .error .malformed
        else if n * base + d ≥ UInt64.size then .error .tooLarge
        else valueFrom base (n * base + d) cs

/-- Whether every underscore stands between digits. `afterDigit` says whether
the character before was one; a letter for the base counts as one. -/
def underscoresOk (isDigit : Char → Bool) (afterDigit afterUnderscore : Bool) : List Char → Bool
  | [] => !afterUnderscore
  | c :: cs =>
    if isDigit c then underscoresOk isDigit true false cs
    else if c == '_' then afterDigit && underscoresOk isDigit false true cs
    else !afterUnderscore && underscoresOk isDigit false false cs

/-- Whether every underscore of a number stands between digits. -/
def separated (cs : List Char) : Bool :=
  let isDecimal (c : Char) : Bool := '0' ≤ c && c ≤ '9'
  match cs with
  | '0' :: x :: rest =>
    match x.toLower with
    | 'x' => underscoresOk Text.isHexDigit true false rest
    | 'b' | 'o' => underscoresOk isDecimal true false rest
    | _ => underscoresOk isDecimal false false cs
  | _ => underscoresOk isDecimal false false cs

/-- The value of a number without a sign. -/
def parseNat (cs : List Char) : Except Fault Nat := do
  if cs.isEmpty then .error .malformed
  let (base, digits) := baseOf cs
  let n ← valueFrom base 0 digits
  if cs.contains '_' && !separated cs then .error .malformed
  return n

/-- The value of a number that may have a sign, as a signed word. -/
def parseInt (cs : List Char) : Except Fault Int := do
  match cs with
  | '-' :: rest =>
    let n ← parseNat rest
    if n > signBit then .error .tooLarge else return -n
  | _ =>
    let n ← parseNat (match cs with
      | '+' :: rest => rest
      | _ => cs)
    if n ≥ signBit then .error .tooLarge else return n

end SolidityCanvas.Literal
