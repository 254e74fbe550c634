/-
Values of options.

Each reader gives the value that a text stands for, or what is wrong with the
text in words.
-/
import SolidityCanvas.Number.Literal
import SolidityCanvas.Number.Decimal
import SolidityCanvas.Text.Quoted

namespace SolidityCanvas.CommandLine

/-! ### Truth values and numbers -/

/-- Reads a truth value. -/
def readTruth (s : String) : Except String Bool :=
  if ["1", "t", "T", "TRUE", "true", "True"].contains s then .ok true
  else if ["0", "f", "F", "FALSE", "false", "False"].contains s then .ok false
  else .error ("strconv.ParseBool: parsing " ++ Text.quoted s ++ ": invalid syntax")

/-- Reads a whole number. -/
def readNumber (s : String) : Except String Int :=
  (Literal.parseInt s.toList).mapError fun f =>
    "strconv.ParseInt: parsing " ++ Text.quoted s ++ ": " ++ match f with
      | .malformed => "invalid syntax"
      | .tooLarge => "value out of range"

/-! ### Durations -/

/-- What is wrong with a duration. -/
inductive DurationFault
  | malformed
  | missingUnit
  | unknownUnit (unit : String)
  deriving DecidableEq, Inhabited

/-- A text in the message of a fault. Its characters outside ASCII are
written byte by byte. -/
def quotedBytes (s : String) : String :=
  String.ofList ('"' :: (s.toList.flatMap fun c =>
    if c.toNat ≥ 128 || c.toNat < 32 then
      (String.singleton c).toUTF8.toList.flatMap fun b => '\\' :: 'x' :: Text.hexPadded 2 b.toNat
    else if c == '"' || c == '\\' then ['\\', c]
    else [c]) ++ ['"'])

/-- The fault in words. -/
def DurationFault.message (given : String) : DurationFault → String
  | malformed => "time: invalid duration " ++ quotedBytes given
  | missingUnit => "time: missing unit in duration " ++ quotedBytes given
  | unknownUnit u => "time: unknown unit " ++ quotedBytes u ++ " in duration " ++ quotedBytes given

/-- The units of durations in nanoseconds. -/
def units : List (String × Nat) := [
  ("ns", 1), ("us", 1000), ("\u00b5s", 1000), ("\u03bcs", 1000), ("ms", 1000000),
  ("s", 1000000000), ("m", 60000000000), ("h", 3600000000000)]

/-- Whether a character belongs to the number in front of a unit. -/
def isAmountChar (c : Char) : Bool := c == '.' || isDecimalDigit c

/-- Reads an amount and its unit, in nanoseconds. -/
def readPart (cs : List Char) : Except DurationFault (Nat × List Char) := do
  let whole := cs.takeWhile isDecimalDigit
  let rest := cs.drop whole.length
  let (fraction, rest) := match rest with
    | '.' :: r => (r.takeWhile isDecimalDigit, r.dropWhile isDecimalDigit)
    | _ => ([], rest)
  let amount := decimalValue whole
  if (whole.isEmpty && fraction.isEmpty) || amount > Literal.signBit then .error .malformed
  let unit := rest.takeWhile (!isAmountChar ·)
  if unit.isEmpty then .error .missingUnit
  match units.lookup (String.ofList unit) with
  | none => .error (.unknownUnit (String.ofList unit))
  | some n =>
    let total := amount * n + decimalValue fraction * n / Nat.pow 10 fraction.length
    if total > Literal.signBit then .error .malformed
    return (total, rest.drop unit.length)

/-- Adds up amounts with units. `fuel` bounds their number. -/
def readParts (total : Nat) : Nat → List Char → Except DurationFault Nat
  | 0, _ => .ok total
  | _, [] => .ok total
  | fuel + 1, cs => do
    let (part, rest) ← readPart cs
    if total + part > Literal.signBit then .error .malformed
    readParts (total + part) fuel rest

/-- The nanoseconds of a duration. -/
def parseDuration (cs : List Char) : Except DurationFault Int := do
  let (negative, cs) := takeSign cs
  if cs == ['0'] then return 0
  if cs.isEmpty then .error .malformed
  let total ← readParts 0 cs.length cs
  if negative then return -total
  if total ≥ Literal.signBit then .error .malformed
  return total

/-- Reads a duration. -/
def readDuration (s : String) : Except String Int :=
  (parseDuration s.toList).mapError (·.message s)

end SolidityCanvas.CommandLine
