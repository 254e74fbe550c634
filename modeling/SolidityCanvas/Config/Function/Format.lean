/-
Formatting values by a pattern.

A pattern is a text with verbs. A verb starts with a percent sign and has, in
this order and all optional but the last, flags, a width, a point and a
precision, the number of an argument in brackets, and a letter. Two percent
signs stand for one. Without the number of an argument, a verb takes the
argument after that of the verb before it. All arguments up to the last have
to be within reach of some verb.

Widths of texts count grapheme clusters.
-/
import SolidityCanvas.Config.Function
import SolidityCanvas.Json.Writer
import SolidityCanvas.Number.Styled
import SolidityCanvas.Text.Cluster
import SolidityCanvas.Text.Letter
import SolidityCanvas.Value.Json

namespace SolidityCanvas.Config.Format

open Text

/-- How a value is to be written. -/
structure Verb where
  zero : Bool := false
  space : Bool := false
  minus : Bool := false
  plus : Bool := false
  sharp : Bool := false
  width : Option Nat := none
  precision : Option Nat := none
  letter : Char := 'v'
  deriving Inhabited

/-- `n` copies of a character. -/
def padding (c : Char) (n : Nat) : List Char := List.replicate n c

/-- A text filled up to the width of the verb. -/
def Verb.padded (v : Verb) (s : String) : String :=
  match v.width with
  | none => s
  | some width =>
    let pads := padding (if v.zero then '0' else ' ') (width - clusterCount s)
    if v.minus then s ++ String.ofList pads else String.ofList pads ++ s

/-- The sign that stands before a number. -/
def Verb.sign (v : Verb) (negative : Bool) : List Char :=
  if negative then ['-'] else if v.plus then ['+'] else if v.space then [' '] else []

/-- A number with digits after the point, filled up to the width. -/
def Verb.fraction (v : Verb) (n : Number) : String :=
  let places := v.precision.getD 6
  let (negative, digits) := match v.letter with
    | 'e' => n.scientificText 'e' places
    | 'E' => n.scientificText 'E' places
    | 'f' => n.fixedText places
    | 'G' => n.generalText 'E' v.precision
    | _ => n.generalText 'e' v.precision
  let sign := if n.isInfinite && !negative then (if v.space then [' '] else ['+'])
    else v.sign negative
  let missing := v.width.getD 0 - (sign.length + digits.length)
  String.ofList <|
    if v.zero && !v.minus && !n.isInfinite then sign ++ padding '0' missing ++ digits
    else if v.minus then sign ++ digits ++ padding ' ' missing
    else padding ' ' missing ++ sign ++ digits

/-- The digits of a whole number in the base of the verb, and the mark of
that base. -/
def Verb.baseDigits (v : Verb) (n : Nat) : List Char × List Char :=
  match v.letter with
  | 'b' => (Nat.toDigits 2 n, ['0', 'b'])
  | 'o' => (Nat.toDigits 8 n, ['0'])
  | 'x' => (Nat.toDigits 16 n, ['0', 'x'])
  | 'X' => ((Nat.toDigits 16 n).map Char.toUpper, ['0', 'X'])
  | _ => (Nat.toDigits 10 n, [])

/-- A whole number, filled up to the width. The precision is the least number
of digits; zero with no digits is nothing at all. -/
def Verb.whole (v : Verb) (n : Int) : String :=
  let (digits, mark) := v.baseDigits n.natAbs
  let lead := v.sign (n < 0) ++ (if v.sharp then mark else [])
  if n == 0 && v.precision == some 0 then ""
  else
    let zeros := v.precision.getD 0 - digits.length
    let missing := v.width.getD 0 - (lead.length + zeros + digits.length)
    let digits := padding '0' zeros ++ digits
    String.ofList <|
      if v.minus then lead ++ digits ++ padding ' ' missing
      else if v.zero && v.precision.isNone then lead ++ padding '0' missing ++ digits
      else padding ' ' missing ++ lead ++ digits

/-- A value in the form that says most about it. -/
def Verb.asIs (v : Verb) (arg : Value) : Except CallFault String :=
  let document := match arg.toJson? with
    | some j => .ok (v.padded j.text)
    | none => .error .failed
  if v.sharp then document
  else match arg with
    | .string s => .ok (v.padded s)
    | .number n =>
      let (negative, digits) := n.generalText 'e' none
      let sign := if negative then ['-'] else if n.isInfinite then ['+'] else []
      .ok (v.padded (String.ofList (sign ++ digits)))
    | _ => document

/-- A value written by the verb. -/
def Verb.text (v : Verb) (arg : Value) : Except CallFault String :=
  if v.letter == 'v' then v.asIs arg
  else if arg.isNull then .error .failed
  else if v.letter == 't' then
    match arg.convert? .bool with
    | some (.bool b) => .ok (if b then "true" else "false")
    | _ => .error .failed
  else if ['b', 'd', 'o', 'x', 'X'].contains v.letter then
    match arg.convert? .number with
    | some (.number n) =>
      match n.toInt? with
      | some i => .ok (v.whole i)
      | none => .error .failed
    | _ => .error .failed
  else if ['e', 'E', 'f', 'g', 'G'].contains v.letter then
    match arg.convert? .number with
    | some (.number n) => .ok (v.fraction n)
    | _ => .error .failed
  else if v.letter == 's' || v.letter == 'q' then
    match arg.convert? .string with
    | some (.string s) =>
      let s := match v.precision with
        | some n => if n == 0 then s else takeClusters n s
        | none => s
      .ok (v.padded (if v.letter == 'q' then Json.quotedText (normalize s) else s))
    | _ => .error .failed
  else .error .failed

/-! ### Patterns -/

/-- The verb with a flag set. -/
def Verb.flag? (v : Verb) : Char → Option Verb
  | '0' => some { v with zero := true }
  | ' ' => some { v with space := true }
  | '-' => some { v with minus := true }
  | '+' => some { v with plus := true }
  | '#' => some { v with sharp := true }
  | _ => none

/-- The flags at the start. -/
def takeFlags (v : Verb) : List Char → Verb × List Char
  | [] => (v, [])
  | c :: cs =>
    match v.flag? c with
    | some v => takeFlags v cs
    | none => (v, c :: cs)

/-- The number at the start, if there is one. -/
def takeDigits (cs : List Char) : List Char × List Char :=
  (cs.takeWhile isAsciiDigit, cs.dropWhile isAsciiDigit)

/-- The width at the start, if there is one. -/
def takeWidth (cs : List Char) : Option Nat × List Char :=
  match takeDigits cs with
  | ([], _) => (none, cs)
  | (digits, rest) => (some (decimalValue digits), rest)

/-- The precision at the start, if there is one. -/
def takePrecision : List Char → Option Nat × List Char
  | '.' :: cs =>
    let (digits, rest) := takeDigits cs
    (some (decimalValue digits), rest)
  | cs => (none, cs)

/-- The number of an argument at the start; `none` if brackets hold none. -/
def takeIndex? : List Char → Option (Option Nat × List Char)
  | '[' :: cs =>
    match takeDigits cs with
    | (d :: digits, ']' :: rest) =>
      if d == '0' then none else some (some (decimalValue (d :: digits)), rest)
    | _ => none
  | cs => some (none, cs)

/-- A verb after its percent sign, with the number of its argument if it
gives one. -/
def takeVerb? (cs : List Char) : Option (Verb × Option Nat × List Char) := do
  let (flags, rest) := takeFlags {} cs
  let (width, rest) := takeWidth rest
  let (precision, rest) := takePrecision rest
  let (index, rest) ← takeIndex? rest
  match rest with
  | c :: rest =>
    if isAsciiLetter c then some ({ flags with width, precision, letter := c }, index, rest)
    else none
  | [] => none

/-- Writes the rest of a pattern. `next` is the number of the next argument
and `highest` the highest used so far; every step takes at least one
character. -/
def run (args : List Value) : Nat → Nat → Nat → List Char → Except CallFault (List Char)
  | 0, _, _, _ :: _ => .error .failed
  | _, _, highest, [] =>
    if highest < args.length then .error .unsuitableArgument else .ok []
  | fuel + 1, next, highest, '%' :: '%' :: cs => do
    let rest ← run args fuel next highest cs
    return '%' :: rest
  | fuel + 1, next, highest, '%' :: cs =>
    match takeVerb? cs with
    | none => .error .failed
    | some (verb, index, cs) => do
      let n := index.getD next
      match args[n - 1]? with
      | none => .error .failed
      | some arg => do
        let s ← verb.text arg
        let rest ← run args fuel (n + 1) (max highest n) cs
        return s.toList ++ rest
  | fuel + 1, next, highest, c :: cs => do
    let rest ← run args fuel next highest cs
    return c :: rest

/-- The arguments written by the pattern. -/
def format (pattern : String) (args : List Value) : Except CallFault String := do
  let cs ← run args pattern.length 1 0 pattern.toList
  return String.ofList cs

end SolidityCanvas.Config.Format
