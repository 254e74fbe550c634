/-
Texts in YAML documents.

A text is written plainly where that is safe. It gets quotes if it could be
read as something else, such as a number, a truth value or a time, or if its
characters mean something in their place; and it is written line by line if
it has several lines.

* `isOrdinary`: no reader takes the text for anything but a text.
* `Traits`: what the characters of a text say about how it may be written.
* `scalar`: the text as it stands in a document.
-/
import SolidityCanvas.Number.Double
import SolidityCanvas.Number.Literal
import SolidityCanvas.Text.Split
import SolidityCanvas.Timestamp

namespace SolidityCanvas.Yaml

/-! ### What a text could be taken for -/

/-- Words that are no texts. -/
def specialWords : List String := [
  "true", "True", "TRUE", "false", "False", "FALSE", "", "~", "null", "Null", "NULL",
  ".nan", ".NaN", ".NAN", ".inf", ".Inf", ".INF", "+.inf", "+.Inf", "+.INF",
  "-.inf", "-.Inf", "-.INF"]

/-- Words that older readers take for truth values. -/
def formerWords : List String := [
  "y", "Y", "yes", "Yes", "YES", "on", "On", "ON", "n", "N", "no", "No", "NO",
  "off", "Off", "OFF"]

/-- Splits off the longest run of digits. -/
def digitRun (cs : List Char) : List Char × List Char := cs.span isDecimalDigit

/-- The characters after an exponent, if that is what a text starts with or
if there is none. -/
def afterExponent (cs : List Char) : List Char :=
  match cs with
  | e :: rest =>
    if e == 'e' || e == 'E' then
      match digitRun (takeSign rest).2 with
      | ([], _) => cs
      | (_, after) => after
    else cs
  | [] => []

/-- Whether a text has the form of a decimal number. -/
def hasDecimalForm (cs : List Char) : Bool :=
  match digitRun (takeSign cs).2 with
  | ([], '.' :: rest) =>
    match digitRun rest with
    | ([], _) => false
    | (_, after) => (afterExponent after).isEmpty
  | ([], _) => false
  | (_, '.' :: rest) => (afterExponent (digitRun rest).2).isEmpty
  | (_, rest) => (afterExponent rest).isEmpty

/-- Whether a text is a decimal number that is not too large. -/
def isDecimal (cs : List Char) : Bool :=
  hasDecimalForm cs &&
    (Double.parse? (String.ofList (if cs.head? == some '+' then cs.tail else cs))).isSome

/-- Whether a text is a whole number. -/
def isWhole (cs : List Char) : Bool :=
  (Literal.parseInt cs).isOk || (Literal.parseNat cs).isOk

/-- Whether a text is a time of the day, with an offset from Greenwich if it
follows a letter and without one if it follows a space. -/
def isClock (cs : List Char) : Bool := Option.isSome do
  let mark :: rest := cs | none
  let (hour, rest) ← Timestamp.oneOrTwoDigits? rest
  let rest ← Timestamp.char? ':' rest
  let (minute, rest) ← Timestamp.oneOrTwoDigits? rest
  let rest ← Timestamp.char? ':' rest
  let (second, rest) ← Timestamp.oneOrTwoDigits? rest
  if hour > 23 || minute > 59 || second > 59 then none
  let (_, rest) := Timestamp.fraction rest
  if mark == ' ' then
    if rest.isEmpty then some () else none
  else if mark == 'T' || mark == 't' then (Timestamp.zone? rest).map fun _ => ()
  else none

/-- Whether a text is a date, perhaps with a time. -/
def isTime (cs : List Char) : Bool := Option.isSome do
  let (year, rest) := digitRun cs
  if year.length != 4 then none
  let rest ← Timestamp.char? '-' rest
  let (month, rest) ← Timestamp.oneOrTwoDigits? rest
  let rest ← Timestamp.char? '-' rest
  let (day, rest) ← Timestamp.oneOrTwoDigits? rest
  if Date.isValid ⟨decimalValue year, month, day⟩ && (rest.isEmpty || isClock rest) then some ()
  else none

/-- Whether a text is read as a number to the base sixty by some. -/
def isSexagesimal (cs : List Char) : Bool :=
  let unsigned := (takeSign cs).2
  let main := unsigned.takeWhile (· != '.')
  let fraction := unsigned.drop (main.length + 1)
  match Text.splitOnChar ':' main with
  | first :: second :: more =>
    first.head?.any isDecimalDigit && first.all (fun c => isDecimalDigit c || c == '_') &&
      (second :: more).all (fun part => !part.isEmpty && part.length ≤ 2 &&
        part.all isDecimalDigit && decimalValue part < 60) &&
      fraction.all (fun c => isDecimalDigit c || c == '_')
  | _ => false

/-- Whether a text cannot be taken for anything else. -/
def isOrdinary (s : String) : Bool :=
  let cs := s.toList
  let digits := cs.filter (· != '_')
  let isNumeric := match cs.head? with
    | some '.' => isDecimal digits
    | some c =>
      (isDecimalDigit c || c == '+' || c == '-') && (isTime cs || isWhole digits || isDecimal digits)
    | none => false
  !(specialWords.contains s || formerWords.contains s || isNumeric || isSexagesimal cs)

/-! ### What the characters allow -/

/-- Whether a character is written as it is. -/
def isPrintable (c : Char) : Bool :=
  let n := c.toNat
  n == 10 || (0x20 ≤ n && n ≤ 0x7E) || (0xA0 ≤ n && n ≤ 0xFFFD && n != 0xFEFF)

/-- Whether a character is a space or a tab. -/
def isGap (c : Char) : Bool := c == ' ' || c == '\t'

/-- Whether a character ends a line. -/
def isBreak (c : Char) : Bool :=
  c == '\n' || c == '\r' || c.toNat == 0x85 || c.toNat == 0x2028 || c.toNat == 0x2029

/-- What the characters of a text say about how it may be written. -/
structure Traits where
  /-- A character means something outside brackets. -/
  blockMark : Bool := false
  /-- A character means something inside brackets. -/
  flowMark : Bool := false
  hasBreak : Bool := false
  /-- There is a character that cannot be written as it is. -/
  hasSpecial : Bool := false
  hasTab : Bool := false
  /-- There is a space at the end of a line that is not the last. -/
  spaceBreak : Bool := false
  /-- There is a space at the start of a line that is not the first. -/
  breakSpace : Bool := false
  deriving DecidableEq, Inhabited

namespace Traits

/-- Both sets of traits together. -/
def merge (a b : Traits) : Traits where
  blockMark := a.blockMark || b.blockMark
  flowMark := a.flowMark || b.flowMark
  hasBreak := a.hasBreak || b.hasBreak
  hasSpecial := a.hasSpecial || b.hasSpecial
  hasTab := a.hasTab || b.hasTab
  spaceBreak := a.spaceBreak || b.spaceBreak
  breakSpace := a.breakSpace || b.breakSpace

/-- What a character means between the one before it, if any, and the one
after it. -/
def ofChar (before : Option Char) (c : Char) (after : Option Char) : Traits :=
  let spaced := after.all isGap
  let afterGap := before.all fun b => isGap b || isBreak b
  let (block, flow) := match before with
    | none =>
      if "#,[]\x7b\x7d&*!|>'\"%@`".toList.contains c then (true, true)
      else if c == '?' || c == ':' then (spaced, true)
      else if c == '-' then (spaced, spaced)
      else (false, false)
    | some _ =>
      if ",?[]\x7b\x7d".toList.contains c then (false, true)
      else if c == ':' then (spaced, true)
      else if c == '#' then (afterGap, afterGap)
      else (false, false)
  { blockMark := block, flowMark := flow, hasBreak := isBreak c
    hasTab := c == '\t', hasSpecial := c != '\t' && !isPrintable c
    breakSpace := c == ' ' && before.any isBreak, spaceBreak := isBreak c && before == some ' ' }

/-- The traits of the rest of a text. -/
def ofRest (before : Option Char) : List Char → Traits
  | [] => {}
  | c :: cs => (ofChar before c cs.head?).merge (ofRest (some c) cs)

/-- The traits of a text. Lines and points in threes end documents. -/
def of (cs : List Char) : Traits :=
  let marks := ['-', '-', '-'].isPrefixOf cs || ['.', '.', '.'].isPrefixOf cs
  (ofRest none cs).merge { blockMark := marks, flowMark := marks }

end Traits

/-! ### Writing -/

/-- The text in single quotes. -/
def singleQuoted (cs : List Char) : String :=
  String.ofList ('\'' :: (cs.flatMap fun c => if c == '\'' then [c, c] else [c]) ++ ['\''])

/-- A character between double quotes. -/
def quotedChar (c : Char) : List Char :=
  if isPrintable c && !isBreak c && c != '"' && c != '\\' then [c]
  else
    let n := c.toNat
    '\\' :: match n with
      | 0 => ['0']
      | 7 => ['a']
      | 8 => ['b']
      | 9 => ['t']
      | 10 => ['n']
      | 11 => ['v']
      | 12 => ['f']
      | 13 => ['r']
      | 27 => ['e']
      | 34 => ['"']
      | 92 => ['\\']
      | 0x85 => ['N']
      | 0x2028 => ['L']
      | 0x2029 => ['P']
      | _ =>
        let hex (width : Nat) : List Char := (Text.hexPadded width n).map Char.toUpper
        if n ≤ 0xFF then 'x' :: hex 2 else if n ≤ 0xFFFF then 'u' :: hex 4 else 'U' :: hex 8

/-- The text in double quotes. -/
def doubleQuoted (cs : List Char) : String :=
  String.ofList ('"' :: (cs.flatMap quotedChar ++ ['"']))

/-- What is said about the line ends of a text that is written line by line:
whether its first line is indented, and what follows its last one. -/
def blockHints (cs : List Char) : String :=
  (if cs.head?.any fun c => c == ' ' || c == '\n' then "2" else "") ++
    match cs.reverse with
    | '\n' :: before => if before.head?.all (· == '\n') then "+" else ""
    | _ => "-"

/-- The text line by line, each line indented, without the end of the last
one. The line that says so ends with the first line end of the text, if that
is what the text starts with. -/
def block (indent : Nat) (cs : List Char) : String :=
  let line (l : List Char) : List Char :=
    if l.isEmpty then [] else List.replicate indent ' ' ++ l
  let body := ['\n'].intercalate ((Text.splitOnChar '\n' cs).map line)
  let whole := '|' :: (blockHints cs).toList ++ (if cs.head? == some '\n' then [] else ['\n']) ++ body
  String.ofList (if whole.getLast? == some '\n' then whole.dropLast else whole)

/-- The text as it stands in a document, inside brackets or with an indent
for its lines. -/
def scalar (flow : Bool) (indent : Nat) (s : String) : String :=
  let cs := s.toList
  let t := Traits.of cs
  let spaceEnd := cs.getLast? == some ' '
  let edges := cs.head?.any (fun c => c == ' ' || isBreak c) || cs.getLast?.any fun c =>
    c == ' ' || isBreak c
  let singleAllowed := !(t.breakSpace || t.spaceBreak || t.hasTab || t.hasSpecial)
  if cs.contains '\n' then
    if flow || spaceEnd || t.spaceBreak || t.hasSpecial then doubleQuoted cs else block indent cs
  else if !isOrdinary s then doubleQuoted cs
  else if edges || t.hasBreak || !singleAllowed || (if flow then t.flowMark else t.blockMark) then
    if singleAllowed then singleQuoted cs else doubleQuoted cs
  else s

end SolidityCanvas.Yaml
