/-
Reading JSON.

The reader is a machine that takes in one character at a time: `Mode` says
what may come next, and a stack of `Frame`s holds the arrays and objects that
are still open. It reads every character once and never looks ahead, so it
ends on every input without a bound of its own.

* `Json.parse?`: a document with nothing after it.
* `Json.parseFirst?`: the first document of a text, whatever follows.

A lone half of a surrogate pair is read as the replacement character, and at
most `maxDepth` containers may be open at once.
-/
import SolidityCanvas.Json.Basic
import SolidityCanvas.Text.Ranges

namespace SolidityCanvas.Json

/-- A container that is not closed yet. Items and members are in reverse. -/
inductive Frame
  | array (items : List Json)
  | object (members : List (String × Json)) (name : String)

/-- Where in a number the reader is. -/
inductive NumberPart
  | minus
  | zero
  | whole
  | point
  | fraction
  | exponent
  | exponentSign
  | exponentDigits
  deriving DecidableEq

/-- Whether a number may end here. -/
def NumberPart.complete : NumberPart → Bool
  | zero | whole | fraction | exponentDigits => true
  | _ => false

/-- The place in the number after one more character. -/
def NumberPart.next? (p : NumberPart) (c : Char) : Option NumberPart :=
  let digit := '0' ≤ c && c ≤ '9'
  let e := c == 'e' || c == 'E'
  match p with
  | minus => if c == '0' then some zero else if digit then some whole else none
  | zero => if c == '.' then some point else if e then some exponent else none
  | whole =>
    if digit then some whole else if c == '.' then some point
    else if e then some exponent else none
  | point => if digit then some fraction else none
  | fraction => if digit then some fraction else if e then some exponent else none
  | exponent =>
    if digit then some exponentDigits
    else if c == '+' || c == '-' then some exponentSign else none
  | exponentSign => if digit then some exponentDigits else none
  | exponentDigits => if digit then some exponentDigits else none

/-- A text that is being read. `high` is the first half of a surrogate pair
whose second half has not come yet. -/
structure PartialText where
  isName : Bool
  read : String
  high : Option Nat := none

/-- The replacement for what is no character. -/
def replacementChar : Char := Char.ofNat 0xFFFD

/-- The text with an unfinished surrogate pair replaced. -/
def PartialText.settle (t : PartialText) : PartialText :=
  match t.high with
  | none => t
  | some _ => { t with read := t.read.push replacementChar, high := none }

/-- The text with one more character. -/
def PartialText.push (t : PartialText) (c : Char) : PartialText :=
  let t := t.settle
  { t with read := t.read.push c }

/-- The text with one more 16-bit unit, which may be half of a pair. -/
def PartialText.pushUnit (t : PartialText) (u : Nat) : PartialText :=
  let isHigh := 0xD800 ≤ u && u < 0xDC00
  let isLow := 0xDC00 ≤ u && u < 0xE000
  match t.high with
  | some h =>
    if isLow then
      { t with
        read := t.read.push (Char.ofNat (0x10000 + (h - 0xD800) * 0x400 + (u - 0xDC00)))
        high := none }
    else if isHigh then { t.settle with high := some u }
    else t.push (Char.ofNat u)
  | none =>
    if isHigh then { t with high := some u }
    else if isLow then t.push replacementChar
    else t.push (Char.ofNat u)

/-- What may come next. -/
inductive Mode
  /-- A value. -/
  | value
  /-- A value or the end of an array. -/
  | firstItem
  /-- A member name or the end of an object. -/
  | firstName
  /-- A member name. -/
  | name
  /-- The colon after a member name. -/
  | colon
  /-- A comma or the end of the container. -/
  | next
  /-- More of a text. -/
  | text (t : PartialText)
  /-- The character after a backslash. -/
  | escape (t : PartialText)
  /-- The remaining digits of a 16-bit unit. -/
  | unit (t : PartialText) (missing : Nat) (value : Nat)
  /-- More of a number. -/
  | number (part : NumberPart) (read : String)
  /-- The remaining letters of a word that stands for a value. -/
  | word (rest : List Char) (value : Json)
  /-- Nothing but blanks. -/
  | done (value : Json)

/-- Whether a number is being read. -/
def Mode.inNumber : Mode → Bool
  | number _ _ => true
  | _ => false

/-- The reader between two characters. -/
structure Reader where
  mode : Mode := .value
  stack : List Frame := []

/-- How many containers may be open at once. -/
def maxDepth : Nat := 10000

/-- The blanks between tokens. -/
def isSpace (c : Char) : Bool := c == ' ' || c == '\t' || c == '\n' || c == '\r'

/-- Puts a finished value where it belongs. -/
def Reader.give (stack : List Frame) (v : Json) : Reader :=
  match stack with
  | [] => ⟨.done v, []⟩
  | .array items :: rest => ⟨.next, .array (v :: items) :: rest⟩
  | .object members name :: rest => ⟨.next, .object ((name, v) :: members) "" :: rest⟩

/-- Opens a container. -/
def Reader.open? (stack : List Frame) (f : Frame) (m : Mode) : Option Reader :=
  if stack.length < maxDepth then some ⟨m, f :: stack⟩ else none

/-- Closes the innermost container. -/
def Reader.close? (stack : List Frame) (c : Char) : Option Reader :=
  match stack, c with
  | .array items :: rest, ']' => some (give rest (.array items.reverse))
  | .object members _ :: rest, '\x7d' => some (give rest (.object members.reverse))
  | _, _ => none

/-- Starts a value. -/
def Reader.startValue? (stack : List Frame) (c : Char) : Option Reader :=
  if c == '"' then some ⟨.text ⟨false, "", none⟩, stack⟩
  else if c == '[' then open? stack (.array []) .firstItem
  else if c == '\x7b' then open? stack (.object [] "") .firstName
  else if c == '-' then some ⟨.number .minus "-", stack⟩
  else if c == '0' then some ⟨.number .zero "0", stack⟩
  else if '1' ≤ c && c ≤ '9' then some ⟨.number .whole (String.singleton c), stack⟩
  else if c == 't' then some ⟨.word ['r', 'u', 'e'] (.bool true), stack⟩
  else if c == 'f' then some ⟨.word ['a', 'l', 's', 'e'] (.bool false), stack⟩
  else if c == 'n' then some ⟨.word ['u', 'l', 'l'] .null, stack⟩
  else none

/-- Goes on after a finished value. -/
def Reader.afterValue? (stack : List Frame) (c : Char) : Option Reader :=
  if isSpace c then some ⟨.next, stack⟩
  else if c == ',' then
    match stack with
    | .array _ :: _ => some ⟨.value, stack⟩
    | .object _ _ :: _ => some ⟨.name, stack⟩
    | [] => none
  else close? stack c

/-- Ends a text: a member name or a value. -/
def Reader.endText (stack : List Frame) (t : PartialText) : Reader :=
  let t := t.settle
  if t.isName then
    match stack with
    | .object members _ :: rest => ⟨.colon, .object members t.read :: rest⟩
    | _ => give stack (.string t.read)
  else give stack (.string t.read)

/-- The character that a letter after a backslash stands for. -/
def escaped? (c : Char) : Option Char :=
  match c with
  | '"' | '\\' | '/' => some c
  | 'b' => some (Char.ofNat 8)
  | 'f' => some (Char.ofNat 12)
  | 'n' => some '\n'
  | 'r' => some '\r'
  | 't' => some '\t'
  | _ => none

/-- Takes in one character. -/
def Reader.step? (r : Reader) (c : Char) : Option Reader :=
  match r.mode with
  | .value => if isSpace c then some r else startValue? r.stack c
  | .firstItem =>
    if isSpace c then some r
    else if c == ']' then close? r.stack c
    else startValue? r.stack c
  | .firstName =>
    if isSpace c then some r
    else if c == '\x7d' then close? r.stack c
    else if c == '"' then some ⟨.text ⟨true, "", none⟩, r.stack⟩
    else none
  | .name =>
    if isSpace c then some r
    else if c == '"' then some ⟨.text ⟨true, "", none⟩, r.stack⟩
    else none
  | .colon =>
    if isSpace c then some r
    else if c == ':' then some ⟨.value, r.stack⟩
    else none
  | .next => afterValue? r.stack c
  | .text t =>
    if c == '"' then some (endText r.stack t)
    else if c == '\\' then some ⟨.escape t, r.stack⟩
    else if c.toNat < 32 then none
    else some ⟨.text (t.push c), r.stack⟩
  | .escape t =>
    if c == 'u' then some ⟨.unit t 4 0, r.stack⟩
    else (escaped? c).map fun d => ⟨.text (t.push d), r.stack⟩
  | .unit t missing value =>
    if Text.isHexDigit c then
      let value := value * 16 + Text.hexDigitValue c
      if missing ≤ 1 then some ⟨.text (t.pushUnit value), r.stack⟩
      else some ⟨.unit t (missing - 1) value, r.stack⟩
    else none
  | .number part read =>
    match part.next? c with
    | some part => some ⟨.number part (read.push c), r.stack⟩
    | none =>
      if part.complete then
        match give r.stack (.number read) with
        | ⟨.next, stack⟩ => afterValue? stack c
        | done => some done
      else none
  | .word rest value =>
    match rest with
    | [] => none
    | [d] => if c == d then some (give r.stack value) else none
    | d :: more => if c == d then some ⟨.word more value, r.stack⟩ else none
  | .done _ => if isSpace c then some r else none

/-- Reads to the end of the text; after the document only blanks may
follow. -/
def Reader.run (r : Reader) : List Char → Option Json
  | [] =>
    match r.step? ' ' with
    | some ⟨.done v, _⟩ => some v
    | _ => none
  | c :: cs =>
    match r.step? c with
    | some r' =>
      -- A number at the top ends with the character after it, which is not part of it.
      match r.mode, r.stack with
      | .number _ _, [] => if isSpace c || r'.mode.inNumber then r'.run cs else none
      | _, _ => r'.run cs
    | none => none

/-- Reads to the end of the first document. -/
def Reader.runFirst (r : Reader) : List Char → Option Json
  | [] =>
    match r.step? ' ' with
    | some ⟨.done v, _⟩ => some v
    | _ => none
  | c :: cs =>
    match r.step? c with
    | some ⟨.done v, _⟩ => some v
    | some r' => r'.runFirst cs
    | none => none

/-- Reads a document with nothing but blanks around it. -/
def parse? (s : String) : Option Json := ({} : Reader).run s.toList

/-- Reads the first document of a text and ignores what follows. -/
def parseFirst? (s : String) : Option Json := ({} : Reader).runFirst s.toList

end SolidityCanvas.Json
