/-
Sets of code points as lists of closed ranges, and the way they are written
down: hexadecimal words `first-last`, or one number for a single code point.
-/
import SolidityCanvas.Text.Split

namespace SolidityCanvas.Text

/-- The value of a hexadecimal digit of either case; zero for other
characters. -/
def hexDigitValue (c : Char) : Nat :=
  if '0' ≤ c && c ≤ '9' then c.toNat - '0'.toNat
  else if 'a' ≤ c && c ≤ 'f' then c.toNat - 'a'.toNat + 10
  else if 'A' ≤ c && c ≤ 'F' then c.toNat - 'A'.toNat + 10
  else 0

/-- A hexadecimal digit of either case. -/
def isHexDigit (c : Char) : Bool :=
  ('0' ≤ c && c ≤ '9') || ('a' ≤ c && c ≤ 'f') || ('A' ≤ c && c ≤ 'F')

/-- The number written in hexadecimal digits. -/
def hexValue (cs : List Char) : Nat :=
  cs.foldl (fun n c => n * 16 + hexDigitValue c) 0

/-- The hexadecimal digit of a value below sixteen, in lower case. -/
def hexDigit (n : Nat) : Char :=
  if n < 10 then Char.ofNat (n + 48) else Char.ofNat (n + 87)

/-- The lowest `width` hexadecimal digits of a number. -/
def hexPadded : Nat → Nat → List Char
  | 0, _ => []
  | width + 1, n => hexPadded width (n / 16) ++ [hexDigit (n % 16)]

/-- The code points from `first` to `last`. -/
structure CodeRange where
  first : Nat
  last : Nat

namespace CodeRange

/-- Whether a code point lies in the range. -/
def contains (r : CodeRange) (n : Nat) : Bool := r.first ≤ n && n ≤ r.last

/-- Reads `first-last` or a single code point. -/
def ofWord (w : List Char) : CodeRange :=
  let first := hexValue (w.takeWhile (· != '-'))
  match w.dropWhile (· != '-') with
  | [] => ⟨first, first⟩
  | _ :: last => ⟨first, hexValue last⟩

/-- Reads ranges separated by spaces. -/
def listOfLines (ls : List String) : List CodeRange := (wordsOf ls).map ofWord

/-- Whether one of the ranges holds the character. -/
def listContains (rs : List CodeRange) (c : Char) : Bool := rs.any (·.contains c.toNat)

end CodeRange

end SolidityCanvas.Text
