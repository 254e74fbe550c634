/-
Texts in double quotes, as they stand in messages.

A quote and a backslash get a backslash; the seven control characters with a
letter of their own are written with it; every other character that is not
printable is written by its number, as `\x00`, `\u0000` or `\U00000000`.
-/
import SolidityCanvas.Text.Printable

namespace SolidityCanvas.Text

/-- One character as it stands between the quotes. -/
def quotedChar (c : Char) : List Char :=
  if c == '"' || c == '\\' then ['\\', c]
  else if isPrintable c then [c]
  else match c.toNat with
    | 7 => ['\\', 'a']
    | 8 => ['\\', 'b']
    | 9 => ['\\', 't']
    | 10 => ['\\', 'n']
    | 11 => ['\\', 'v']
    | 12 => ['\\', 'f']
    | 13 => ['\\', 'r']
    | n =>
      if n < 32 || n == 127 then '\\' :: 'x' :: hexPadded 2 n
      else if n < 0x10000 then '\\' :: 'u' :: hexPadded 4 n
      else '\\' :: 'U' :: hexPadded 8 n

/-- The text in double quotes. -/
def quoted (s : String) : String :=
  String.ofList ('"' :: (s.toList.flatMap quotedChar ++ ['"']))

/-- A list of texts, each in quotes, in brackets and separated by spaces. -/
def quotedList (ss : List String) : String :=
  "[" ++ " ".intercalate (ss.map quoted) ++ "]"

end SolidityCanvas.Text
