/-
Writing JSON.

The written form is compact. In texts, a quote and a backslash get a
backslash, five control characters are written by letter and the others by
number; so are the angle brackets, the ampersand and the two line separators
of other scripts, which keeps a document harmless inside markup. All other
characters stand as they are.
-/
import SolidityCanvas.Json.Basic
import SolidityCanvas.Text.Ranges

namespace SolidityCanvas.Json

/-- One character as it stands in a text. -/
def escapedChar (c : Char) : List Char :=
  match c with
  | '"' => ['\\', '"']
  | '\\' => ['\\', '\\']
  | '\n' => ['\\', 'n']
  | '\r' => ['\\', 'r']
  | '\t' => ['\\', 't']
  | c =>
    let n := c.toNat
    if n == 8 then ['\\', 'b']
    else if n == 12 then ['\\', 'f']
    else if n < 32 || c == '<' || c == '>' || c == '&' || n == 0x2028 || n == 0x2029 then
      '\\' :: 'u' :: Text.hexPadded 4 n
    else [c]

/-- A text in quotes. -/
def quotedText (s : String) : String :=
  String.ofList ('"' :: (s.toList.flatMap escapedChar ++ ['"']))

mutual

/-- The compact written form. -/
def text : Json → String
  | null => "null"
  | bool b => if b then "true" else "false"
  | number t => t
  | string s => quotedText s
  | array items => "[" ++ itemsText items ++ "]"
  | object members => "\x7b" ++ membersText members ++ "\x7d"

/-- Items separated by commas. -/
def itemsText : List Json → String
  | [] => ""
  | [v] => text v
  | v :: w :: rest => text v ++ "," ++ itemsText (w :: rest)

/-- Members separated by commas. -/
def membersText : List (String × Json) → String
  | [] => ""
  | [(name, v)] => quotedText name ++ ":" ++ text v
  | (name, v) :: m :: rest => quotedText name ++ ":" ++ text v ++ "," ++ membersText (m :: rest)

end

/-- A line break and the blanks that stand at a depth of nesting. -/
def newline (depth : Nat) : String := "\n" ++ String.ofList (List.replicate (2 * depth) ' ')

mutual

/-- The written form with every item and member on a line of its own,
indented by two blanks for each container around it. -/
def indented (depth : Nat) : Json → String
  | array [] => "[]"
  | array items =>
    "[" ++ newline (depth + 1) ++ itemsIndented (depth + 1) items ++ newline depth ++ "]"
  | object [] => "\x7b\x7d"
  | object members =>
    "\x7b" ++ newline (depth + 1) ++ membersIndented (depth + 1) members ++ newline depth ++ "\x7d"
  | null => "null"
  | bool b => if b then "true" else "false"
  | number t => t
  | string s => quotedText s

/-- Items, each on its line. -/
def itemsIndented (depth : Nat) : List Json → String
  | [] => ""
  | [v] => indented depth v
  | v :: w :: rest => indented depth v ++ "," ++ newline depth ++ itemsIndented depth (w :: rest)

/-- Members, each on its line. -/
def membersIndented (depth : Nat) : List (String × Json) → String
  | [] => ""
  | [(name, v)] => quotedText name ++ ": " ++ indented depth v
  | (name, v) :: m :: rest =>
    quotedText name ++ ": " ++ indented depth v ++ "," ++ newline depth ++
      membersIndented depth (m :: rest)

end

end SolidityCanvas.Json
