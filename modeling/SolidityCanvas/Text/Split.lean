/-
Cutting, trimming and joining texts.

Everything is stated on lists of characters, so that it can be reasoned
about by induction, with a `String` form beside it where the rest of the
library needs one.

* `fieldsBy`: the maximal runs of characters that are not separators.
* `trim`: a text without the white space at its ends.
* `splitOnChar`: the pieces between the occurrences of one character.
* `cut`: the parts before and after the first occurrence of a text.
* `replaceAll`: every occurrence, from the left, without overlaps.
-/

namespace SolidityCanvas.Text

/-- The maximal runs of characters that are not separators. -/
def fieldsBy (sep : Char → Bool) : List Char → List (List Char)
  | [] => []
  | c :: cs =>
    if sep c then fieldsBy sep cs
    else match cs, fieldsBy sep cs with
      | [], _ => [[c]]
      | d :: _, ws =>
        if sep d then [c] :: ws
        else match ws with
          | [] => [[c]]
          | w :: rest => (c :: w) :: rest

/-- The pieces between the occurrences of `sep`; always at least one. -/
def splitOnChar (sep : Char) : List Char → List (List Char)
  | [] => [[]]
  | c :: cs =>
    if c == sep then [] :: splitOnChar sep cs
    else match splitOnChar sep cs with
      | [] => [[c]]
      | piece :: rest => (c :: piece) :: rest

/-- The words of a text whose separator is the ASCII space. -/
def words (s : String) : List (List Char) := fieldsBy (· == ' ') s.toList

/-- The words of all the lines, in order. -/
def wordsOf (ls : List String) : List (List Char) := ls.flatMap words

/-- The lines of a text: the pieces between line feeds. -/
def lines (s : String) : List String := (splitOnChar '\n' s.toList).map String.ofList

/-- White space: tab to carriage return, the space, next line, the no-break
space, and the space, line and paragraph separators of other scripts. -/
def isBlank (c : Char) : Bool :=
  let n := c.toNat
  (9 ≤ n && n ≤ 13) || n == 0x20 || n == 0x85 || n == 0xA0 || n == 0x1680 ||
    (0x2000 ≤ n && n ≤ 0x200A) || n == 0x2028 || n == 0x2029 || n == 0x202F ||
    n == 0x205F || n == 0x3000

/-- The characters without those at the end that satisfy `p`. -/
def dropRightWhile (p : Char → Bool) (cs : List Char) : List Char :=
  (cs.reverse.dropWhile p).reverse

/-- The characters without white space at either end. -/
def trimChars (cs : List Char) : List Char := dropRightWhile isBlank (cs.dropWhile isBlank)

/-- The text without white space at either end. -/
def trim (s : String) : String := String.ofList (trimChars s.toList)

/-- The words of a text: its maximal runs without white space. -/
def fields (s : String) : List String := (fieldsBy isBlank s.toList).map String.ofList

/-- The parts before and after the first occurrence of `pat`. -/
def cut (pat : List Char) : List Char → Option (List Char × List Char)
  | [] => if pat.isEmpty then some ([], []) else none
  | c :: cs =>
    if pat.isPrefixOf (c :: cs) then some ([], (c :: cs).drop pat.length)
    else (cut pat cs).map fun (before, after) => (c :: before, after)

/-- Replaces occurrences of a non-empty text; the first `skip` characters
belong to an occurrence that has been replaced already. -/
def replaceFrom (old new : List Char) : Nat → List Char → List Char
  | _, [] => []
  | skip + 1, _ :: cs => replaceFrom old new skip cs
  | 0, c :: cs =>
    if old.isPrefixOf (c :: cs) then new ++ replaceFrom old new (old.length - 1) cs
    else c :: replaceFrom old new 0 cs

/-- Puts `new` before every character and at the end. -/
def insertEverywhere (new : List Char) : List Char → List Char
  | [] => new
  | c :: cs => new ++ c :: insertEverywhere new cs

/-- Every occurrence of `old`, from the left, becomes `new`. The empty text
occurs before every character and at the end. -/
def replaceAll (old new s : String) : String :=
  if old.isEmpty then String.ofList (insertEverywhere new.toList s.toList)
  else String.ofList (replaceFrom old.toList new.toList 0 s.toList)

/-- `n` copies of a text, one after another. -/
def repeated (s : String) : Nat → String
  | 0 => ""
  | n + 1 => s ++ repeated s n

/-- Whether `s` starts with `pat`. -/
def hasPrefix (s pat : String) : Bool := pat.toList.isPrefixOf s.toList

/-- Whether `s` ends with `pat`. -/
def hasSuffix (s pat : String) : Bool := pat.toList.isSuffixOf s.toList

/-- The text without `pat` at its start, if it is there. -/
def dropPrefix? (s pat : String) : Option String :=
  if hasPrefix s pat then some (String.ofList (s.toList.drop pat.toList.length)) else none

/-- Insertion of a text into a list in code point order. -/
def insertSorted (s : String) : List String → List String
  | [] => [s]
  | t :: ts => if s < t then s :: t :: ts else if s == t then t :: ts else t :: insertSorted s ts

/-- The distinct members of a list in code point order. -/
def sortedDistinct (ss : List String) : List String := ss.foldr insertSorted []

end SolidityCanvas.Text
