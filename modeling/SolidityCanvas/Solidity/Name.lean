/-
Names of the contract language.

* `isIdentifier`: a letter, underscore or dollar sign, then any number of
  those and digits.
* `isReserved`: keywords and sized elementary type names.
* `identifiers`: the words of a type expression that could be names.
-/
import SolidityCanvas.Text.Letter
import SolidityCanvas.Text.Split

namespace SolidityCanvas.Solidity

open Text

/-- A character that may open an identifier. -/
def isIdentifierStart (c : Char) : Bool := isAsciiLetter c || c == '_' || c == '$'

/-- A character that may continue an identifier. -/
def isIdentifierContinue (c : Char) : Bool := isIdentifierStart c || isAsciiDigit c

/-- A syntactically legal identifier, as a list of characters. -/
def isIdentifierChars : List Char → Bool
  | [] => false
  | c :: cs => isIdentifierStart c && cs.all isIdentifierContinue

/-- A syntactically legal identifier. -/
def isIdentifier (s : String) : Bool := isIdentifierChars s.toList

/-- Keywords, words kept for later use, and unsized elementary types, in lines. -/
def reservedLines : List String := [
  "abstract address after alias anonymous apply assembly auto bool break",
  "byte bytes calldata case catch constant constructor continue contract",
  "copyof default define delete do else emit enum error event external",
  "fallback false final fixed for function gwei hours if immutable",
  "implements import in indexed inline int interface internal is let",
  "library macro mapping match memory minutes modifier mutable new null of",
  "override partial payable pragma private promise public pure receive",
  "reference relocatable return returns revert sealed seconds sizeof static",
  "storage string struct super supports switch this true try type typedef",
  "typeof ufixed uint unchecked unicode using var view virtual weeks wei",
  "while years days ether"]

/-- The words of these lines. -/
def reservedWords : List String := (wordsOf reservedLines).map String.ofList

/-- A non-empty run of ASCII digits. -/
def isDigits (cs : List Char) : Bool := !cs.isEmpty && cs.all isAsciiDigit

/-- The digits after `stem`, if the text is the stem and at least one
digit. -/
def sizeAfter? (stem s : String) : Option (List Char) :=
  (dropPrefix? s stem).bind fun rest => if isDigits rest.toList then some rest.toList else none

/-- An integer or byte array type with a size. -/
def isSizedElementary (s : String) : Bool :=
  ["int", "uint", "bytes"].any fun stem => (sizeAfter? stem s).isSome

/-- A keyword or an elementary type name. -/
def isReserved (s : String) : Bool := reservedWords.contains s || isSizedElementary s

/-- A character that separates the words of a type expression. -/
def isWordSeparator (c : Char) : Bool := !(isLetter c || isDigit c || c == '_' || c == '$')

/-- The identifiers among the words of a type expression, in order. -/
def identifiers (s : String) : List String :=
  ((fieldsBy isWordSeparator s.toList).filter isIdentifierChars).map String.ofList

end SolidityCanvas.Solidity
