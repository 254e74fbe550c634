/-
Literals: unsigned numbers of 256 bits and addresses.

`unsignedFault?` says why a text is no such number. A sign and zeros may stand
in front. What remains is read in groups of nineteen bytes from the right, and
the first group that is no number is reported.
-/
import SolidityCanvas.Solidity.Name
import SolidityCanvas.Text.Quoted

namespace SolidityCanvas.Solidity

open Text

/-- Why a text is no unsigned number. -/
inductive UnsignedFault
  | empty
  | tooLarge
  | malformed (group : List UInt8)
  deriving DecidableEq

/-- A byte that belongs to no character. -/
def loneByteText (b : UInt8) : String := "\\x" ++ String.ofList (hexPadded 2 b.toNat)

/-- Whether a byte continues a character. -/
def isContinuation (b : UInt8) : Bool := 0x80 ≤ b && b < 0xC0

/-- Bytes in quotes. The text may start in the middle of a character, whose
bytes are then written one by one. -/
def quotedBytes (bs : List UInt8) : String :=
  let cut := bs.takeWhile isContinuation
  let rest := bs.drop cut.length
  let text := (String.fromUTF8? ⟨rest.toArray⟩).getD ""
  "\"" ++ String.join (cut.map loneByteText) ++ String.ofList ((quoted text).toList.drop 1)

/-- The fault in words. -/
def UnsignedFault.message : UnsignedFault → String
  | empty => "EOF"
  | tooLarge => "hex number > 256 bits"
  | malformed group => "strconv.ParseUint: parsing " ++ quotedBytes group ++ ": invalid syntax"

/-- Whether a byte is a decimal digit. -/
def isDigitByte (b : UInt8) : Bool := 48 ≤ b && b ≤ 57

/-- The digits of the greatest number of 256 bits. -/
def greatestDigits : List UInt8 := (toString (Nat.pow 2 256 - 1)).toUTF8.toList

/-- Drops zeros in front, but not the last byte. -/
def dropZeros : List UInt8 → List UInt8
  | [] => []
  | [b] => [b]
  | b :: c :: rest => if b == 48 then dropZeros (c :: rest) else b :: c :: rest

/-- Whether one list of bytes stands after another of its length. -/
def bytesAfter : List UInt8 → List UInt8 → Bool
  | a :: as, b :: bs => if a == b then bytesAfter as bs else b < a
  | _, _ => false

/-- The first group of nineteen bytes, counted from the end, that is no
number. `groups` bounds how many there are. -/
def malformedGroup? : Nat → List UInt8 → Option (List UInt8)
  | 0, _ => none
  | groups + 1, bs =>
    if bs.isEmpty then none
    else
      let group := bs.drop (bs.length - 19)
      if group.all isDigitByte then malformedGroup? groups (bs.take (bs.length - 19))
      else some group

/-- Why a text is no unsigned number of 256 bits. -/
def unsignedFault? (s : String) : Option UnsignedFault :=
  let bytes := s.toUTF8.toList
  let unsigned := match bytes with
    | 43 :: rest => rest
    | _ => bytes
  let digits := dropZeros unsigned
  if digits.length > greatestDigits.length then some .tooLarge
  else if digits.length == greatestDigits.length && bytesAfter digits greatestDigits then
    some .tooLarge
  else if digits.isEmpty then some .empty
  else (malformedGroup? (digits.length / 19 + 1) digits).map .malformed

/-- Whether a text is an address: forty hexadecimal digits, possibly after
`0x`. -/
def isAddress (s : String) : Bool :=
  let digits := match s.toList with
    | '0' :: x :: rest => if x == 'x' || x == 'X' then rest else '0' :: x :: rest
    | cs => cs
  digits.length == 40 && digits.all isHexDigit

end SolidityCanvas.Solidity
