/-
Reading records from JSON objects.

A record is read from an object by the names of its fields. A name matches in
either case; members without a field are ignored; when a name occurs more
than once, each occurrence is read over what the earlier ones left; and
`null` leaves a field as it is. A value of the wrong shape refuses the whole
record.
-/
import SolidityCanvas.Json.Basic

namespace SolidityCanvas.Json

/-- A character as it counts in a comparison that ignores case. Two
characters outside ASCII count as the letters they are variants of. -/
def foldedChar (c : Char) : Char :=
  if c.toNat == 0x17F then 'S' else if c.toNat == 0x212A then 'K' else c.toUpper

/-- A name as it counts in a comparison that ignores case. -/
def foldedName (s : String) : List Char := s.toList.map foldedChar

/-- Whether a member name names the field. -/
def namesField (field name : String) : Bool := foldedName name == foldedName field

/-- The values given for a field, in order. -/
def fieldValues (members : List (String × Json)) (field : String) : List Json :=
  (members.filter fun m => namesField field m.1).map (·.2)

/-- Reads a field over its earlier value, once for each occurrence. -/
def readField {α : Type} (members : List (String × Json)) (field : String)
    (read : α → Json → Option α) (start : α) : Option α :=
  (fieldValues members field).foldlM read start

/-- Reads a text over an earlier one. -/
def readText (old : String) : Json → Option String
  | string s => some s
  | null => some old
  | _ => none

/-- Reads a truth value over an earlier one. -/
def readBool (old : Bool) : Json → Option Bool
  | bool b => some b
  | null => some old
  | _ => none

/-- Reads the items of a list, each over the item that stood in its place. -/
def readItems {α : Type} (blank : α) (read : α → Json → Option α) :
    List α → List Json → Option (List α)
  | _, [] => some []
  | old, j :: js => do
    let item ← read (old.headD blank) j
    let rest ← readItems blank read old.tail js
    return item :: rest

/-- Reads a list over an earlier one; `null` empties it. -/
def readList {α : Type} (blank : α) (read : α → Json → Option α) (old : List α) :
    Json → Option (List α)
  | array items => readItems blank read old items
  | null => some []
  | _ => none

/-- The value of a number that is written in digits alone. -/
def wholeNumber? (text : String) : Option Nat :=
  if !text.isEmpty && text.toList.all (fun c => '0' ≤ c && c ≤ '9') then
    some (text.toList.foldl (fun n c => n * 10 + (c.toNat - '0'.toNat)) 0)
  else none

/-- Reads a 64-bit word over an earlier one. -/
def readWord (old : UInt64) : Json → Option UInt64
  | number t => (wholeNumber? t).bind fun n =>
      if n < UInt64.size then some (UInt64.ofNat n) else none
  | null => some old
  | _ => none

/-- The value of the bit of a 64-bit word that holds its sign. -/
def signBit : Nat := 9223372036854775808

/-- Reads a signed 64-bit word over an earlier one. -/
def readInt (old : Int64) : Json → Option Int64
  | number t =>
    let (negative, digits) := match t.toList with
      | '-' :: rest => (true, String.ofList rest)
      | _ => (false, t)
    (wholeNumber? digits).bind fun n =>
      if n < signBit || (negative && n == signBit) then
        some (Int64.ofInt (if negative then -n else n))
      else none
  | null => some old
  | _ => none

/-- Reads a list that may not be given over an earlier one; `null` takes it
away. -/
def readListOption {α : Type} (blank : α) (read : α → Json → Option α)
    (old : Option (List α)) : Json → Option (Option (List α))
  | null => some none
  | j => (readList blank read (old.getD []) j).map some

/-- Reads a part that may not be given over an earlier one; `null` takes it
away. -/
def readOption {α : Type} (blank : α) (read : α → Json → Option α) (old : Option α) :
    Json → Option (Option α)
  | null => some none
  | j => (read (old.getD blank) j).map some

end SolidityCanvas.Json
