/-
Types of the contract interface format.

An interface entry names the type of an argument by a text such as
`uint256[2][]` or `tuple`, the latter with the list of its components.
`AbiArgument.abiType` reads that text and gives the canonical one, in which
a tuple is the parenthesised list of its components' types, or says why the
text is no type.

The reader is lenient about what surrounds a type name: the first run of
letters in the text, with the digits after it, decides.

For a tuple the reader makes a record type of the machine, `NativeType`, and
that needs one for each component.  A machine type has a size below that of
the address space and is written with less than half a gigabyte.  Where there
is none, the reader does not refuse the text but breaks off with everything
that waits for it (`AbiTypeFault.noRoom`).
-/
import SolidityCanvas.Solidity.Name
import SolidityCanvas.Text.Quoted
import SolidityCanvas.Text.Case

namespace SolidityCanvas.Solidity

open Text

/-- An argument of an interface entry. -/
inductive AbiArgument
  | mk (name type internalType : String) (components : List AbiArgument) (indexed : Bool)
  deriving Inhabited

namespace AbiArgument

/-- The name, possibly empty. -/
def name : AbiArgument → String
  | mk n _ _ _ _ => n

/-- The type text. -/
def type : AbiArgument → String
  | mk _ t _ _ _ => t

/-- The type as the source spells it; empty where it says no more than the
type text. -/
def internalType : AbiArgument → String
  | mk _ _ i _ _ => i

/-- The components of a tuple. -/
def components : AbiArgument → List AbiArgument
  | mk _ _ _ cs _ => cs

/-- Whether an event argument is indexed. -/
def indexed : AbiArgument → Bool
  | mk _ _ _ _ i => i

end AbiArgument

/-- Why a size is no machine integer. -/
inductive SizeFault
  | malformed
  | outOfRange
  deriving DecidableEq

/-- Why a type text is refused. -/
inductive AbiTypeFault
  | unbalanced
  | noName (text : String)
  | size (digits : String) (fault : SizeFault)
  | unsupported (text : String)
  | anonymousField
  | badFieldName (index : Nat)
  | badArray
  /-- No refusal, but the end of all work: no machine type holds a tuple. -/
  | noRoom
  deriving DecidableEq

/-- The wording of a refusal. -/
def AbiTypeFault.message : AbiTypeFault → String
  | unbalanced => "invalid arg type in abi"
  | noName t => "invalid type '" ++ t ++ "'"
  | size digits fault =>
    "abi: error parsing variable size: strconv.Atoi: parsing " ++ quoted digits ++
      (match fault with
        | .malformed => ": invalid syntax"
        | .outOfRange => ": value out of range")
  | unsupported t => "unsupported arg type: " ++ t
  | anonymousField => "abi: purely anonymous or underscored field is not supported"
  | badFieldName i => "field " ++ toString i ++ " has invalid name"
  | badArray => "invalid formatting of array type"
  | noRoom => "type would exceed virtual address space"

/-- The number written in decimal digits. -/
def digitsValue (cs : List Char) : Nat :=
  cs.foldl (fun n c => n * 10 + (c.toNat - '0'.toNat)) 0

/-- The largest signed machine integer. -/
def maxInt64 : Nat := 9223372036854775807

/-- Reads a size written in digits. -/
def readSize (digits : List Char) : Except AbiTypeFault Nat :=
  if isDigits digits then
    let n := digitsValue digits
    if n ≤ maxInt64 then .ok n else .error (.size (String.ofList digits) .outOfRange)
  else .error (.size (String.ofList digits) .malformed)

/-! ### Type names -/

/-- The first run of letters in a type text, the digits after it, and a
second run of digits after an `x`, if there is one. -/
structure TypeName where
  letters : List Char
  digits : List Char
  places : Option (List Char)

/-- The first name in a text, unless it holds no letter. -/
def TypeName.first? (cs : List Char) : Option TypeName :=
  let start := cs.dropWhile (!isAsciiLetter ·)
  let letters := start.takeWhile isAsciiLetter
  let afterLetters := start.dropWhile isAsciiLetter
  let digits := afterLetters.takeWhile isAsciiDigit
  let places := match afterLetters.dropWhile isAsciiDigit with
    | 'x' :: rest => if digits.isEmpty then [] else rest.takeWhile isAsciiDigit
    | _ => []
  if letters.isEmpty then none
  else some ⟨letters, digits, if places.isEmpty then none else some places⟩

/-- The size part of a name as it stands in the text. -/
def TypeName.sizeText (n : TypeName) : List Char :=
  n.digits ++ (match n.places with | none => [] | some ps => 'x' :: ps)

/-! ### Field names of a tuple -/

/-- A word with a capital first letter. A first letter outside ASCII cannot
be taken apart and gives no legal name. -/
def capitalized : List Char → List Char
  | [] => []
  | c :: cs => (if c.toNat < 128 then c.toUpper else Char.ofNat 0xFFFD) :: cs

/-- The words between underscores, each with a capital first letter, joined. -/
def camelCase (name : String) : String :=
  String.ofList ((splitOnChar '_' name.toList).flatMap capitalized)

/-- The first of `name`, `name0`, `name1`, … that is not taken, where `tries`
bounds the number of taken ones that can stand in the way. -/
def freshNameFrom (taken : List String) (name : String) : Nat → Nat → String
  | 0, i => name ++ toString i
  | tries + 1, i =>
    if taken.contains (name ++ toString i) then freshNameFrom taken name tries (i + 1)
    else name ++ toString i

/-- The name itself, or with the least number that makes it new. -/
def freshName (taken : List String) (name : String) : String :=
  if taken.contains name then freshNameFrom taken name taken.length 0 else name

/-- A letter of a field name. -/
def isFieldLetter (c : Char) : Bool := c == '_' || isLetter c

/-- A legal field name: a letter, then letters and digits. -/
def isFieldName (s : String) : Bool :=
  match s.toList with
  | [] => false
  | c :: cs => isFieldLetter c && cs.all fun d => isFieldLetter d || isDigit d

/-! ### Arrays -/

/-- The maximal runs of digits in a text. -/
def digitRuns (cs : List Char) : List (List Char) := fieldsBy (!isAsciiDigit ·) cs

/-- The length between one pair of brackets, given with its opening bracket;
`none` for a list of any length. -/
def readBrackets (brackets : List Char) : Except AbiTypeFault (Option Nat) :=
  match digitRuns brackets with
  | [] => .ok none
  | [digits] => (readSize digits).map some
  | _ => .error .badArray

/-- The text before the first opening bracket, and the pieces that start at
each opening bracket. -/
def arrayParts (t : List Char) : List Char × List (List Char) :=
  match splitOnChar '[' t with
  | [] => ([], [])
  | base :: rest => (base, rest.map ('[' :: ·))

/-- Whether the pieces up to each opening bracket close as many brackets as
they open. -/
def bracketsBalanced (t : List Char) : Bool :=
  let pieces := splitOnChar '[' t
  (List.range pieces.length).all fun k => ((pieces.take (k + 1)).flatten.count ']') == k

/-! ### Types of the machine -/

/-- A type of the machine: how it is written, how many bytes its values take,
and a number that divides the addresses of these. -/
structure NativeType where
  text : String
  size : Nat
  alignment : Nat
  deriving DecidableEq, Inhabited

/-- How many addresses there are. Sizes are smaller. -/
def addressSpace : Nat := UInt64.size

/-- The number of bytes that is too many to write a machine type with. -/
def textLimit : Nat := 1 <<< 29

/-- The least multiple of an alignment that is not below a number. -/
def alignUp (n alignment : Nat) : Nat := (n + alignment - 1) / alignment * alignment

namespace NativeType

/-- The type, if there is room for it. -/
def fit? (t : NativeType) : Option NativeType :=
  if t.size < addressSpace && t.text.utf8ByteSize < textLimit then some t else none

/-- A whole number. The machine has some sizes, the others are kept elsewhere. -/
def integer (name : String) (bits : Nat) : NativeType :=
  if [8, 16, 32, 64].contains bits then ⟨name ++ toString bits, bits / 8, bits / 8⟩
  else ⟨"*big.Int", 8, 8⟩

/-- Bytes, as many as are said. -/
def bytes (n : Nat) : NativeType := ⟨"[" ++ toString n ++ "]uint8", n, 1⟩

/-- A list of values of a type, of a given length or of any length. -/
def array? (t : NativeType) : Option Nat → Option NativeType
  | none => fit? ⟨"[]" ++ t.text, 24, 8⟩
  | some n => fit? ⟨"[" ++ toString n ++ "]" ++ t.text, n * t.size, t.alignment⟩

end NativeType

/-- A field of a record of the machine. -/
structure NativeField where
  name : String
  /-- The name of the component that the field is for. -/
  component : String
  type : NativeType

/-- How the field is written. -/
def NativeField.text (f : NativeField) : String :=
  " " ++ f.name ++ " " ++ f.type.text ++ " " ++ quoted ("json:\"" ++ f.component ++ "\"")

namespace NativeType

/-- The bytes that values of some types take one after another, where the next
one can begin, and where the last one without a size stands. -/
structure Extent where
  size : Nat := 0
  alignment : Nat := 1
  emptyAt : Nat := 0

/-- One more value at the end. -/
def Extent.push (x : Extent) (t : NativeType) : Extent :=
  let size := alignUp x.size t.alignment + t.size
  { size, alignment := max x.alignment t.alignment
    emptyAt := if t.size = 0 then size else x.emptyAt }

/-- The size of the whole. A value without a size at the end gets a byte, so
that its address is not that of what comes next. -/
def Extent.close (x : Extent) : Nat :=
  alignUp (if 0 < x.size ∧ x.emptyAt = x.size then x.size + 1 else x.size) x.alignment

/-- A record. -/
def record? (fields : List NativeField) : Option NativeType :=
  let extent := (fields.map (·.type)).foldl Extent.push {}
  fit? {
    text := "struct \x7b" ++ ";".intercalate (fields.map (·.text)) ++
      (if fields.isEmpty then "\x7d" else " \x7d")
    size := extent.close, alignment := extent.alignment }

end NativeType

/-! ### Reading a type -/

/-- A type that was read. -/
structure AbiType where
  /-- The canonical text. -/
  text : String
  /-- The machine type for its values, if there is room for one. -/
  native : Option NativeType

/-- The elementary types by the name that decides. A tuple is none of them. -/
def elementaryType (text internalType : String) (n : TypeName) :
    Except AbiTypeFault NativeType := do
  let size ← if n.digits.isEmpty then
      if n.letters == "uint".toList || n.letters == "int".toList then
        .error (.unsupported text)
      else pure 0
    else readSize n.sizeText
  match String.ofList n.letters with
  | "int" => return .integer "int" size
  | "uint" => return .integer "uint" size
  | "bool" => return ⟨"bool", 1, 1⟩
  | "address" => return ⟨"common.Address", 20, 1⟩
  | "string" => return ⟨"string", 16, 8⟩
  | "function" => return .bytes 24
  | "bytes" =>
    if size > 32 then .error (.unsupported text)
    else return if size = 0 then ⟨"[]uint8", 24, 8⟩ else .bytes size
  | _ =>
    if hasPrefix internalType "contract " then return ⟨"common.Address", 20, 1⟩
    else .error (.unsupported text)

/-- The type of a tuple. -/
def tupleType (components : List (String × NativeField)) : Except AbiTypeFault AbiType :=
  match NativeType.record? (components.map (·.2)) with
  | none => .error .noRoom
  | some native =>
    .ok ⟨"(" ++ ",".intercalate (components.map (·.1)) ++ ")", some native⟩

mutual

/-- Reads the type of an argument. -/
def AbiArgument.abiType : AbiArgument → Except AbiTypeFault AbiType
  | .mk _ text internalType components _ => do
    if !bracketsBalanced text.toList then throw .unbalanced
    let (base, arrays) := arrayParts text.toList
    let internalBase := if arrays.isEmpty then internalType
      else String.ofList (internalType.toList.takeWhile (· != '['))
    let plain ← match TypeName.first? base with
      | none => throw (.noName (String.ofList base))
      | some n =>
        if n.letters == "tuple".toList then do
          if !n.digits.isEmpty then
            let _ ← readSize n.sizeText
          tupleType (← componentTypes components 0 [])
        else do
          let native ← elementaryType (String.ofList base) internalBase n
          pure ⟨String.ofList base, some native⟩
    let lengths ← arrays.mapM readBrackets
    return ⟨plain.text ++ String.ofList arrays.flatten,
      lengths.foldl (fun native length => native.bind (·.array? length)) plain.native⟩

/-- The canonical type texts of the components of a tuple, and the fields for
them. `index` is the place of the next component and `taken` holds the field
names given so far. -/
def componentTypes :
    List AbiArgument → Nat → List String → Except AbiTypeFault (List (String × NativeField))
  | [], _, _ => .ok []
  | c :: cs, index, taken => do
    let type ← c.abiType
    let stem := camelCase c.name
    if stem.isEmpty then throw .anonymousField
    let name := freshName taken stem
    if !isFieldName name then throw (.badFieldName index)
    match type.native with
    | none => throw .noRoom
    | some native =>
      let rest ← componentTypes cs (index + 1) (name :: taken)
      return (type.text, ⟨name, c.name, native⟩) :: rest

end

/-- The canonical type text of an argument. -/
def AbiArgument.typeText (a : AbiArgument) : Except AbiTypeFault String :=
  a.abiType.map (·.text)

end SolidityCanvas.Solidity
