/-
The Keccak-256 digest.

The state is a square of 5 × 5 words of 64 bits, kept row by row. A message
is padded to blocks of 17 words; each block is mixed into the first words of
the state, which is then permuted by 24 rounds. The digest is the first four
words.
-/
import SolidityCanvas.Text.Ranges

namespace SolidityCanvas

namespace Keccak

/-- The words of the state, row by row. -/
abbrev State := Array UInt64

/-- The word in a column and a row, both modulo five. -/
def State.lane (s : State) (x y : Nat) : UInt64 := s.getD (x % 5 + 5 * (y % 5)) 0

/-- A state given word by word. -/
def State.build (f : Nat → Nat → UInt64) : State :=
  Array.ofFn fun i : Fin 25 => f (i.val % 5) (i.val / 5)

/-- Rotation to the left. -/
def rotate (w : UInt64) (n : Nat) : UInt64 :=
  if n % 64 == 0 then w
  else (w <<< UInt64.ofNat (n % 64)) ||| (w >>> UInt64.ofNat (64 - n % 64))

/-- The rotation of each word, row by row. -/
def rotations : Array Nat :=
  #[0, 1, 62, 28, 27, 36, 44, 6, 55, 20, 3, 10, 43, 25, 39, 41, 45, 15, 21, 8, 18, 2, 61, 56, 14]

/-- The constant of each round. -/
def roundConstants : List UInt64 := [
  0x0000000000000001, 0x0000000000008082, 0x800000000000808A, 0x8000000080008000,
  0x000000000000808B, 0x0000000080000001, 0x8000000080008081, 0x8000000000008009,
  0x000000000000008A, 0x0000000000000088, 0x0000000080008009, 0x000000008000000A,
  0x000000008000808B, 0x800000000000008B, 0x8000000000008089, 0x8000000000008003,
  0x8000000000008002, 0x8000000000000080, 0x000000000000800A, 0x800000008000000A,
  0x8000000080008081, 0x8000000000008080, 0x0000000080000001, 0x8000000080008008]

/-- Mixes the parities of two neighbouring columns into each word. -/
def mixColumns (s : State) : State :=
  let parity : Array UInt64 := Array.ofFn fun x : Fin 5 =>
    s.lane x.val 0 ^^^ s.lane x.val 1 ^^^ s.lane x.val 2 ^^^ s.lane x.val 3 ^^^ s.lane x.val 4
  State.build fun x y =>
    s.lane x y ^^^ parity.getD ((x + 4) % 5) 0 ^^^ rotate (parity.getD ((x + 1) % 5) 0) 1

/-- Rotates the words and moves them. -/
def scatter (s : State) : State :=
  State.build fun x y =>
    let column := x + 3 * y
    rotate (s.lane column x) (rotations.getD (column % 5 + 5 * (x % 5)) 0)

/-- Combines each word with the next two of its row. -/
def combineRows (s : State) : State :=
  State.build fun x y => s.lane x y ^^^ (~~~(s.lane (x + 1) y) &&& s.lane (x + 2) y)

/-- One round. -/
def round (s : State) (constant : UInt64) : State :=
  let t := combineRows (scatter (mixColumns s))
  t.setIfInBounds 0 (t.getD 0 0 ^^^ constant)

/-- All rounds. -/
def permute (s : State) : State := roundConstants.foldl round s

/-! ### Messages -/

/-- The number of bytes in a block. -/
def blockSize : Nat := 136

/-- The word that bytes stand for, the lowest first. -/
def wordOfBytes (bs : List UInt8) : UInt64 :=
  bs.foldr (fun b w => (w <<< 8) ||| b.toUInt64) 0

/-- The bytes of a word, the lowest first. -/
def bytesOfWord (w : UInt64) : List UInt8 :=
  (List.range 8).map fun i => (w >>> UInt64.ofNat (8 * i)).toUInt8

/-- The bytes that fill up the last block: a one bit, zeros and a one bit. -/
def padding (length : Nat) : List UInt8 :=
  match blockSize - length % blockSize with
  | 1 => [0x81]
  | n => 0x01 :: List.replicate (n - 2) 0 ++ [0x80]

/-- Mixes a block into the state and permutes it. -/
def absorbBlock (s : State) (block : List UInt8) : State :=
  permute <| State.build fun x y =>
    let i := x + 5 * y
    if i < 17 then s.lane x y ^^^ wordOfBytes ((block.drop (8 * i)).take 8) else s.lane x y

/-- Absorbs a number of blocks. -/
def absorb : Nat → State → List UInt8 → State
  | 0, s, _ => s
  | n + 1, s, bytes => absorb n (absorbBlock s (bytes.take blockSize)) (bytes.drop blockSize)

/-- The digest of a message, 32 bytes. -/
def digest (message : List UInt8) : List UInt8 :=
  let padded := message ++ padding message.length
  let s := absorb (padded.length / blockSize) (State.build fun _ _ => 0) padded
  (List.range 4).flatMap fun i => bytesOfWord (s.getD i 0)

end Keccak

/-- Bytes in hexadecimal, after `0x`. -/
def hexText (bs : List UInt8) : String :=
  "0x" ++ String.ofList (bs.flatMap fun b => Text.hexPadded 2 b.toNat)

/-- The Keccak-256 digest of the bytes of a text. -/
def keccak256 (s : String) : List UInt8 := Keccak.digest s.toUTF8.toList

/-- The digest of a text in hexadecimal. -/
def keccakText (s : String) : String := hexText (keccak256 s)

end SolidityCanvas
