/-
The Keccak-256 digest over natural numbers.

The words of a state are read as natural numbers (`State.numbers`), with which
the kernel computes much faster than with words.  What each step does to the words
it does to the numbers as well (`Numbers.numbers_round`), and so the digest can be
computed with these alone:

* `Keccak.digest_eq_numbers`: the two digests are the same;
* `keccak256_eq_numbers`: so it is for texts.
-/
import SolidityCanvas.Hash.Keccak

namespace SolidityCanvas

namespace Keccak

/-- The numbers that words stand for. -/
def State.numbers (s : State) : List Nat := s.toList.map (·.toNat)

namespace Numbers

/-! ### The steps -/

def lane (s : List Nat) (x y : Nat) : Nat := s.getD (x % 5 + 5 * (y % 5)) 0

def build (f : Nat → Nat → Nat) : List Nat := (List.range 25).map fun i => f (i % 5) (i / 5)

/-- A word is not moved at all if both parts are the word or nothing. -/
def rotate (w n : Nat) : Nat := w <<< (n % 64) % UInt64.size ||| w >>> (64 - n % 64)

def mixColumns (s : List Nat) : List Nat :=
  let parity := (List.range 5).map fun x =>
    lane s x 0 ^^^ lane s x 1 ^^^ lane s x 2 ^^^ lane s x 3 ^^^ lane s x 4
  build fun x y =>
    lane s x y ^^^ parity.getD ((x + 4) % 5) 0 ^^^ rotate (parity.getD ((x + 1) % 5) 0) 1

def scatter (s : List Nat) : List Nat :=
  build fun x y =>
    let column := x + 3 * y
    rotate (lane s column x) (rotations.getD (column % 5 + 5 * (x % 5)) 0)

def combineRows (s : List Nat) : List Nat :=
  build fun x y => lane s x y ^^^ ((UInt64.size - 1 - lane s (x + 1) y) &&& lane s (x + 2) y)

def round (s : List Nat) (constant : Nat) : List Nat :=
  let t := combineRows (scatter (mixColumns s))
  t.set 0 (t.getD 0 0 ^^^ constant)

def permute (s : List Nat) : List Nat :=
  roundConstants.foldl (fun s constant => round s constant.toNat) s

def wordOfBytes (bs : List Nat) : Nat := bs.foldr (fun b w => w <<< 8 % UInt64.size ||| b) 0

def bytesOfWord (w : Nat) : List UInt8 := (List.range 8).map fun i => UInt8.ofNat (w >>> (8 * i))

def absorbBlock (s block : List Nat) : List Nat :=
  permute <| build fun x y =>
    let i := x + 5 * y
    if i < 17 then lane s x y ^^^ wordOfBytes ((block.drop (8 * i)).take 8) else lane s x y

def absorb : Nat → List Nat → List Nat → List Nat
  | 0, s, _ => s
  | n + 1, s, bytes => absorb n (absorbBlock s (bytes.take blockSize)) (bytes.drop blockSize)

/-- The digest of a message. -/
def digest (message : List UInt8) : List UInt8 :=
  let padded := (message ++ padding message.length).map (·.toNat)
  let s := absorb (padded.length / blockSize) (build fun _ _ => 0) padded
  (List.range 4).flatMap fun i => bytesOfWord (s.getD i 0)

/-! ### They are those of the words -/

theorem toNat_getD (s : Array UInt64) (i : Nat) :
    (s.getD i 0).toNat = (State.numbers s).getD i 0 := by
  rw [State.numbers, Array.getD_eq_getD_getElem?, List.getD_eq_getElem?_getD, List.getElem?_map,
    Array.getElem?_toList]
  cases s[i]? with
  | none => rfl
  | some w => rfl

theorem toNat_lane (s : State) (x y : Nat) : (s.lane x y).toNat = lane s.numbers x y :=
  toNat_getD s _

theorem numbers_ofFn {n : Nat} {f : Fin n → UInt64} {g : Nat → Nat}
    (h : ∀ i : Fin n, (f i).toNat = g i) :
    State.numbers (Array.ofFn f) = (List.range n).map g := by
  refine List.ext_getElem (by simp [State.numbers]) fun i hi _ => ?_
  have hn : i < n := by simpa [State.numbers] using hi
  simpa [State.numbers] using h ⟨i, hn⟩

theorem numbers_build {f : Nat → Nat → UInt64} {g : Nat → Nat → Nat}
    (h : ∀ x y, (f x y).toNat = g x y) : (State.build f).numbers = build g :=
  numbers_ofFn fun _ => h _ _

theorem toNat_rotate (w : UInt64) (n : Nat) : (Keccak.rotate w n).toNat = rotate w.toNat n := by
  have hlt : n % 64 < 64 := Nat.mod_lt n (by decide)
  have hword : w.toNat < UInt64.size := w.toNat_lt_size
  rw [Keccak.rotate, rotate]
  split
  · next hzero =>
    rw [beq_iff_eq.mp hzero, Nat.shiftLeft_zero, Nat.mod_eq_of_lt hword, Nat.sub_zero,
      Nat.shiftRight_eq_div_pow, Nat.div_eq_of_lt hword, Nat.or_zero]
  · next hnonzero =>
    have hpos : 0 < n % 64 := Nat.pos_of_ne_zero fun h => hnonzero (beq_iff_eq.mpr h)
    have hleft : (UInt64.ofNat (n % 64)).toNat % 64 = n % 64 := by
      rw [UInt64.toNat_ofNat']
      omega
    have hright : (UInt64.ofNat (64 - n % 64)).toNat % 64 = 64 - n % 64 := by
      rw [UInt64.toNat_ofNat']
      omega
    rw [UInt64.toNat_or, UInt64.toNat_shiftLeft, UInt64.toNat_shiftRight, hleft, hright]

theorem numbers_mixColumns (s : State) : (Keccak.mixColumns s).numbers = mixColumns s.numbers := by
  have hparity : State.numbers (Array.ofFn fun x : Fin 5 => s.lane x.val 0 ^^^ s.lane x.val 1 ^^^
      s.lane x.val 2 ^^^ s.lane x.val 3 ^^^ s.lane x.val 4) =
      (List.range 5).map fun x => lane s.numbers x 0 ^^^ lane s.numbers x 1 ^^^
        lane s.numbers x 2 ^^^ lane s.numbers x 3 ^^^ lane s.numbers x 4 :=
    numbers_ofFn fun x => by simp only [UInt64.toNat_xor, toNat_lane]
  rw [Keccak.mixColumns, mixColumns]
  rw [← hparity]
  refine numbers_build fun x y => ?_
  rw [UInt64.toNat_xor, UInt64.toNat_xor, toNat_rotate, toNat_getD, toNat_getD, toNat_lane]

theorem numbers_scatter (s : State) : (Keccak.scatter s).numbers = scatter s.numbers :=
  numbers_build fun x y => by rw [toNat_rotate, toNat_lane]

theorem numbers_combineRows (s : State) :
    (Keccak.combineRows s).numbers = combineRows s.numbers := by
  have hnot : ∀ w : UInt64, (~~~w).toNat = UInt64.size - 1 - w.toNat := UInt64.toNat_not
  refine numbers_build fun x y => ?_
  rw [UInt64.toNat_xor, UInt64.toNat_and, hnot, toNat_lane, toNat_lane, toNat_lane]

/-- **A round on the words is a round on the numbers.** -/
theorem numbers_round (s : State) (constant : UInt64) :
    (Keccak.round s constant).numbers = round s.numbers constant.toNat := by
  have hsteps : (Keccak.combineRows (Keccak.scatter (Keccak.mixColumns s))).numbers =
      combineRows (scatter (mixColumns s.numbers)) := by
    rw [numbers_combineRows, numbers_scatter, numbers_mixColumns]
  rw [Keccak.round, round, ← hsteps]
  generalize Keccak.combineRows (Keccak.scatter (Keccak.mixColumns s)) = t
  rw [State.numbers, Array.toList_setIfInBounds, List.map_set, UInt64.toNat_xor, toNat_getD]
  rfl

theorem numbers_permute (s : State) : (Keccak.permute s).numbers = permute s.numbers :=
  (List.foldl_hom State.numbers fun s constant => (numbers_round s constant).symm).symm

theorem toNat_wordOfBytes (bs : List UInt8) :
    (Keccak.wordOfBytes bs).toNat = wordOfBytes (bs.map (·.toNat)) := by
  induction bs with
  | nil => rfl
  | cons b bs ih =>
    rw [Keccak.wordOfBytes, List.foldr_cons, ← Keccak.wordOfBytes, UInt64.toNat_or,
      UInt64.toNat_shiftLeft, ih, UInt8.toNat_toUInt64]
    rfl

theorem bytesOfWord_toNat (w : UInt64) : Keccak.bytesOfWord w = bytesOfWord w.toNat := by
  refine List.map_congr_left fun i hi => ?_
  have hi : i < 8 := List.mem_range.mp hi
  have hshift : (UInt64.ofNat (8 * i)).toNat % 64 = 8 * i := by
    rw [UInt64.toNat_ofNat']
    omega
  rw [← UInt8.toNat_inj, UInt64.toNat_toUInt8, UInt64.toNat_shiftRight, hshift, UInt8.toNat_ofNat']

theorem numbers_absorbBlock (s : State) (block : List UInt8) :
    (Keccak.absorbBlock s block).numbers = absorbBlock s.numbers (block.map (·.toNat)) := by
  rw [Keccak.absorbBlock, absorbBlock, numbers_permute]
  refine congrArg permute (numbers_build fun x y => ?_)
  dsimp only
  split
  · rw [UInt64.toNat_xor, toNat_wordOfBytes, toNat_lane, List.map_take, List.map_drop]
  · rw [toNat_lane]

theorem numbers_absorb (n : Nat) (s : State) (bytes : List UInt8) :
    (Keccak.absorb n s bytes).numbers = absorb n s.numbers (bytes.map (·.toNat)) := by
  induction n generalizing s bytes with
  | zero => rfl
  | succ n ih =>
    rw [Keccak.absorb, absorb, ih, numbers_absorbBlock, List.map_take, List.map_drop]

end Numbers

/-- **The digest can be computed with numbers.** -/
theorem digest_eq_numbers (message : List UInt8) : digest message = Numbers.digest message := by
  have hstart : (State.build fun _ _ => 0).numbers = Numbers.build fun _ _ => 0 :=
    Numbers.numbers_build fun _ _ => rfl
  rw [digest, Numbers.digest]
  refine congrArg (List.flatMap · (List.range 4)) (funext fun i => ?_)
  rw [Numbers.bytesOfWord_toNat, Numbers.toNat_getD, Numbers.numbers_absorb, hstart, List.length_map]

end Keccak

theorem keccak256_eq_numbers (s : String) :
    keccak256 s = Keccak.Numbers.digest s.toUTF8.toList := Keccak.digest_eq_numbers _

end SolidityCanvas
