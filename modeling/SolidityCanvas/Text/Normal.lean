/-
The composed normal form of a text: canonically equivalent texts become
equal.

A text is decomposed as far as it goes (`decompose`), the marks after each
letter are put in the order of their classes (`reorder`), and what can be
written as one character is composed again (`compose`). Syllables of the
Korean script are taken apart and put together by arithmetic.
-/
import SolidityCanvas.Text.Canonical

namespace SolidityCanvas.Text

/-! ### Korean syllables -/

/-- The parts of a Korean syllable. -/
def syllableParts? (n : Nat) : Option (List Nat) :=
  if 0xAC00 ≤ n && n ≤ 0xD7A3 then
    let i := n - 0xAC00
    let lead := 0x1100 + i / 588
    let vowel := 0x1161 + i % 588 / 28
    let tail := i % 28
    some (if tail == 0 then [lead, vowel] else [lead, vowel, 0x11A7 + tail])
  else none

/-- The Korean syllable made of a lead and a vowel, or of a syllable without
a tail and a tail. -/
def syllable? (a b : Nat) : Option Nat :=
  if 0x1100 ≤ a && a ≤ 0x1112 && 0x1161 ≤ b && b ≤ 0x1175 then
    some (0xAC00 + ((a - 0x1100) * 21 + (b - 0x1161)) * 28)
  else if 0xAC00 ≤ a && a ≤ 0xD7A3 && (a - 0xAC00) % 28 == 0 && 0x11A8 ≤ b && b ≤ 0x11C2 then
    some (a + (b - 0x11A7))
  else none

/-! ### Decomposition -/

/-- A code point decomposed `depth` times. No character needs more than four
steps. -/
def decomposeCode : Nat → Nat → List Nat
  | 0, n => [n]
  | depth + 1, n =>
    match syllableParts? n with
    | some parts => parts
    | none =>
      match decomposition? n with
      | some parts => parts.flatMap (decomposeCode depth)
      | none => [n]

/-- Every code point decomposed as far as it goes. -/
def decompose (ns : List Nat) : List Nat := ns.flatMap (decomposeCode 4)

/-! ### Order of marks -/

/-- Inserts a mark into a run of marks, after those of its own class. -/
def insertMark (n : Nat) : List Nat → List Nat
  | [] => [n]
  | m :: ms =>
    if combiningClass n < combiningClass m then n :: m :: ms else m :: insertMark n ms

/-- Puts every run of marks in the order of their classes; equal classes keep
their order. `run` holds the marks read since the last starter. -/
def reorderFrom (run : List Nat) : List Nat → List Nat
  | [] => run
  | n :: ns =>
    if combiningClass n == 0 then run ++ n :: reorderFrom [] ns
    else reorderFrom (insertMark n run) ns

/-- Every run of marks in the order of their classes. -/
def reorder (ns : List Nat) : List Nat := reorderFrom [] ns

/-! ### Composition -/

/-- The one code point that replaces a pair. -/
def pair? (a b : Nat) : Option Nat := (syllable? a b).orElse fun _ => composite? a b

/-- Composes what follows a starter. `skipped` are the code points after the
starter that were not composed with it; a later one is blocked if the last
of them is a starter or has at least its class. -/
def composeFrom (starter : Nat) (skipped : List Nat) : List Nat → List Nat
  | [] => starter :: skipped
  | n :: ns =>
    let cls := combiningClass n
    let blocked := match skipped.getLast? with
      | none => false
      | some m => combiningClass m == 0 || cls ≤ combiningClass m
    match if blocked then none else pair? starter n with
    | some c => composeFrom c skipped ns
    | none =>
      if cls == 0 then starter :: skipped ++ composeFrom n [] ns
      else composeFrom starter (skipped ++ [n]) ns

/-- Composes a decomposed and ordered list. Marks before the first starter
stay as they are. -/
def compose : List Nat → List Nat
  | [] => []
  | n :: ns => if combiningClass n == 0 then composeFrom n [] ns else n :: compose ns

/-- The composed normal form. A text of code points below U+0300 is in that
form already. -/
def normalize (s : String) : String :=
  if s.toList.all (fun c => c.toNat < 0x300) then s
  else
    let ns := s.toList.map Char.toNat
    String.ofList ((compose (reorder (decompose ns))).map Char.ofNat)

end SolidityCanvas.Text
