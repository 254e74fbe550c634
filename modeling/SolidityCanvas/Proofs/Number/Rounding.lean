/-
Rounding to a number of bits.

* `rounded_eq`, `ofRatio_eq`: a value within half a unit of the last bit of a
  number is rounded to it;
* `Standard`: the numbers that rounding gives;
* `powerOfFive_eq`: powers of five are exact as long as they fit.
-/
import Mathlib.Algebra.Order.Field.Power
import Mathlib.Data.Nat.Factorization.Basic
import Mathlib.Tactic.FieldSimp
import Mathlib.Tactic.Linarith
import Mathlib.Tactic.NormNum
import Mathlib.Tactic.Positivity
import Mathlib.Tactic.Ring
import SolidityCanvas.Number.Decimal

namespace SolidityCanvas

/-! ### Bits -/

theorem bitLength_pos {n : Nat} (h : n ≠ 0) : 0 < bitLength n := by
  simp [bitLength, h]

theorem lt_two_pow_bitLength (n : Nat) : n < 2 ^ bitLength n := by
  by_cases h : n = 0
  · simp [h, bitLength]
  · simpa [bitLength, h] using Nat.lt_log2_self (n := n)

theorem two_pow_le_of_bitLength {n : Nat} (h : n ≠ 0) : 2 ^ (bitLength n - 1) ≤ n := by
  simpa [bitLength, h] using Nat.log2_self_le h

theorem bitLength_eq {n k : Nat} (hle : 2 ^ k ≤ n) (hlt : n < 2 ^ (k + 1)) :
    bitLength n = k + 1 := by
  have hn : n ≠ 0 := by
    have := Nat.two_pow_pos k
    omega
  have hlog : n.log2 = k := (Nat.log2_eq_iff hn).mpr ⟨hle, hlt⟩
  simp [bitLength, hn, hlog]

theorem bitLength_le {n k : Nat} (h : n < 2 ^ k) : bitLength n ≤ k := by
  by_cases hn : n = 0
  · simp [hn, bitLength]
  · have hlt := (Nat.two_pow_pos 0)
    have hle := two_pow_le_of_bitLength hn
    have hpow := (Nat.pow_lt_pow_iff_right (by norm_num : 1 < 2)).mp (hle.trans_lt h)
    omega

theorem bitLength_mono {m n : Nat} (h : m ≤ n) : bitLength m ≤ bitLength n :=
  bitLength_le (h.trans_lt (lt_two_pow_bitLength n))

theorem bitLength_mul_two_pow {n : Nat} (hn : n ≠ 0) (k : Nat) :
    bitLength (n * 2 ^ k) = bitLength n + k := by
  have hpos := bitLength_pos hn
  have hlow := Nat.mul_le_mul_right (2 ^ k) (two_pow_le_of_bitLength hn)
  have hhigh := Nat.mul_lt_mul_of_pos_right (lt_two_pow_bitLength n) (Nat.two_pow_pos k)
  rw [← pow_add] at hlow hhigh
  rw [show bitLength n + k = bitLength n - 1 + k + 1 by omega] at hhigh ⊢
  exact bitLength_eq hlow hhigh

/-- The lowest one bit and those below it. -/
theorem xor_pred {m : Nat} (hm : m % 2 = 1) (k : Nat) :
    (m * 2 ^ k) ^^^ (m * 2 ^ k - 1) = 2 ^ (k + 1) - 1 := by
  have hm0 : m ≠ 0 := by omega
  induction k with
  | zero =>
    have hhalf : (m ^^^ (m - 1)) / 2 = 0 := by
      have hsame : m / 2 = (m - 1) / 2 := by omega
      rw [Nat.xor_div_two, hsame, Nat.xor_self]
    have hbit : (m ^^^ (m - 1)) % 2 = 1 := by
      rw [Nat.xor_mod_two_eq_one]
      omega
    simp only [pow_zero, mul_one, Nat.reduceAdd, pow_one, Nat.add_one_sub_one]
    omega
  | succ k ih =>
    have hdouble : m * 2 ^ (k + 1) = 2 * (m * 2 ^ k) := by ring
    have hpos : 0 < m * 2 ^ k := by positivity
    have hhalf : ((m * 2 ^ (k + 1)) ^^^ (m * 2 ^ (k + 1) - 1)) / 2 = 2 ^ (k + 1) - 1 := by
      have h₁ : 2 * (m * 2 ^ k) / 2 = m * 2 ^ k := by omega
      have h₂ : (2 * (m * 2 ^ k) - 1) / 2 = m * 2 ^ k - 1 := by omega
      rw [Nat.xor_div_two, hdouble, h₁, h₂, ih]
    have hbit : ((m * 2 ^ (k + 1)) ^^^ (m * 2 ^ (k + 1) - 1)) % 2 = 1 := by
      rw [Nat.xor_mod_two_eq_one, hdouble]
      omega
    have hpow : 2 ^ (k + 1 + 1) = 2 * 2 ^ (k + 1) := by ring
    have hone := Nat.two_pow_pos (k + 1)
    omega

theorem trailingZeros_odd {m : Nat} (hm : m % 2 = 1) (k : Nat) : trailingZeros (m * 2 ^ k) = k := by
  have hpos : m * 2 ^ k ≠ 0 := by
    have : m ≠ 0 := by omega
    positivity
  have hlog : (2 ^ (k + 1) - 1).log2 = k := by
    have hone := Nat.two_pow_pos k
    have hpow : 2 ^ (k + 1) = 2 * 2 ^ k := by ring
    exact (Nat.log2_eq_iff (by omega)).mpr ⟨by omega, by omega⟩
  simp [trailingZeros, hpos, xor_pred hm, hlog]

theorem exists_odd {n : Nat} (h : n ≠ 0) : ∃ m k, m % 2 = 1 ∧ n = m * 2 ^ k := by
  obtain ⟨k, m, hm, rfl⟩ := Nat.exists_eq_two_pow_mul_odd h
  exact ⟨m, k, Nat.odd_iff.mp hm, Nat.mul_comm _ _⟩

namespace Binary

/-- A value with an odd mantissa has one form. -/
theorem normal_odd {m : Nat} (hm : m % 2 = 1) (negative : Bool) (k : Nat) (e : Int)
    (precision : Nat) :
    normal negative (m * 2 ^ k) e precision = ⟨negative, m, e + k, precision⟩ := by
  have hpos : m * 2 ^ k ≠ 0 := by
    have : m ≠ 0 := by omega
    positivity
  simp only [normal, beq_iff_eq, hpos, if_false, trailingZeros_odd hm, Nat.shiftRight_eq_div_pow,
    Nat.mul_div_cancel _ (Nat.two_pow_pos k)]

theorem normal_mul_two_pow {n : Nat} (hn : n ≠ 0) (negative : Bool) (k : Nat) (e : Int)
    (precision : Nat) :
    normal negative (n * 2 ^ k) e precision = normal negative n (e + k) precision := by
  obtain ⟨m, j, hm, rfl⟩ := exists_odd hn
  rw [mul_assoc, ← pow_add, normal_odd hm, normal_odd hm]
  congr 1
  push_cast
  ring

end Binary

/-! ### Rounding -/

/-- What rounding to the nearest, with ties to the even one, is. -/
theorem roundShift_eq {n shift N : Nat} {inexact : Bool} (hshift : 0 < shift)
    (hlow : N * 2 ^ shift < n + 2 ^ (shift - 1) ∨
      N * 2 ^ shift = n + 2 ^ (shift - 1) ∧ (inexact ∨ N % 2 = 0))
    (hhigh : n < N * 2 ^ shift + 2 ^ (shift - 1) ∨
      n = N * 2 ^ shift + 2 ^ (shift - 1) ∧ inexact = false ∧ N % 2 = 0) :
    roundShift n shift inexact = N := by
  obtain ⟨s, rfl⟩ : ∃ s, shift = s + 1 := ⟨shift - 1, by omega⟩
  rw [Nat.add_sub_cancel] at hlow hhigh
  have hpow : 2 ^ (s + 1) = 2 * 2 ^ s := by ring
  have hpos := Nat.two_pow_pos s
  have hunfold : roundShift n (s + 1) inexact =
      if n - n / 2 ^ (s + 1) * 2 ^ (s + 1) > 2 ^ s ∨
        n - n / 2 ^ (s + 1) * 2 ^ (s + 1) = 2 ^ s ∧ (inexact ∨ n / 2 ^ (s + 1) % 2 = 1)
      then n / 2 ^ (s + 1) + 1 else n / 2 ^ (s + 1) := by
    simp [roundShift, Nat.shiftRight_eq_div_pow, Nat.shiftLeft_eq]
  rw [hunfold]
  by_cases hside : n < N * 2 ^ (s + 1)
  · -- from below
    obtain ⟨M, rfl⟩ : ∃ M, N = M + 1 := by
      refine ⟨N - 1, ?_⟩
      have : N ≠ 0 := by
        rintro rfl
        omega
      omega
    have hq : n / 2 ^ (s + 1) = M := by
      refine Nat.div_eq_of_lt_le ?_ hside
      rw [Nat.add_mul] at hlow
      omega
    rw [hq]
    rw [Nat.add_mul] at hlow hside
    rw [if_pos]
    rcases hlow with hlt | ⟨heq, htie⟩
    · exact Or.inl (by omega)
    · exact Or.inr ⟨by omega, htie.imp_right (by omega)⟩
  · -- from above
    have hq : n / 2 ^ (s + 1) = N := by
      refine Nat.div_eq_of_lt_le (by omega) ?_
      rw [Nat.add_mul]
      omega
    rw [hq, if_neg]
    rintro (hgt | ⟨heq, htie⟩)
    · omega
    · rcases hhigh with hlt | ⟨-, hexact, heven⟩
      · omega
      · rcases htie with htie | htie
        · rw [hexact] at htie
          cases htie
        · omega

/-- `N · 2 ^ E` is the number nearest to `x`: of those with the same last
place, and not the first of its length unless `x` is at least as great. -/
structure Nearest (precision N : Nat) (E : Int) (x : ℚ) : Prop where
  low : 2 ^ (precision - 1) ≤ N
  high : N < 2 ^ precision
  near : (N - 1 / 2) * 2 ^ E < x ∧ x < (N + 1 / 2) * 2 ^ E ∨
    N % 2 = 0 ∧ (N - 1 / 2) * 2 ^ E ≤ x ∧ x ≤ (N + 1 / 2) * 2 ^ E
  above : N = 2 ^ (precision - 1) → N * 2 ^ E ≤ x

namespace Nearest

variable {precision N : Nat} {E : Int} {x : ℚ}

theorem le (h : Nearest precision N E x) : (N - 1 / 2) * 2 ^ E ≤ x := by
  rcases h.near with h | h
  · exact h.1.le
  · exact h.2.1

theorem ge (h : Nearest precision N E x) : x ≤ (N + 1 / 2) * 2 ^ E := by
  rcases h.near with h | h
  · exact h.2.le
  · exact h.2.2

/-- The leading bit of the value is that of the number. -/
theorem bounds (h : Nearest precision N E x) (hp : 0 < precision) :
    (2 : ℚ) ^ (precision - 1 + E) ≤ x ∧ x < 2 ^ (precision + E) := by
  have hE : (0 : ℚ) < 2 ^ E := by positivity
  have hlow : (2 : ℚ) ^ (precision - 1 + E) = 2 ^ (precision - 1) * 2 ^ E := by
    rw [zpow_add₀ (by norm_num), ← zpow_natCast, Nat.cast_sub hp]
    norm_num
  have hhigh : (2 : ℚ) ^ (precision + E) = 2 ^ precision * 2 ^ E := by
    rw [zpow_add₀ (by norm_num), zpow_natCast]
  rw [hlow, hhigh]
  constructor
  · rcases h.low.lt_or_eq with hlt | heq
    · have hN : (2 : ℚ) ^ (precision - 1) + 1 ≤ N := by exact_mod_cast hlt
      refine le_trans ?_ h.le
      gcongr
      linarith
    · have habove := h.above heq.symm
      rw [← heq] at habove
      exact_mod_cast habove
  · have hN : (N : ℚ) + 1 ≤ 2 ^ precision := by exact_mod_cast h.high
    refine lt_of_le_of_lt h.ge ?_
    gcongr
    linarith

theorem scale (h : Nearest precision N E x) (k : Nat) :
    Nearest precision N (E + k) (x * 2 ^ k) where
  low := h.low
  high := h.high
  near := by
    have hk : (0 : ℚ) < 2 ^ k := by positivity
    have hnear := h.near
    simpa only [zpow_add₀ (two_ne_zero' ℚ), zpow_natCast, ← mul_assoc, mul_lt_mul_iff_left₀ hk,
      mul_le_mul_iff_left₀ hk] using hnear
  above := by
    intro hN
    have habove := h.above hN
    rw [zpow_add₀ (by norm_num), zpow_natCast, ← mul_assoc]
    gcongr

/-- The value, counted in units that are `s + 1` places further down. -/
theorem near_mul {e : Int} {s : Nat} {y : ℚ}
    (h : Nearest precision N (e + (s + 1 : ℕ)) (y * 2 ^ e)) :
    (N : ℚ) * 2 ^ (s + 1) - 2 ^ s < y ∧ y < N * 2 ^ (s + 1) + 2 ^ s ∨
      N % 2 = 0 ∧ (N : ℚ) * 2 ^ (s + 1) - 2 ^ s ≤ y ∧ y ≤ N * 2 ^ (s + 1) + 2 ^ s := by
  have he : (0 : ℚ) < 2 ^ e := by positivity
  have hlow : ((N : ℚ) - 1 / 2) * 2 ^ (e + (s + 1 : ℕ)) = (N * 2 ^ (s + 1) - 2 ^ s) * 2 ^ e := by
    rw [zpow_add₀ (by norm_num), zpow_natCast]
    ring
  have hhigh : ((N : ℚ) + 1 / 2) * 2 ^ (e + (s + 1 : ℕ)) = (N * 2 ^ (s + 1) + 2 ^ s) * 2 ^ e := by
    rw [zpow_add₀ (by norm_num), zpow_natCast]
    ring
  have hnear := h.near
  simpa only [hlow, hhigh, mul_lt_mul_iff_left₀ he, mul_le_mul_iff_left₀ he] using hnear

end Nearest

namespace Binary

variable {precision N n : Nat} {E e : Int} {x : ℚ} {inexact : Bool}

/-- The bits that are dropped, together with what `inexact` stands for, decide
on which side the value lies. -/
theorem roundShift_of_near {s : Nat} {y : ℚ}
    (hnear : (N : ℚ) * 2 ^ (s + 1) - 2 ^ s < y ∧ y < N * 2 ^ (s + 1) + 2 ^ s ∨
      N % 2 = 0 ∧ (N : ℚ) * 2 ^ (s + 1) - 2 ^ s ≤ y ∧ y ≤ N * 2 ^ (s + 1) + 2 ^ s)
    (hle : n ≤ y) (hlt : y < n + 1) (hexact : inexact = false → y = n)
    (hinexact : inexact = true → n < y) : roundShift n (s + 1) inexact = N := by
  refine roundShift_eq (Nat.succ_pos s) ?_ ?_
  · have hnat : N * 2 ^ (s + 1) ≤ n + 2 ^ s := by
      have hlow : ((N * 2 ^ (s + 1) : ℕ) : ℚ) < (n + 2 ^ s + 1 : ℕ) := by
        push_cast
        rcases hnear with h | h <;> linarith
      exact Nat.lt_succ_iff.mp (by exact_mod_cast hlow)
    refine hnat.lt_or_eq.imp_right fun heq => ⟨heq, ?_⟩
    have hcast : (N : ℚ) * 2 ^ (s + 1) = n + 2 ^ s := by exact_mod_cast heq
    rcases hin : inexact with _ | _
    · rcases hnear with h | h
      · linarith [hexact hin]
      · exact Or.inr h.1
    · exact Or.inl rfl
  · have hnat : n ≤ N * 2 ^ (s + 1) + 2 ^ s := by
      have hhigh : (n : ℚ) ≤ (N * 2 ^ (s + 1) + 2 ^ s : ℕ) := by
        push_cast
        rcases hnear with h | h <;> linarith
      exact_mod_cast hhigh
    refine hnat.lt_or_eq.imp_right fun heq => ⟨heq, ?_⟩
    have hcast : (n : ℚ) = N * 2 ^ (s + 1) + 2 ^ s := by exact_mod_cast heq
    rcases hnear with h | ⟨heven, -, hhigh⟩
    · linarith [h.2]
    · refine ⟨?_, heven⟩
      rcases hin : inexact with _ | _
      · rfl
      · linarith [hinexact hin]

/-- Where the leading bit of a value lies. -/
theorem two_pow_le_of_le (hn : n ≠ 0) (hle : n * 2 ^ e ≤ x) :
    (2 : ℚ) ^ ((bitLength n : ℤ) - 1 + e) ≤ x := by
  have he : (0 : ℚ) < 2 ^ e := by positivity
  have hcast : (2 : ℚ) ^ ((bitLength n : ℤ) - 1) = (2 ^ (bitLength n - 1) : ℕ) := by
    push_cast
    rw [← zpow_natCast, Nat.cast_sub (bitLength_pos hn)]
    norm_num
  refine le_trans ?_ hle
  rw [zpow_add₀ (by norm_num), hcast]
  gcongr
  exact two_pow_le_of_bitLength hn

theorem lt_two_pow_of_lt (hlt : x < (n + 1) * 2 ^ e) : x < (2 : ℚ) ^ ((bitLength n : ℤ) + e) := by
  have he : (0 : ℚ) < 2 ^ e := by positivity
  refine lt_of_lt_of_le hlt ?_
  rw [zpow_add₀ (by norm_num), zpow_natCast]
  gcongr
  exact_mod_cast lt_two_pow_bitLength n

/-- Two powers of two that enclose one value are one place apart. -/
theorem place_eq {a b : ℤ} (ha : (2 : ℚ) ^ (a - 1) ≤ x) (ha' : x < 2 ^ a)
    (hb : (2 : ℚ) ^ (b - 1) ≤ x) (hb' : x < 2 ^ b) : a = b := by
  have hab := (zpow_lt_zpow_iff_right₀ (by norm_num : (1 : ℚ) < 2)).mp (ha.trans_lt hb')
  have hba := (zpow_lt_zpow_iff_right₀ (by norm_num : (1 : ℚ) < 2)).mp (hb.trans_lt ha')
  omega

/-- The leading bit of a value is that of its whole part, and that of the
number nearest to it. -/
theorem leading_eq (h : Nearest precision N E x) (hp : 0 < precision) (hn : n ≠ 0)
    (hle : n * 2 ^ e ≤ x) (hlt : x < (n + 1) * 2 ^ e) : (bitLength n : ℤ) + e = precision + E := by
  obtain ⟨hx, hx'⟩ := h.bounds hp
  refine place_eq ?_ (lt_two_pow_of_lt hlt) ?_ hx'
  · convert two_pow_le_of_le hn hle using 2
    ring
  · convert hx using 2
    ring

/-- **A value is rounded to the nearest number.** -/
theorem rounded_eq (h : Nearest precision N E x) (hp : 0 < precision) (hn : n ≠ 0)
    (hle : n * 2 ^ e ≤ x) (hlt : x < (n + 1) * 2 ^ e)
    (hexact : inexact = false → x = n * 2 ^ e)
    (hinexact : inexact = true → n * 2 ^ e < x ∧ precision < bitLength n) (negative : Bool) :
    rounded negative n e precision inexact = normal negative N E precision := by
  have he : (0 : ℚ) < 2 ^ e := by positivity
  have hplace := leading_eq h hp hn hle hlt
  rcases Nat.lt_or_ge precision (bitLength n) with hlong | hshort
  · -- some bits are dropped
    obtain ⟨s, hs⟩ : ∃ s, bitLength n = precision + (s + 1) := ⟨bitLength n - precision - 1, by omega⟩
    have hE : E = e + (s + 1 : ℕ) := by omega
    obtain ⟨y, rfl⟩ : ∃ y, x = y * 2 ^ e := ⟨x / 2 ^ e, by field_simp⟩
    subst hE
    have hny : (n : ℚ) ≤ y := le_of_mul_le_mul_right hle he
    have hyn : y < n + 1 := lt_of_mul_lt_mul_right hlt he.le
    have hexact' : inexact = false → y = n := fun hin => mul_right_cancel₀ he.ne' (hexact hin)
    have hinexact' : inexact = true → n < y := fun hin =>
      lt_of_mul_lt_mul_right (hinexact hin).1 he.le
    have hround := roundShift_of_near h.near_mul hny hyn hexact' hinexact'
    have hshift : bitLength n - precision = s + 1 := by omega
    simp only [rounded, hshift, hround]
  · -- all bits are kept
    have hin : inexact = false := by
      rcases inexact with _ | _
      · rfl
      · exact absurd (hinexact rfl).2 (by omega)
    obtain ⟨k, hk⟩ : ∃ k, precision = bitLength n + k := ⟨precision - bitLength n, by omega⟩
    obtain rfl : e = E + k := by omega
    have hx : x = (n * 2 ^ k : ℕ) * 2 ^ E := by
      rw [hexact hin, zpow_add₀ (by norm_num), zpow_natCast]
      push_cast
      ring
    have hN : N = n * 2 ^ k := by
      have hE : (0 : ℚ) < 2 ^ E := by positivity
      have hle := h.le
      have hge := h.ge
      rw [hx] at hle hge
      have hlow : (N : ℚ) < (n * 2 ^ k : ℕ) + 1 := by
        linarith [le_of_mul_le_mul_right hle hE]
      have hhigh : ((n * 2 ^ k : ℕ) : ℚ) < N + 1 := by
        linarith [le_of_mul_le_mul_right hge hE]
      have hlow' : N < n * 2 ^ k + 1 := by exact_mod_cast hlow
      have hhigh' : n * 2 ^ k < N + 1 := by exact_mod_cast hhigh
      omega
    have hshift : bitLength n - precision = 0 := by omega
    simp only [rounded, hshift, hN, normal_mul_two_pow hn]
    simp [roundShift]

/-! ### Fractions -/

variable {num den : Nat} {negative : Bool}

/-- A fraction is scaled so that its whole part has more bits than will be
kept. -/
theorem ofRatio_scaled (hnum : num ≠ 0) (hden : den ≠ 0) (negative : Bool) (precision : Nat) :
    ∃ (a b : Nat) (shift : Int), b ≠ 0 ∧ (a / b : ℚ) = num / den * 2 ^ shift ∧
      2 ^ (precision + 1) * b ≤ a ∧
      ofRatio negative num den precision =
        rounded negative (a / b) (-shift) precision (a % b != 0) := by
  set shift : Int := (precision : Int) + 2 + bitLength den - bitLength num with hshift
  -- in either case the denominator has the bits that the numerator needs
  have hnumle := two_pow_le_of_bitLength hnum
  have hdenlt := lt_two_pow_bitLength den
  have hpos := bitLength_pos hnum
  rcases le_or_gt 0 shift with hge | hlt
  · refine ⟨num * 2 ^ shift.toNat, den, shift, hden, ?_, ?_, ?_⟩
    · obtain ⟨s, hs⟩ := Int.eq_ofNat_of_zero_le hge
      rw [hs]
      simp
      ring
    · calc 2 ^ (precision + 1) * den
          ≤ 2 ^ (precision + 1) * 2 ^ bitLength den := by gcongr
        _ = 2 ^ (bitLength num - 1) * 2 ^ shift.toNat := by
            rw [← pow_add, ← pow_add]
            congr 1
            omega
        _ ≤ num * 2 ^ shift.toNat := by gcongr
    · simp only [ofRatio, beq_iff_eq, hnum, if_false, ← hshift, ge_iff_le, hge, if_true,
        Nat.shiftLeft_eq]
  · refine ⟨num, den * 2 ^ (-shift).toNat, shift, by positivity, ?_, ?_, ?_⟩
    · obtain ⟨s, hs⟩ := Int.eq_ofNat_of_zero_le (by omega : 0 ≤ -shift)
      rw [hs, show shift = -(s : ℤ) by omega]
      simp
      field_simp
    · calc 2 ^ (precision + 1) * (den * 2 ^ (-shift).toNat)
          ≤ 2 ^ (precision + 1) * (2 ^ bitLength den * 2 ^ (-shift).toNat) := by gcongr
        _ = 2 ^ (bitLength num - 1) := by
            rw [← pow_add, ← pow_add]
            congr 1
            omega
        _ ≤ num := hnumle
    · simp only [ofRatio, beq_iff_eq, hnum, if_false, ← hshift, ge_iff_le, hlt.not_ge,
        Nat.shiftLeft_eq]

/-- **A fraction is rounded to the nearest number.** -/
theorem ofRatio_eq (h : Nearest precision N E (num / den)) (hp : 0 < precision) (hnum : num ≠ 0)
    (hden : den ≠ 0) (negative : Bool) :
    ofRatio negative num den precision = normal negative N E precision := by
  obtain ⟨a, b, shift, hb, hvalue, hbits, heq⟩ := ofRatio_scaled hnum hden negative precision
  have hb' : (0 : ℚ) < b := by positivity
  have hx : (num / den : ℚ) = a / b * 2 ^ (-shift) := by
    rw [hvalue, mul_assoc, ← zpow_add₀ (by norm_num)]
    simp
  have hq : 2 ^ (precision + 1) ≤ a / b := (Nat.le_div_iff_mul_le (Nat.pos_of_ne_zero hb)).mpr hbits
  have hbitLength : precision < bitLength (a / b) := by
    have := (Nat.pow_lt_pow_iff_right (by norm_num)).mp (hq.trans_lt (lt_two_pow_bitLength _))
    omega
  have hscale : (0 : ℚ) < 2 ^ (-shift) := by positivity
  have hsplit : (a / b : ℚ) = (a / b : ℕ) + (a % b : ℕ) / b := by
    rw [div_eq_iff hb'.ne', add_mul, div_mul_cancel₀ _ hb'.ne']
    exact_mod_cast (Nat.div_add_mod' a b).symm
  have hrest : ((a % b : ℕ) / b : ℚ) < 1 := by
    rw [div_lt_one hb']
    exact_mod_cast Nat.mod_lt a (Nat.pos_of_ne_zero hb)
  rw [heq]
  rw [hx, hsplit] at h
  refine rounded_eq h hp (by have := Nat.two_pow_pos (precision + 1); omega) ?_ ?_ ?_ ?_ negative
  · gcongr
    exact le_add_of_nonneg_right (by positivity)
  · gcongr
  · intro hdvd
    have : a % b = 0 := by simpa using hdvd
    simp [this]
  · intro hrest
    have : 0 < a % b := Nat.pos_of_ne_zero (by simpa using hrest)
    refine ⟨?_, hbitLength⟩
    gcongr
    exact lt_add_of_pos_right _ (by positivity)

/-- **There is one number nearest to a value.** -/
theorem nearest_unique {M : Nat} {F : Int} (h : Nearest precision N E x)
    (h' : Nearest precision M F x) (hp : 0 < precision) (negative : Bool) :
    normal negative N E precision = normal negative M F precision := by
  have hpos : 0 < x := lt_of_lt_of_le (by positivity) (h.bounds hp).1
  have hx : x = (x.num.natAbs : ℚ) / (x.den : ℚ) := by
    have hnum : ((x.num.natAbs : ℤ) : ℚ) = x.num := by
      rw [Int.natAbs_of_nonneg (Rat.num_pos.mpr hpos).le]
    rw [← Int.cast_natCast, hnum, Rat.num_div_den]
  rw [hx] at h h'
  have hnum : x.num.natAbs ≠ 0 := by
    have := Rat.num_pos.mpr hpos
    omega
  rw [← ofRatio_eq h hp hnum x.den_ne_zero, ← ofRatio_eq h' hp hnum x.den_ne_zero]

/-! ### What rounding gives -/

/-- The number is in its one form: the mantissa is odd and fits the
precision, unless the number is zero. -/
structure Standard (b : Binary) : Prop where
  odd : b.mantissa ≠ 0 → b.mantissa % 2 = 1
  fits : bitLength b.mantissa ≤ b.precision
  zero : b.mantissa = 0 → b.exponent = 0

theorem standard_zero (negative : Bool) (precision : Nat) : (zero negative precision).Standard :=
  ⟨fun h => absurd rfl h, by simp [zero, bitLength], fun _ => rfl⟩

theorem standard_normal {n precision : Nat} (h : n ≤ 2 ^ precision) (hp : 0 < precision)
    (negative : Bool) (e : Int) : (normal negative n e precision).Standard := by
  by_cases hn : n = 0
  · simpa [normal, hn] using standard_zero negative precision
  obtain ⟨m, k, hm, rfl⟩ := exists_odd hn
  rw [normal_odd hm]
  refine ⟨fun _ => hm, bitLength_le ?_, fun h => by simp only at h; omega⟩
  -- an odd number is no power of two but the first
  have hle : m ≤ 2 ^ precision := le_trans (Nat.le_mul_of_pos_right m (Nat.two_pow_pos k)) h
  refine lt_of_le_of_ne hle fun (heq : m = 2 ^ precision) => ?_
  rw [heq] at hm
  obtain ⟨q, rfl⟩ : ∃ q, precision = q + 1 := ⟨precision - 1, by omega⟩
  rw [show 2 ^ (q + 1) = 2 * 2 ^ q by ring] at hm
  omega

theorem roundShift_le {n precision : Nat} (inexact : Bool) :
    roundShift n (bitLength n - precision) inexact ≤ 2 ^ precision := by
  have hlt := lt_two_pow_bitLength n
  rw [roundShift]
  by_cases h : bitLength n - precision = 0
  · have hpow : 2 ^ bitLength n ≤ 2 ^ precision := Nat.pow_le_pow_right (by norm_num) (by omega)
    simp only [h, beq_self_eq_true, if_true]
    omega
  · have hq : n / 2 ^ (bitLength n - precision) < 2 ^ precision := by
      rw [Nat.div_lt_iff_lt_mul (Nat.two_pow_pos _), ← pow_add]
      convert hlt using 2
      omega
    simp only [beq_iff_eq, h, if_false, Nat.shiftRight_eq_div_pow]
    split <;> omega

theorem standard_rounded (negative : Bool) (n : Nat) (e : Int) {precision : Nat}
    (hp : 0 < precision) (inexact : Bool) : (rounded negative n e precision inexact).Standard :=
  standard_normal (roundShift_le inexact) hp negative _

theorem standard_ofRatio (negative : Bool) (num den : Nat) {precision : Nat} (hp : 0 < precision) :
    (ofRatio negative num den precision).Standard := by
  rw [ofRatio]
  split
  · exact standard_zero negative precision
  · exact standard_rounded negative _ _ hp _

theorem mantissa_normal_ne_zero (hn : n ≠ 0) (negative : Bool) (e : Int) (precision : Nat) :
    (normal negative n e precision).mantissa ≠ 0 := by
  obtain ⟨m, k, hm, rfl⟩ := exists_odd hn
  rw [normal_odd hm]
  simp only
  omega

theorem mantissa_rounded_ne_zero (hn : n ≠ 0) (negative : Bool) (e : Int) (hp : 0 < precision)
    (inexact : Bool) : (rounded negative n e precision inexact).mantissa ≠ 0 := by
  refine mantissa_normal_ne_zero ?_ negative _ precision
  rw [roundShift]
  by_cases h : bitLength n - precision = 0
  · simpa [h] using hn
  · have hle : 2 ^ (bitLength n - precision) ≤ n :=
      (Nat.pow_le_pow_right (by norm_num) (by omega)).trans (two_pow_le_of_bitLength hn)
    have hq : 0 < n / 2 ^ (bitLength n - precision) := Nat.div_pos hle (Nat.two_pow_pos _)
    simp only [beq_iff_eq, h, if_false, Nat.shiftRight_eq_div_pow]
    split <;> omega

theorem mantissa_ofRatio_ne_zero (hnum : num ≠ 0) (hden : den ≠ 0) (negative : Bool)
    (hp : 0 < precision) : (ofRatio negative num den precision).mantissa ≠ 0 := by
  obtain ⟨a, b, shift, hb, -, hbits, heq⟩ := ofRatio_scaled hnum hden negative precision
  have hq : 2 ^ (precision + 1) ≤ a / b := (Nat.le_div_iff_mul_le (Nat.pos_of_ne_zero hb)).mpr hbits
  have hpos := Nat.two_pow_pos (precision + 1)
  rw [heq]
  exact mantissa_rounded_ne_zero (by omega) negative _ hp _

theorem precision_normal (negative : Bool) (n : Nat) (e : Int) (precision : Nat) :
    (normal negative n e precision).precision = precision := by
  rw [normal]
  split <;> rfl

theorem precision_rounded (negative : Bool) (n : Nat) (e : Int) (precision : Nat) (inexact : Bool) :
    (rounded negative n e precision inexact).precision = precision :=
  precision_normal negative _ _ precision

theorem precision_ofRatio (negative : Bool) (num den precision : Nat) :
    (ofRatio negative num den precision).precision = precision := by
  rw [ofRatio]
  split
  · rfl
  · exact precision_rounded negative _ _ precision _

/-! ### Powers of five -/

theorem rounded_of_odd {m : Nat} (hm : m % 2 = 1) (hfits : bitLength m ≤ precision)
    (negative : Bool) (e : Int) : rounded negative m e precision false =
      ⟨negative, m, e, precision⟩ := by
  have hnormal := normal_odd hm negative 0 e precision
  rw [pow_zero, mul_one] at hnormal
  have hshift : bitLength m - precision = 0 := by omega
  simp only [rounded, hshift, roundShift, beq_self_eq_true, if_true]
  simpa using hnormal

theorem mulRounded_of_odd {m k : Nat} (hm : m % 2 = 1) (hk : k % 2 = 1) {p q : Nat}
    (hfits : bitLength (m * k) ≤ p) :
    mulRounded ⟨false, m, 0, p⟩ ⟨false, k, 0, q⟩ = ⟨false, m * k, 0, p⟩ :=
  rounded_of_odd (by rw [Nat.mul_mod, hm, hk]) hfits false 0

theorem mulPower_zero (factor product : Binary) (steps : Nat) :
    mulPower factor product steps 0 = product := by
  cases steps <;> rfl

theorem mantissa_mulPower_ne_zero : ∀ (steps k : Nat) {factor product : Binary},
    factor.mantissa ≠ 0 → 0 < factor.precision → product.mantissa ≠ 0 → 0 < product.precision →
    (mulPower factor product steps k).mantissa ≠ 0
  | 0, _, _, _, _, _, hproduct, _ => hproduct
  | steps + 1, k, factor, product, hfactor, hfp, hproduct, hpp => by
    have hmul {a b : Binary} (ha : a.mantissa ≠ 0) (hap : 0 < a.precision) (hb : b.mantissa ≠ 0) :
        (a.mulRounded b).mantissa ≠ 0 ∧ 0 < (a.mulRounded b).precision :=
      ⟨mantissa_rounded_ne_zero (by positivity) _ _ hap _,
        hap.trans_eq (precision_rounded _ _ _ _ _).symm⟩
    have hsquare := hmul hfactor hfp hfactor
    rw [mulPower]
    split
    · exact hproduct
    · refine mantissa_mulPower_ne_zero steps _ hsquare.1 hsquare.2 ?_ ?_
      · split
        · exact (hmul hproduct hpp hfactor).1
        · exact hproduct
      · split
        · exact (hmul hproduct hpp hfactor).2
        · exact hpp

/-- Squaring and multiplying is exact as long as the product fits. -/
theorem mulPower_of_odd {p q : Nat} (hpq : p ≤ q) : ∀ (steps : Nat) {f m k : Nat}, f % 2 = 1 →
    m % 2 = 1 → k < 2 ^ steps → bitLength (f ^ k * m) ≤ p →
    mulPower ⟨false, f, 0, q⟩ ⟨false, m, 0, p⟩ steps k = ⟨false, f ^ k * m, 0, p⟩
  | 0, f, m, k, _, _, hk, _ => by
    obtain rfl : k = 0 := by omega
    simp [mulPower]
  | steps + 1, f, m, k, hf, hm, hk, hfits => by
    by_cases hzero : k = 0
    · simp [hzero, mulPower]
    have hfpos : 0 < f := by omega
    have hmpos : 0 < m := by omega
    -- what is multiplied in now
    have hproduct : (if k % 2 == 1 then mulRounded ⟨false, m, 0, p⟩ ⟨false, f, 0, q⟩
        else ⟨false, m, 0, p⟩) = (⟨false, f ^ (k % 2) * m, 0, p⟩ : Binary) := by
      rcases Nat.mod_two_eq_zero_or_one k with heven | hodd
      · simp [heven]
      · have hle : m * f ≤ f ^ k * m := by
          rw [mul_comm]
          gcongr
          exact Nat.le_self_pow hzero f
        rw [hodd, if_pos (by rfl), mulRounded_of_odd hm hf ((bitLength_mono hle).trans hfits)]
        simp [mul_comm]
    rw [mulPower, if_neg (by simpa using hzero)]
    simp only [hproduct]
    have hsplit : f ^ k * m = (f * f) ^ (k / 2) * (f ^ (k % 2) * m) := by
      rw [← mul_assoc, ← pow_two, ← pow_mul, ← pow_add, Nat.div_add_mod]
    rcases Nat.eq_zero_or_pos (k / 2) with hlast | hmore
    · -- the factor is squared once more, but not used
      rw [hlast, mulPower_zero, hsplit, hlast]
      simp
    · have hle : f * f ≤ f ^ k * m := by
        calc f * f = f ^ 2 := (pow_two f).symm
          _ ≤ f ^ k := Nat.pow_le_pow_right hfpos (by omega)
          _ ≤ f ^ k * m := Nat.le_mul_of_pos_right _ hmpos
      have hsquare := mulRounded_of_odd hf hf (q := q)
        (((bitLength_mono hle).trans hfits).trans hpq)
      rw [hsquare, hsplit]
      refine mulPower_of_odd hpq steps (by rw [Nat.mul_mod, hf]) ?_ (by omega) ?_
      · simp [Nat.mul_mod, Nat.pow_mod, hf, hm]
      · rwa [← hsplit]

end Binary

theorem mantissa_powerOfFive_ne_zero (n : Nat) {precision : Nat} (hp : 0 < precision) :
    (powerOfFive n precision).mantissa ≠ 0 := by
  have hpow (k : Nat) : Nat.pow 5 k ≠ 0 := pow_ne_zero k (by norm_num)
  rw [powerOfFive]
  split
  · exact Binary.mantissa_normal_ne_zero (hpow n) _ _ _
  · refine Binary.mantissa_mulPower_ne_zero _ _ (Binary.mantissa_normal_ne_zero (by norm_num) _ _ _)
      ?_ (Binary.mantissa_normal_ne_zero (hpow 27) _ _ _) ?_
    · rw [Binary.precision_normal]
      omega
    · rw [Binary.precision_normal]
      exact hp

/-- **A power of five is exact as long as it fits the precision.** -/
theorem powerOfFive_eq {n precision : Nat} (h : bitLength (5 ^ n) ≤ precision)
    (hn : n < 2 ^ 64) : powerOfFive n precision = ⟨false, 5 ^ n, 0, precision⟩ := by
  have hodd (k : Nat) : 5 ^ k % 2 = 1 := by rw [Nat.pow_mod]; simp
  have hnormal {m : Nat} (hm : m % 2 = 1) (p : Nat) : Binary.normal false m 0 p = ⟨false, m, 0, p⟩ := by
    simpa using Binary.normal_odd hm false 0 0 p
  rw [powerOfFive]
  split
  · exact hnormal (hodd n) precision
  · rename_i hlarge
    have hpow : 5 ^ (n - 27) * 5 ^ 27 = 5 ^ n := by
      rw [← pow_add]
      congr 1
      omega
    rw [hnormal (by norm_num), show Nat.pow 5 27 = 5 ^ 27 from rfl, hnormal (hodd 27),
      Binary.mulPower_of_odd (by omega) 64 (by norm_num) (hodd 27) (by omega) (by rwa [hpow]), hpow]

end SolidityCanvas
