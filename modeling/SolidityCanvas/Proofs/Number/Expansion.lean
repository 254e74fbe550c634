/-
The values of decimal expansions.

* `value`: the number that an expansion stands for;
* `head`: its first digits as a whole number, which bound the value from both
  sides (`head_le_value`, `value_lt_head_succ`);
* `value_ofBinary`: the expansion of a binary fraction stands for it;
* `value_roundDown`, `value_roundUp`: cutting off leads to a neighbour on a
  coarser grid.
-/
import Mathlib.Algebra.Order.Field.Power
import Mathlib.Tactic.FieldSimp
import Mathlib.Tactic.Linarith
import Mathlib.Tactic.Positivity
import Mathlib.Tactic.Ring
import SolidityCanvas.Proofs.Number.Digits

namespace SolidityCanvas.Decimal

/-! ### Digits as whole numbers -/

/-- The whole number that digits stand for. -/
def valueOf (ds : List Nat) : Nat := ds.foldl (fun n x => n * 10 + x) 0

theorem foldl_digits (ds : List Nat) (n : Nat) :
    ds.foldl (fun n x => n * 10 + x) n = n * 10 ^ ds.length + valueOf ds := by
  induction ds generalizing n with
  | nil => simp [valueOf]
  | cons x ds ih =>
    have hcons : valueOf (x :: ds) = x * 10 ^ ds.length + valueOf ds := by
      rw [valueOf, List.foldl_cons, ih]
      ring
    rw [List.foldl_cons, ih, hcons, List.length_cons]
    ring

theorem valueOf_append (ds es : List Nat) :
    valueOf (ds ++ es) = valueOf ds * 10 ^ es.length + valueOf es := by
  rw [valueOf, List.foldl_append, foldl_digits]
  rfl

theorem valueOf_singleton (x : Nat) : valueOf [x] = x := by simp [valueOf]

theorem valueOf_replicate_zero (n : Nat) : valueOf (List.replicate n 0) = 0 := by
  induction n with
  | zero => rfl
  | succ n ih => rw [List.replicate_succ', valueOf_append, ih, valueOf_singleton]; rfl

theorem valueOf_lt {ds : List Nat} (h : ∀ x ∈ ds, x < 10) : valueOf ds < 10 ^ ds.length := by
  induction ds using List.reverseRecOn with
  | nil => simp [valueOf]
  | append_singleton ds x ih =>
    have hx : x < 10 := h x (by simp)
    have hds := ih fun y hy => h y (by simp [hy])
    rw [valueOf_append, valueOf_singleton, List.length_append, List.length_singleton, pow_succ]
    omega

theorem valueOf_eq_decimalValue (cs : List Char) :
    valueOf (cs.map fun c => c.toNat - '0'.toNat) = decimalValue cs := by
  rw [valueOf, decimalValue, List.foldl_map]

theorem valueOf_digitsOf (n : Nat) : valueOf (digitsOf n) = n := by
  have h := Nat.ofDigitChars_ten_toDigits (n := n)
  rw [Nat.ofDigitChars_eq_foldl] at h
  rw [digitsOf, valueOf_eq_decimalValue, decimalValue]
  simpa [mul_comm] using h

theorem decimalValue_toDigits (n : Nat) : decimalValue (Nat.toDigits 10 n) = n := by
  rw [← valueOf_eq_decimalValue]
  exact valueOf_digitsOf n

theorem length_dropZeros_le (ds : List Nat) : (dropZeros ds).length ≤ ds.length := by
  have h := (List.dropWhile_sublist (l := ds.reverse) (· == 0)).length_le
  simpa [dropZeros] using h

/-- Zeros at the end go, the value of the rest is scaled. -/
theorem valueOf_dropZeros (ds : List Nat) :
    valueOf ds = valueOf (dropZeros ds) * 10 ^ (ds.length - (dropZeros ds).length) := by
  induction ds using List.reverseRecOn with
  | nil => rfl
  | append_singleton ds x ih =>
    by_cases hx : x = 0
    · have hdrop : dropZeros (ds ++ [x]) = dropZeros ds := by simp [dropZeros, hx]
      have hlen : (ds ++ [x]).length - (dropZeros ds).length =
          ds.length - (dropZeros ds).length + 1 := by
        have := length_dropZeros_le ds
        rw [List.length_append, List.length_singleton]
        omega
      rw [hdrop, hlen, valueOf_append, ih, valueOf_singleton, hx, List.length_singleton, pow_succ]
      ring
    · have hdrop : dropZeros (ds ++ [x]) = ds ++ [x] := by simp [dropZeros, hx]
      rw [hdrop, Nat.sub_self, pow_zero, mul_one]

/-! ### Values -/

/-- The number that an expansion stands for. -/
def value (d : Decimal) : ℚ := valueOf d.digits * 10 ^ (d.point - d.digits.length)

theorem value_dropZeros (ds : List Nat) (point : Int) :
    value ⟨dropZeros ds, point⟩ = value ⟨ds, point⟩ := by
  have hlen := length_dropZeros_le ds
  have hpow : (10 : ℚ) ^ (point - (dropZeros ds).length) =
      10 ^ (ds.length - (dropZeros ds).length) * 10 ^ (point - ds.length) := by
    rw [← zpow_natCast, ← zpow_add₀ (by norm_num)]
    congr 1
    omega
  rw [value, value, valueOf_dropZeros ds, hpow]
  push_cast
  ring

/-- The expansion of a binary fraction stands for it. -/
theorem value_ofBinary (n : Nat) (e : Int) : value (ofBinary n e) = n * 2 ^ e := by
  rw [ofBinary]
  split
  · rename_i hn
    have hn : n = 0 := by simpa using hn
    simp [value, valueOf, hn]
  split
  · rename_i he
    rw [value_dropZeros, value, valueOf_digitsOf, sub_self, zpow_zero, mul_one, Nat.shiftLeft_eq]
    obtain ⟨k, rfl⟩ := Int.eq_ofNat_of_zero_le he
    simp
  · rename_i he
    obtain ⟨k, rfl⟩ : ∃ k : ℕ, e = -k := ⟨(-e).toNat, by omega⟩
    have hten : (10 : ℚ) ^ k = 2 ^ k * 5 ^ k := by rw [← mul_pow]; norm_num
    have hpow : n * Nat.pow 5 k = n * 5 ^ k := rfl
    simp only [neg_neg, Int.toNat_natCast, hpow]
    rw [value_dropZeros, value, valueOf_digitsOf, sub_sub_cancel_left, zpow_neg, zpow_neg,
      zpow_natCast, zpow_natCast, hten]
    push_cast
    field_simp

/-! ### The first digits -/

/-- The first `n` digits as a whole number, filled up with zeros. -/
def head (d : Decimal) : Nat → Nat
  | 0 => 0
  | n + 1 => d.head n * 10 + d.digit n

variable {d : Decimal}

theorem head_of_le {n : Nat} (h : n ≤ d.digits.length) : d.head n = valueOf (d.digits.take n) := by
  induction n with
  | zero => rfl
  | succ n ih =>
    have hlt : n < d.digits.length := h
    rw [head, ih (by omega), List.take_succ_eq_append_getElem hlt, valueOf_append,
      valueOf_singleton, List.length_singleton, pow_one, digit, List.getD_eq_getElem?_getD,
      List.getElem?_eq_getElem hlt, Option.getD_some]

theorem head_length_add (k : Nat) :
    d.head (d.digits.length + k) = valueOf d.digits * 10 ^ k := by
  induction k with
  | zero => rw [Nat.add_zero, head_of_le le_rfl, List.take_length, pow_zero, mul_one]
  | succ k ih =>
    have hzero : d.digit (d.digits.length + k) = 0 := by
      rw [digit, List.getD_eq_getElem?_getD, List.getElem?_eq_none (by omega), Option.getD_none]
    rw [← Nat.add_assoc, head, ih, hzero, pow_succ]
    ring

theorem value_eq_head {n : Nat} (h : d.digits.length ≤ n) :
    d.value = d.head n * 10 ^ (d.point - n) := by
  obtain ⟨k, rfl⟩ := Nat.exists_eq_add_of_le h
  have hpow : (10 : ℚ) ^ (d.point - d.digits.length) =
      10 ^ k * 10 ^ (d.point - (d.digits.length + k : ℕ)) := by
    rw [← zpow_natCast, ← zpow_add₀ (by norm_num)]
    congr 1
    push_cast
    ring
  rw [head_length_add, value, hpow]
  push_cast
  ring

/-- One place further, the unit is a tenth. -/
theorem unit_succ (d : Decimal) (n : Nat) :
    (10 : ℚ) ^ (d.point - n) = 10 * 10 ^ (d.point - (n + 1 : ℕ)) := by
  rw [← zpow_one_add₀ (by norm_num)]
  congr 1
  push_cast
  ring

theorem unit_pos (k : ℤ) : (0 : ℚ) < 10 ^ k := by positivity

theorem head_mono (d : Decimal) : Monotone fun n : ℕ => (d.head n : ℚ) * 10 ^ (d.point - n) := by
  refine monotone_nat_of_le_succ fun n => ?_
  have hu := unit_pos (d.point - (n + 1 : ℕ))
  have hdigit : (0 : ℚ) ≤ d.digit n := by positivity
  rw [unit_succ, head]
  push_cast at hu ⊢
  nlinarith

theorem head_succ_anti (h : d.Proper) :
    Antitone fun n : ℕ => ((d.head n : ℚ) + 1) * 10 ^ (d.point - n) := by
  refine antitone_nat_of_succ_le fun n => ?_
  have hu := unit_pos (d.point - (n + 1 : ℕ))
  have hdigit : (d.digit n : ℚ) + 1 ≤ 10 := by exact_mod_cast h.digit_lt n
  have hunit := unit_succ d n
  simp only [head]
  push_cast at hu hunit ⊢
  rw [hunit]
  nlinarith

/-- The first digits are not above the value. -/
theorem head_le_value (d : Decimal) (n : Nat) : d.head n * 10 ^ (d.point - n) ≤ d.value := by
  rw [value_eq_head (Nat.le_max_right n _)]
  exact d.head_mono (Nat.le_max_left n _)

/-- One more in their last place is above it. -/
theorem value_lt_head_succ (h : d.Proper) (n : Nat) :
    d.value < (d.head n + 1) * 10 ^ (d.point - n) := by
  rw [value_eq_head (Nat.le_max_right n _)]
  refine lt_of_lt_of_le ?_ (head_succ_anti h (Nat.le_max_left n d.digits.length))
  have hu := unit_pos (d.point - (max n d.digits.length : ℕ))
  simp only
  nlinarith

theorem head_lt (h : d.Proper) (n : Nat) : d.head n + 1 ≤ 10 ^ n := by
  induction n with
  | zero => rfl
  | succ n ih =>
    have hdigit := h.digit_lt n
    rw [head, pow_succ]
    omega

theorem value_lt_unit (h : d.Proper) : d.value < 10 ^ d.point := by
  have hlt := value_lt_head_succ h 0
  simpa [head] using hlt

/-! ### Expansions without superfluous zeros -/

/-- There are digits, the first and the last of them not zero. -/
structure Tidy (d : Decimal) : Prop where
  proper : d.Proper
  nonempty : d.digits ≠ []
  led : d.digit 0 ≠ 0
  ended : d.digit (d.digits.length - 1) ≠ 0

theorem Tidy.pow_le_head (h : d.Tidy) (n : Nat) : 10 ^ n ≤ d.head (n + 1) := by
  induction n with
  | zero =>
    have hled := h.led
    rw [head, head]
    omega
  | succ n ih =>
    rw [head, pow_succ]
    omega

/-- The value lies between two powers of ten. -/
theorem Tidy.unit_le_value (h : d.Tidy) : 10 ^ (d.point - 1) ≤ d.value := by
  have hle := d.head_le_value 1
  have hone : (1 : ℚ) ≤ d.head 1 := by exact_mod_cast h.pow_le_head 0
  have hu := unit_pos (d.point - 1)
  push_cast at hle
  nlinarith

theorem Tidy.value_pos (h : d.Tidy) : 0 < d.value := (unit_pos _).trans_le h.unit_le_value

/-- Where digits are left, the first ones are below the value. -/
theorem Tidy.head_lt_value (h : d.Tidy) {n : Nat} (hn : n < d.digits.length) :
    d.head n * 10 ^ (d.point - n) < d.value := by
  obtain ⟨k, hk⟩ : ∃ k, d.digits.length = k + 1 := ⟨d.digits.length - 1, by omega⟩
  have hended : (0 : ℚ) < d.digit k := by
    have hlast := h.ended
    rw [hk, Nat.add_sub_cancel] at hlast
    exact_mod_cast Nat.pos_of_ne_zero hlast
  have hle := d.head_mono (show n ≤ k by omega)
  refine lt_of_le_of_lt hle ?_
  have hu := unit_pos (d.point - (k + 1 : ℕ))
  simp only
  rw [value_eq_head hk.le, unit_succ, head]
  push_cast at hu ⊢
  nlinarith

theorem dropZeros_concat_zero (ds : List Nat) : dropZeros (ds ++ [0]) = dropZeros ds := by
  simp [dropZeros]

theorem dropZeros_concat {x : Nat} (hx : x ≠ 0) (ds : List Nat) :
    dropZeros (ds ++ [x]) = ds ++ [x] := by
  simp [dropZeros, hx]

/-- Dropping zeros at the end leaves the first digit and a last one that is
not zero. -/
theorem tidy_dropZeros {ds : List Nat} (hproper : ∀ x ∈ ds, x < 10) (hled : ds.getD 0 0 ≠ 0)
    (point : Int) : (⟨dropZeros ds, point⟩ : Decimal).Tidy := by
  induction ds using List.reverseRecOn with
  | nil => simp at hled
  | append_singleton ds x ih =>
    by_cases hx : x = 0
    · subst hx
      rw [dropZeros_concat_zero]
      refine ih (fun y hy => hproper y (by simp [hy])) ?_
      cases ds with
      | nil => simp at hled
      | cons y ds => simpa using hled
    · rw [dropZeros_concat hx]
      refine ⟨hproper, by simp, hled, ?_⟩
      simpa [digit] using hx

theorem led_digitsOf {n : Nat} (h : n ≠ 0) : (digitsOf n).getD 0 0 ≠ 0 := by
  induction n using Nat.strong_induction_on with
  | h n ih =>
    rw [digitsOf, Nat.toDigits_eq_if (by norm_num)]
    split
    · rename_i hlt
      simpa [Nat.toNat_digitChar_sub_48_of_lt_ten hlt] using h
    · have hrec := ih (n / 10) (by omega) (by omega)
      have hne : (Nat.toDigits 10 (n / 10)) ≠ [] := Nat.toDigits_ne_nil
      obtain ⟨c, cs, hcs⟩ := List.exists_cons_of_ne_nil hne
      rw [digitsOf, hcs] at hrec
      rw [hcs]
      simpa using hrec

theorem tidy_ofBinary {n : Nat} (hn : n ≠ 0) (e : Int) : (ofBinary n e).Tidy := by
  rw [ofBinary, if_neg (by simpa using hn)]
  split
  · exact tidy_dropZeros (fun x => lt_of_mem_digitsOf) (led_digitsOf (by simp [Nat.shiftLeft_eq, hn])) _
  · refine tidy_dropZeros (fun x => lt_of_mem_digitsOf) (led_digitsOf ?_) _
    simp [hn]

/-! ### Cutting off -/

theorem value_take {n : Nat} (h : n ≤ d.digits.length) :
    value ⟨d.digits.take n, d.point⟩ = d.head n * 10 ^ (d.point - n) := by
  rw [value, head_of_le h, List.length_take, Nat.min_eq_left h]

theorem value_roundDown {n : Nat} (h : n ≤ d.digits.length) :
    (d.roundDown n).value = d.head n * 10 ^ (d.point - n) := by
  rw [roundDown, value_dropZeros, value_take h]

/-- One more in the last place, nines carried over. -/
theorem valueOf_succ (ds : List Nat) : valueOf ds + 1 =
    match ds.reverse.dropWhile (· == 9) with
    | [] => 10 ^ ds.length
    | last :: rest =>
      valueOf ((last + 1) :: rest).reverse * 10 ^ (ds.length - (rest.length + 1)) := by
  induction ds using List.reverseRecOn with
  | nil => simp [valueOf]
  | append_singleton ds x ih =>
    by_cases hx : x = 9
    · have hdrop : (ds ++ [x]).reverse.dropWhile (· == 9) = ds.reverse.dropWhile (· == 9) := by
        simp [hx]
      have hlen : (ds.reverse.dropWhile (· == 9)).length ≤ ds.length := by
        simpa using (List.dropWhile_sublist (l := ds.reverse) (· == 9)).length_le
      rw [hdrop, valueOf_append, valueOf_singleton, hx]
      cases hrest : ds.reverse.dropWhile (· == 9) with
      | nil =>
        rw [hrest] at ih
        simp only [List.length_append, List.length_singleton] at ih ⊢
        rw [pow_succ]
        omega
      | cons last rest =>
        rw [hrest, List.length_cons] at hlen
        rw [hrest] at ih
        have hexp : (ds ++ [9]).length - (rest.length + 1) = ds.length - (rest.length + 1) + 1 := by
          rw [List.length_append, List.length_singleton]
          omega
        simp only at ih ⊢
        rw [hexp, pow_succ, ← mul_assoc, ← ih, List.length_singleton]
        ring
    · have hdrop : (ds ++ [x]).reverse.dropWhile (· == 9) = x :: ds.reverse := by
        simp [hx]
      rw [hdrop]
      simp [valueOf_append, valueOf_singleton]
      ring

theorem value_roundUp {n : Nat} (h : n ≤ d.digits.length) :
    (d.roundUp n).value = (d.head n + 1) * 10 ^ (d.point - n) := by
  have hsucc := valueOf_succ (d.digits.take n)
  have hlen : (d.digits.take n).length = n := by simp [h]
  have hhead : ((d.head n : ℚ) + 1) = (valueOf (d.digits.take n) + 1 : ℕ) := by
    rw [head_of_le h]
    push_cast
    ring
  rw [hhead, roundUp]
  rw [hlen] at hsucc
  split
  · rename_i hnil
    rw [hnil] at hsucc
    simp only at hsucc
    rw [hsucc, value, valueOf_singleton]
    push_cast
    rw [← zpow_natCast, ← zpow_add₀ (by norm_num), one_mul]
    congr 1
    simp
  · rename_i last rest hcons
    have hrest : rest.length + 1 ≤ n := by
      have hle := (List.dropWhile_sublist (l := (d.digits.take n).reverse) (· == 9)).length_le
      rwa [hcons, List.length_reverse, hlen, List.length_cons] at hle
    rw [hcons] at hsucc
    simp only at hsucc
    rw [hsucc, value]
    push_cast
    rw [mul_assoc, ← zpow_natCast, ← zpow_add₀ (by norm_num)]
    congr 2
    simp only [List.length_reverse, List.length_cons]
    omega

end SolidityCanvas.Decimal
