/-
Whole numbers as doubles.

* `nearest?_whole`: a whole number below `2 ^ 53` is a double;
* `text_whole`: that double is written with all digits of the number.
-/
import SolidityCanvas.Number.Double
import SolidityCanvas.Proofs.Number.ReadBack

namespace SolidityCanvas

/-! ### Digits of whole numbers -/

namespace Decimal

/-- Zeros at the end, put back. -/
theorem dropZeros_append (ds : List Nat) :
    dropZeros ds ++ List.replicate (ds.length - (dropZeros ds).length) 0 = ds := by
  induction ds using List.reverseRecOn with
  | nil => rfl
  | append_singleton ds x ih =>
    have hle := length_dropZeros_le ds
    by_cases hx : x = 0
    · subst hx
      rw [dropZeros_concat_zero, List.length_append, List.length_singleton,
        Nat.sub_add_comm hle, List.replicate_succ', ← List.append_assoc, ih]
    · rw [dropZeros_concat hx, Nat.sub_self, List.replicate_zero, List.append_nil]

/-- A whole number is written with its digits. -/
theorem fixed_ofBinary {n : Nat} (hn : n ≠ 0) {e : Int} (he : 0 ≤ e) :
    (ofBinary n e).fixed (ofBinary n e).places = chars (digitsOf (n <<< e.toNat)) := by
  have hds : ofBinary n e = ⟨dropZeros (digitsOf (n <<< e.toNat)),
      (digitsOf (n <<< e.toNat)).length⟩ := by
    simp [ofBinary, hn, he]
  have hpos : 0 < (digitsOf (n <<< e.toNat)).length := by
    simp [digitsOf, List.length_pos_iff]
  generalize digitsOf (n <<< e.toNat) = ds at hds hpos
  have hle := length_dropZeros_le ds
  have hplaces : (ofBinary n e).places = 0 := by
    rw [hds, places]
    simp only
    omega
  rw [hplaces, hds, fixed]
  simp [hpos, List.take_of_length_le hle, dropZeros_append]

end Decimal

namespace Double

/-! ### Reading -/

theorem ofFraction?_whole {n : Nat} (hn : n ≠ 0) (hlt : n < 2 ^ bits) (negative : Bool) :
    ofFraction? negative n 1 = some (Binary.normal negative n 0 bits) := by
  have hpos := bitLength_pos hn
  have hle := bitLength_le hlt
  have hbits : bits = 53 := rfl
  have hone : bitLength 1 = 1 := by decide
  obtain ⟨s, hs⟩ : ∃ s, s + 3 = 56 - bitLength n := ⟨53 - bitLength n, by omega⟩
  have hshift : (bits : Int) + 2 + bitLength 1 - bitLength n = (s + 3 : ℕ) := by omega
  have hq : bitLength (n * 2 ^ (s + 3)) = 56 := by
    rw [bitLength_mul_two_pow hn]
    omega
  have hround : roundShift (n * 2 ^ (s + 3)) 3 false = n * 2 ^ s := by
    have hpow : n * 2 ^ (s + 3) = n * 2 ^ s * 2 ^ 3 := by ring
    refine roundShift_eq (by norm_num) (.inl ?_) (.inl ?_)
    all_goals
      rw [hpow]
      norm_num
  have hunit : max (-((s + 3 : ℕ) : Int) + (56 : ℕ) - bits) minExponent = -s := by
    rw [minExponent]
    omega
  have hdrop : (-(s : Int) + (s + 3 : ℕ)).toNat = 3 := by omega
  have hmax : ¬(-(s : Int) > maxUnit) := by
    rw [maxUnit]
    omega
  have hne : -(s : Int) ≠ maxUnit := by
    rw [maxUnit]
    omega
  have hvalue := Binary.normal_mul_two_pow hn negative s (-s) bits
  simp only [ofFraction?, beq_iff_eq, hn, if_false, hshift, ge_iff_le, Int.natCast_nonneg, if_true,
    Int.toNat_natCast, Nat.shiftLeft_eq, Nat.div_one, Nat.mod_one, hq, hunit, hdrop, bne_self_eq_false,
    hround, hmax, hvalue, neg_add_cancel]
  simp [hne]

/-- **A whole number below `2 ^ 53` is a double.** -/
theorem nearest?_whole {t : Numeral} (hfraction : t.fraction = []) (hexponent : t.exponent = 0)
    (hlength : t.whole.length ≤ 400) (hlt : decimalValue t.whole < 2 ^ bits) :
    nearest? t = some (Binary.normal t.negative (decimalValue t.whole) 0 bits) := by
  have hvalue : decimalValue (t.whole ++ t.fraction) = decimalValue t.whole := by
    rw [hfraction, List.append_nil]
  by_cases hn : decimalValue t.whole = 0
  · simp [nearest?, hvalue, hn, Binary.normal]
  · have hfar : ¬(t.exponent + t.whole.length > 400) := by omega
    have hnear : ¬(t.exponent + t.whole.length < -400 - (t.fraction.length : Int)) := by omega
    have hratio : fraction t = (decimalValue t.whole, 1) := by
      simp [fraction, hfraction, hexponent]
    simp only [nearest?, hvalue, beq_iff_eq, hn, if_false, hfar, hnear, hratio]
    exact ofFraction?_whole hn hlt t.negative

/-! ### Writing -/

/-- The reals that are read as a double, or its bounds. -/
def Within (b : Binary) (x : ℚ) : Prop :=
  (bounds (unitForm b).1 (unitForm b).2).1 * 2 ^ ((unitForm b).2 - 2) ≤ x ∧
    x ≤ (bounds (unitForm b).1 (unitForm b).2).2 * 2 ^ ((unitForm b).2 - 2)

theorem zpow_mul_toNat {a : ℚ} (ha : a ≠ 0) (k : ℤ) : a ^ k * a ^ (-k).toNat = a ^ k.toNat := by
  rw [← zpow_natCast, ← zpow_natCast, ← zpow_add₀ ha]
  congr 1
  omega

theorem ite_pow (a : Nat) (k : ℤ) : (if k ≥ 0 then Nat.pow a k.toNat else 1) = a ^ k.toNat := by
  split
  · rfl
  · rw [Int.toNat_of_nonpos (by omega), pow_zero]

/-- A decimal and a binary fraction are compared by whole numbers. -/
theorem mul_le_mul_iff_zpow (value low : Nat) (k e : ℤ) :
    (low * (10 ^ (-k).toNat * 2 ^ e.toNat) ≤ value * 10 ^ k.toNat * 2 ^ (-e).toNat ↔
      (low : ℚ) * 2 ^ e ≤ value * 10 ^ k) ∧
    (value * 10 ^ k.toNat * 2 ^ (-e).toNat ≤ low * (10 ^ (-k).toNat * 2 ^ e.toNat) ↔
      (value : ℚ) * 10 ^ k ≤ low * 2 ^ e) := by
  have hpos : (0 : ℚ) < 10 ^ (-k).toNat * 2 ^ (-e).toNat := by positivity
  have hten := zpow_mul_toNat (by norm_num : (10 : ℚ) ≠ 0) k
  have htwo := zpow_mul_toNat (by norm_num : (2 : ℚ) ≠ 0) e
  have hlow : (low : ℚ) * 2 ^ e * (10 ^ (-k).toNat * 2 ^ (-e).toNat) =
      (low * (10 ^ (-k).toNat * 2 ^ e.toNat) : ℕ) := by
    push_cast
    rw [← htwo]
    ring
  have hvalue : (value : ℚ) * 10 ^ k * (10 ^ (-k).toNat * 2 ^ (-e).toNat) =
      (value * 10 ^ k.toNat * 2 ^ (-e).toNat : ℕ) := by
    push_cast
    rw [← hten]
    ring
  constructor
  · rw [← mul_le_mul_iff_of_pos_right hpos, hlow, hvalue, Nat.cast_le]
  · rw [← mul_le_mul_iff_of_pos_right hpos, hlow, hvalue, Nat.cast_le]

/-- Whether a candidate is read as the double. -/
def isWithin (b : Binary) (c : Decimal) : Bool :=
  let low := (bounds (unitForm b).1 (unitForm b).2).1
  let high := (bounds (unitForm b).1 (unitForm b).2).2
  let k := c.point - c.digits.length
  let e := (unitForm b).2 - 2
  let left := Decimal.valueOf c.digits * 10 ^ k.toNat * 2 ^ (-e).toNat
  let scale := 10 ^ (-k).toNat * 2 ^ e.toNat
  if (unitForm b).1 % 2 == 0 then low * scale ≤ left && left ≤ high * scale
  else low * scale < left && left < high * scale

theorem within_of_isWithin {b : Binary} {c : Decimal} (h : isWithin b c) : Within b c.value := by
  simp only [isWithin] at h
  rw [Within, Decimal.value, ← (mul_le_mul_iff_zpow _ _ _ _).1, ← (mul_le_mul_iff_zpow _ _ _ _).2]
  split at h
  · simpa using h
  · simp only [Bool.and_eq_true, decide_eq_true_eq] at h
    exact ⟨h.1.le, h.2.le⟩

theorem digitsWith?_eq (b : Binary) (d : Decimal) (count : Nat) : digitsWith? b d count =
    if count ≥ d.digits.length then some d
    else if isWithin b (d.round count) then some (d.round count)
    else if isWithin b (if d.roundsUp count then d.roundDown count else d.roundUp count) then
      some (if d.roundsUp count then d.roundDown count else d.roundUp count)
    else none := by
  have hflip (e : Int) : -(e - 2) = 2 - e := by omega
  have hpow (k : Int) : (if k ≥ 0 then 1 else Nat.pow 10 (-k).toNat) = 10 ^ (-k).toNat := by
    split
    · rw [Int.toNat_of_nonpos (by omega), pow_zero]
    · rfl
  have hpow' (e : Int) : (if e - 2 ≥ 0 then 1 else Nat.pow 2 (2 - e).toNat) = 2 ^ (2 - e).toNat := by
    split
    · rw [Int.toNat_of_nonpos (by omega), pow_zero]
    · rfl
  simp only [digitsWith?, isWithin, hflip, hpow, hpow', ite_pow, Decimal.valueOf]

/-- Fewer digits do not suffice if neither neighbour on their grid is read as
the double. -/
theorem digitsWith?_eq_none {b : Binary} {d : Decimal} {count : Nat}
    (hcount : count < d.digits.length) (hdown : ¬Within b (d.roundDown count).value)
    (hup : ¬Within b (d.roundUp count).value) : digitsWith? b d count = none := by
  have hdown' : ¬isWithin b (d.roundDown count) := mt within_of_isWithin hdown
  have hup' : ¬isWithin b (d.roundUp count) := mt within_of_isWithin hup
  have hfew : ¬count ≥ d.digits.length := by omega
  simp only [digitsWith?_eq, Decimal.round, hfew, if_false]
  cases d.roundsUp count <;> simp [hdown', hup']

/-- If that holds for all numbers of digits, all digits are taken. -/
theorem digitsFrom_eq {b : Binary} {d : Decimal} (h : ∀ count, 0 < count → count < d.digits.length →
    digitsWith? b d count = none) (tries : Nat) {count : Nat} (hcount : 0 < count) :
    digitsFrom b d tries count = d := by
  induction tries generalizing count with
  | zero => rfl
  | succ tries ih =>
    rw [digitsFrom]
    rcases Nat.lt_or_ge count d.digits.length with hlt | hge
    · rw [h count hcount hlt]
      exact ih (Nat.succ_pos count)
    · rw [digitsWith?_eq, if_pos hge]

theorem eq_of_abs_sub_le_half {a b : ℕ} (h : |(a : ℚ) - b| ≤ 1 / 2) : a = b := by
  obtain ⟨hlow, hhigh⟩ := abs_le.mp h
  have hab : (a : ℚ) < b + 1 := by linarith
  have hba : (b : ℚ) < a + 1 := by linarith
  have hab' : a < b + 1 := by exact_mod_cast hab
  have hba' : b < a + 1 := by exact_mod_cast hba
  omega

section whole

variable {m k : Nat} {negative : Bool}

/-- What is read as a whole number that fits a double is at most half away. -/
theorem near_of_within (hm : m ≠ 0) (hfits : bitLength m + k ≤ bits) {x : ℚ}
    (h : Within ⟨negative, m, k, bits⟩ x) : |x - m * 2 ^ k| ≤ 1 / 2 := by
  have hbits : bits = 53 := rfl
  obtain ⟨r, hr⟩ : ∃ r, bitLength m + r = bits := ⟨bits - bitLength m, by omega⟩
  have hroom : min ((bits : Int) - bitLength m) ((k : Int) - minExponent) = r := by
    rw [minExponent]
    omega
  have hform : unitForm ⟨negative, m, k, bits⟩ = (m * 2 ^ r, (k : Int) - r) := by
    simp only [unitForm, hroom, Int.toNat_natCast, Nat.shiftLeft_eq]
  have hpos : 0 < m * 2 ^ r := by positivity
  obtain ⟨hlow, hhigh⟩ := h
  rw [hform] at hlow hhigh
  -- the bounds are half a unit away, and the unit is at most one
  have hunit : (2 : ℚ) ^ ((k : Int) - r - 2) ≤ 1 / 4 := by
    have hle : (2 : ℚ) ^ ((k : Int) - r - 2) ≤ 2 ^ (-2 : Int) :=
      zpow_le_zpow_right₀ (by norm_num) (by omega)
    exact hle.trans (by norm_num)
  have hunit_pos : (0 : ℚ) < 2 ^ ((k : Int) - r - 2) := by positivity
  have hvalue : (4 * (m * 2 ^ r) : ℚ) * 2 ^ ((k : Int) - r - 2) = m * 2 ^ k := by
    rw [zpow_sub₀ (by norm_num), zpow_sub₀ (by norm_num), zpow_natCast, zpow_natCast]
    field_simp
    norm_num
  have hbounds : (4 * (m * 2 ^ r) - 2 : ℚ) ≤ (bounds (m * 2 ^ r) ((k : Int) - r)).1 ∧
      (bounds (m * 2 ^ r) ((k : Int) - r)).2 = 4 * (m * 2 ^ r) + 2 := by
    rw [bounds]
    split
    · refine ⟨?_, rfl⟩
      rw [Nat.cast_sub (by omega)]
      push_cast
      linarith
    · refine ⟨?_, rfl⟩
      rw [Nat.cast_sub (by omega)]
      push_cast
      linarith
  rw [hbounds.2] at hhigh
  push_cast at hhigh
  rw [abs_le]
  constructor
  · nlinarith [mul_le_mul_of_nonneg_right hbounds.1 hunit_pos.le]
  · nlinarith

/-- **A whole number that fits a double needs all its digits.** -/
theorem digits_whole (hm : m ≠ 0) (hfits : bitLength m + k ≤ bits) :
    digits ⟨negative, m, k, bits⟩ = Decimal.ofBinary m k := by
  refine digitsFrom_eq (fun count _ hcount => ?_) 17 Nat.one_pos
  have htidy := Decimal.tidy_ofBinary hm k
  have hvalue : (Decimal.ofBinary m k).value = (m * 2 ^ k : ℕ) := by
    rw [Decimal.value_ofBinary]
    push_cast
    rfl
  have hgrid := Binary.ofBinary_grid hm k
  simp only at hcount
  generalize Decimal.ofBinary m k = d at htidy hvalue hgrid hcount ⊢
  -- both neighbours are whole numbers, but not the number itself
  obtain ⟨j, hj⟩ : ∃ j : ℕ, d.point - count = j := ⟨(d.point - count).toNat, by omega⟩
  have hlow : d.head count * 10 ^ j < m * 2 ^ k := by
    have hlt := htidy.head_lt_value hcount
    rw [hj, zpow_natCast, hvalue] at hlt
    exact_mod_cast hlt
  have hhigh : m * 2 ^ k < (d.head count + 1) * 10 ^ j := by
    have hlt := Decimal.value_lt_head_succ htidy.proper count
    rw [hj, zpow_natCast, hvalue] at hlt
    exact_mod_cast hlt
  refine digitsWith?_eq_none hcount (fun h => ?_) fun h => ?_
  · have hnear := near_of_within hm hfits h
    rw [Decimal.value_roundDown hcount.le, hj, zpow_natCast] at hnear
    have heq := eq_of_abs_sub_le_half (a := d.head count * 10 ^ j) (b := m * 2 ^ k)
      (by exact_mod_cast hnear)
    omega
  · have hnear := near_of_within hm hfits h
    rw [Decimal.value_roundUp hcount.le, hj, zpow_natCast] at hnear
    have heq := eq_of_abs_sub_le_half (a := (d.head count + 1) * 10 ^ j) (b := m * 2 ^ k)
      (by exact_mod_cast hnear)
    omega

/-- **A whole number below `2 ^ 53` is written with its digits.** -/
theorem text_whole {n : Nat} (hlt : n < 2 ^ bits) (negative : Bool) :
    text (Binary.normal negative n 0 bits) = wholeText negative n := by
  by_cases hn : n = 0
  · subst hn
    cases negative <;> rfl
  · obtain ⟨m, k, hodd, rfl⟩ := exists_odd hn
    have hm : m ≠ 0 := by omega
    have hfits : bitLength m + k ≤ bits := by
      rw [← bitLength_mul_two_pow hm]
      exact bitLength_le hlt
    have hpoint : (Decimal.ofBinary m k).point > -6 ∧ (Decimal.ofBinary m k).point ≤ 21 := by
      have htidy := Decimal.tidy_ofBinary hm k
      have hgrid := Binary.ofBinary_grid hm k
      have hle := htidy.unit_le_value
      rw [Decimal.value_ofBinary, zpow_natCast] at hle
      have hsmall : (m * 2 ^ k : ℚ) < 10 ^ (16 : ℤ) := by
        have hcast : (m * 2 ^ k : ℚ) < 2 ^ bits := by exact_mod_cast hlt
        exact hcast.trans (by norm_num [bits])
      have hpow := (zpow_lt_zpow_iff_right₀ (by norm_num : (1 : ℚ) < 10)).mp (hle.trans_lt hsmall)
      constructor <;> omega
    rw [Binary.normal_odd hodd, zero_add, text]
    simp only [digits_whole hm hfits, hpoint, Binary.isZero, beq_iff_eq, hm, if_false, decide_true,
      Bool.and_self, if_true]
    rw [Decimal.fixed_ofBinary hm (Int.natCast_nonneg k), Int.toNat_natCast, Nat.shiftLeft_eq,
      chars_digitsOf, wholeText]

end whole

end Double

/-! ### The texts of whole numbers -/

theorem digitsOf_mul_ten_add {n x : Nat} (hn : n ≠ 0) (hx : x < 10) :
    Decimal.digitsOf (n * 10 + x) = Decimal.digitsOf n ++ [x] := by
  have hdigit : ∀ x < 10, (Nat.digitChar x).toNat - '0'.toNat = x := by decide
  rw [Decimal.digitsOf, Nat.toDigits_eq_if (by norm_num), if_neg (by omega),
    show (n * 10 + x) / 10 = n by omega, show (n * 10 + x) % 10 = x by omega, List.map_append,
    List.map_singleton, hdigit x hx]
  rfl

/-- Digits that may stand before a point are those of their value. -/
theorem Whole.eq_digitsOf {ds : List Nat} (h : Whole ds) :
    ds = Decimal.digitsOf (Decimal.valueOf ds) := by
  have hsingle : ∀ x < 10, [x] = Decimal.digitsOf x := by decide
  induction ds using List.reverseRecOn with
  | nil => simpa using h.led
  | append_singleton ds x ih =>
    have hx := h.proper x (by simp)
    by_cases hnil : ds = []
    · rw [hnil, List.nil_append, Decimal.valueOf_singleton, ← hsingle x hx]
    · have hled : ds.getD 0 0 ≠ 0 := by
        obtain ⟨y, ys, rfl⟩ := List.exists_cons_of_ne_nil hnil
        simpa using h.led
      have hds := ih ⟨fun y hy => h.proper y (by simp [hy]), .inr hled⟩
      have hvalue : Decimal.valueOf ds ≠ 0 := by
        intro hzero
        rw [hds, hzero] at hled
        exact hled rfl
      rw [Decimal.valueOf_append, Decimal.valueOf_singleton, List.length_singleton, pow_one,
        digitsOf_mul_ten_add hvalue hx, ← hds]

/-- **A whole number is written with its digits**, if they fit the
precision. -/
theorem Binary.text_normal {n precision : Nat} (h : bitLength n ≤ precision) (negative : Bool) :
    (normal negative n 0 precision).text = wholeText negative n := by
  by_cases hn : n = 0
  · subst hn
    cases negative <;> rfl
  · obtain ⟨m, k, hodd, rfl⟩ := exists_odd hn
    have hm : m ≠ 0 := by omega
    rw [bitLength_mul_two_pow hm] at h
    rw [normal_odd hodd, zero_add]
    generalize hb : (⟨negative, m, k, precision⟩ : Binary) = b
    have hmantissa : b.mantissa = m := by rw [← hb]
    have hexponent : b.exponent = k := by rw [← hb]
    have hplaces : b.shortestDecimal.places = 0 := by
      have hle := places_shortestDecimal (b := b) (by rw [hmantissa]; exact hm)
      rw [hexponent] at hle
      omega
    have hfraction : b.shortestDecimal.fractionPart = [] := by
      rw [← List.length_eq_zero_iff, Decimal.length_fractionPart, hplaces]
    have hvalue : b.shortestDecimal.value = (m * 2 ^ k : ℕ) := by
      rw [shortestDecimal_exact (by rw [hmantissa]; exact hm)
        (by rw [hmantissa, ← hb]; simp only; omega), magnitude, hmantissa, hexponent, zpow_natCast]
      · push_cast
        rfl
      · rw [hexponent, room, hmantissa, ← hb, Int.toNat_natCast, Int.toNat_of_nonpos (by omega),
          pow_zero, mul_one]
        exact Nat.pow_lt_pow_right (by norm_num) (by simp only; omega)
    have hdigits : Decimal.valueOf b.shortestDecimal.wholePart = m * 2 ^ k := by
      have hparts := b.shortestDecimal.value_parts
      rw [hfraction, List.append_nil, hplaces, pow_zero, mul_one, hvalue] at hparts
      exact_mod_cast hparts
    rw [text_eq, hfraction, b.whole_shortestDecimal.eq_digitsOf, hdigits, wholeText_eq, ← hb]

/-- A whole number is read from its digits. -/
theorem Number.parse?_wholeText {n : Nat} (h : bitLength n ≤ readPrecision) (negative : Bool) :
    parse? (wholeText negative n) = some (.finite (Binary.normal negative n 0 readPrecision)) := by
  have hle : n ≤ 2 ^ readPrecision :=
    (lt_two_pow_bitLength n).le.trans (Nat.pow_le_pow_right (by norm_num) h)
  rw [← Binary.text_normal h]
  have hprecision := Binary.precision_normal negative n 0 readPrecision
  have hstandard := Binary.standard_normal hle (by decide) negative 0
  by_cases hn : n = 0
  · subst hn
    exact Binary.parse?_text hstandard hprecision (fun h => absurd rfl h) (by simp [Binary.Lopsided,
      Binary.normal, Binary.zero]) (by simp [Binary.shortestDecimal_zero, Binary.normal, Binary.zero,
      Decimal.places])
  · obtain ⟨m, k, hodd, rfl⟩ := exists_odd hn
    have hm : m ≠ 0 := by omega
    rw [bitLength_mul_two_pow hm] at h
    rw [Binary.normal_odd hodd, zero_add] at hprecision hstandard ⊢
    have hbits : readPrecision = 512 := rfl
    refine Binary.parse?_text hstandard hprecision (fun _ => ?_) (fun hlopsided => ?_) ?_
    · simp only [Binary.InRange, maxExponent]
      omega
    · have hpow := hlopsided.2
      have hpos := bitLength_pos hm
      simp only [Int.toNat_natCast, Int.toNat_of_nonpos (by omega : -(k : Int) ≤ 0), pow_zero,
        mul_one] at hpow
      have hk := (Nat.pow_le_pow_iff_right (by norm_num : 1 < 2)).mp hpow
      omega
    · have hplaces := Binary.places_shortestDecimal (b := ⟨negative, m, k, readPrecision⟩) hm
      simp only at hplaces
      omega

/-- **Small whole numbers are doubles.** -/
theorem Double.parse?_wholeText {n : Nat} (h : n < 2 ^ bits) (negative : Bool) :
    Double.parse? (wholeText negative n) = some (Binary.normal negative n 0 bits) := by
  have hvalue := Decimal.decimalValue_toDigits n
  have hlength : (Nat.toDigits 10 n).length ≤ 400 := by
    have hlt : n < 10 ^ 16 := h.trans (by norm_num [bits])
    exact ((Nat.length_toDigits_le_iff (by norm_num) (by norm_num)).mpr hlt).trans (by norm_num)
  rw [Double.parse?, numeral_wholeText, Option.bind_some,
    nearest?_whole rfl rfl hlength (hvalue.trans_lt h), hvalue]

end SolidityCanvas
