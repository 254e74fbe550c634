/-
Numbers and their texts.

The text of a number is the shortest decimal between the halves of the way to
its neighbours. Below a power of two the neighbours are twice as close as
above, which the text does not care for: far from one, the text of a power of
two may be that of its lower neighbour (`Binary.Lopsided`). For all other
numbers,

* `Binary.nearest_shortestDecimal`: the number is the one nearest to its text;
* `Binary.text_inj`: different numbers have different texts;
* `Binary.parse?_text`: the text is read back as the number, as long as it has
  no more places than there are exact powers of five.
-/
import SolidityCanvas.Proofs.Number.Rounding
import SolidityCanvas.Proofs.Number.Spelling

namespace SolidityCanvas

open Decimal

namespace Binary

variable {b : Binary}

/-! ### The text of a number -/

/-- The room that the precision leaves after the mantissa. -/
def room (b : Binary) : Nat := b.precision - bitLength b.mantissa

/-- The value without the sign. -/
def magnitude (b : Binary) : ℚ := b.mantissa * 2 ^ b.exponent

theorem magnitude_eq (b : Binary) :
    b.magnitude = (b.mantissa * 2 ^ b.room : ℕ) * 2 ^ (b.exponent - b.room) := by
  rw [magnitude, zpow_sub₀ (by norm_num), zpow_natCast]
  push_cast
  field_simp

theorem shortestDecimal_zero (h : b.mantissa = 0) : b.shortestDecimal = ⟨[], 0⟩ := by
  simp [shortestDecimal, isZero, h, ofBinary]

/-- The number lies between the halves of the way to its neighbours. -/
theorem shortestDecimal_eq (h : b.mantissa ≠ 0) (hfits : bitLength b.mantissa ≤ b.precision) :
    b.shortestDecimal = (ofBinary b.mantissa b.exponent).shortestFrom
      (ofBinary (2 * (b.mantissa * 2 ^ b.room) - 1) (b.exponent - b.room - 1))
      (ofBinary (2 * (b.mantissa * 2 ^ b.room) + 1) (b.exponent - b.room - 1))
      (b.mantissa * 2 ^ b.room % 2 == 0) (ofBinary b.mantissa b.exponent).digits.length 0 := by
  have hroom : b.precision + 1 - bitLength b.mantissa = b.room + 1 := by
    rw [room]
    omega
  have hshift : b.mantissa <<< (b.room + 1) = 2 * (b.mantissa * 2 ^ b.room) := by
    rw [Nat.shiftLeft_eq]
    ring
  have hexponent : b.exponent - ((b.room + 1 : ℕ) : ℤ) = b.exponent - b.room - 1 := by
    push_cast
    ring
  have hhalf : 2 * (b.mantissa * 2 ^ b.room) / 2 = b.mantissa * 2 ^ b.room := by omega
  simp only [shortestDecimal, isZero, beq_iff_eq, h, if_false, hroom, hshift, hexponent, hhalf]

theorem tidy_shortestDecimal (h : b.mantissa ≠ 0) : b.shortestDecimal.Tidy := by
  simp only [shortestDecimal, isZero, beq_iff_eq, h, if_false]
  exact (tidy_ofBinary h _).shortestFrom _ _ _

theorem whole_shortestDecimal (b : Binary) : Whole b.shortestDecimal.wholePart := by
  by_cases h : b.mantissa = 0
  · rw [shortestDecimal_zero h]
    exact ⟨by simp [wholePart], .inl rfl⟩
  · exact (tidy_shortestDecimal h).wholePart

theorem text_eq (b : Binary) : b.text = String.ofList
    (spelled b.negative b.shortestDecimal.wholePart b.shortestDecimal.fractionPart []) := by
  rw [← spelled_fixed]
  rfl

/-- **The text of a number is a number of a document.** -/
theorem isNumber_text (b : Binary) : Json.IsNumber b.text := by
  rw [text_eq]
  exact isNumber_spelled b.whole_shortestDecimal b.proper_shortestDecimal.fractionPart (.inl rfl)

/-- The text of a number, taken apart. -/
theorem numeral_text (b : Binary) : Numeral.parse? b.text = some
    { negative := b.negative, whole := chars b.shortestDecimal.wholePart,
      fraction := chars b.shortestDecimal.fractionPart, exponent := 0, binaryExponent := false } := by
  have hwhole := b.whole_shortestDecimal
  have hne : b.shortestDecimal.wholePart ≠ [] := by
    rcases hwhole.led with h | h
    · simp [h]
    · rintro hnil
      simp [hnil] at h
  rw [text_eq, parse?_spelled hwhole.proper hne b.proper_shortestDecimal.fractionPart (by simp)]
  rfl

/-- The whole number that the digits of the text stand for. -/
def textDigits (b : Binary) : Nat :=
  valueOf (b.shortestDecimal.wholePart ++ b.shortestDecimal.fractionPart)

theorem decimalValue_text (b : Binary) :
    decimalValue (chars b.shortestDecimal.wholePart ++ chars b.shortestDecimal.fractionPart) =
      b.textDigits := by
  rw [← chars_append, decimalValue_chars]
  · rfl
  · intro x hx
    rcases List.mem_append.mp hx with hx | hx
    · exact b.whole_shortestDecimal.proper x hx
    · exact b.proper_shortestDecimal.fractionPart x hx

theorem textDigits_eq (b : Binary) :
    (b.textDigits : ℚ) = b.shortestDecimal.value * 10 ^ b.shortestDecimal.places :=
  b.shortestDecimal.value_parts

theorem textDigits_ne_zero (h : b.mantissa ≠ 0) : b.textDigits ≠ 0 := by
  have hpos := (tidy_shortestDecimal h).value_pos
  have hvalue := b.textDigits_eq
  intro hzero
  rw [hzero] at hvalue
  have : 0 < b.shortestDecimal.value * 10 ^ b.shortestDecimal.places := by positivity
  rw [← hvalue] at this
  simp at this

/-! ### The number nearest to the text -/

theorem between_shortestDecimal (h : b.mantissa ≠ 0) (hfits : bitLength b.mantissa ≤ b.precision) :
    ((b.mantissa * 2 ^ b.room : ℕ) - 1 / 2 : ℚ) * 2 ^ (b.exponent - b.room) <
        b.shortestDecimal.value ∧
      b.shortestDecimal.value <
        ((b.mantissa * 2 ^ b.room : ℕ) + 1 / 2) * 2 ^ (b.exponent - b.room) ∨
    b.mantissa * 2 ^ b.room % 2 = 0 ∧
      ((b.mantissa * 2 ^ b.room : ℕ) - 1 / 2 : ℚ) * 2 ^ (b.exponent - b.room) ≤
        b.shortestDecimal.value ∧
      b.shortestDecimal.value ≤
        ((b.mantissa * 2 ^ b.room : ℕ) + 1 / 2) * 2 ^ (b.exponent - b.room) := by
  obtain ⟨N, hN⟩ : ∃ N, b.mantissa * 2 ^ b.room = N := ⟨_, rfl⟩
  obtain ⟨E, hE⟩ : ∃ E : ℤ, b.exponent - b.room = E := ⟨_, rfl⟩
  have hpos : 0 < N := by
    rw [← hN]
    positivity
  have hhalf : (2 : ℚ) ^ E = 2 * 2 ^ (E - 1) := by
    rw [zpow_sub_one₀ (by norm_num)]
    ring
  have hscale : (0 : ℚ) < 2 ^ (E - 1) := by positivity
  have hmiddle : (ofBinary b.mantissa b.exponent).value = N * 2 ^ E := by
    rw [value_ofBinary, ← hN, ← hE]
    exact b.magnitude_eq
  have hlower : (ofBinary (2 * N - 1) (E - 1)).value = (N - 1 / 2) * 2 ^ E := by
    rw [value_ofBinary, hhalf, Nat.cast_sub (by omega)]
    push_cast
    ring
  have hupper : (ofBinary (2 * N + 1) (E - 1)).value = (N + 1 / 2) * 2 ^ E := by
    rw [value_ofBinary, hhalf]
    push_cast
    ring
  have heven : N % 2 = 0 ↔ (N % 2 == 0) = true := by simp
  rw [shortestDecimal_eq h hfits, hN, hE, ← hlower, ← hupper, heven]
  refine shortestFrom_between (tidy_ofBinary h b.exponent) (tidy_ofBinary (by omega) (E - 1))
    (tidy_ofBinary (by omega) (E - 1)) ?_ ?_
  · rw [hlower, hmiddle, hhalf]
    nlinarith
  · rw [hupper, hmiddle, hhalf]
    nlinarith

/-- The exact expansion of a binary fraction has no more places than bits
after the point. -/
theorem ofBinary_grid {n : Nat} (hn : n ≠ 0) (e : Int) :
    -((-e).toNat : ℤ) ≤ (ofBinary n e).point - (ofBinary n e).digits.length := by
  simp only [ofBinary, beq_iff_eq, hn, if_false]
  split
  · have hle := length_dropZeros_le (digitsOf (n <<< e.toNat))
    simp only
    omega
  · have hle := length_dropZeros_le (digitsOf (n * Nat.pow 5 (-e).toNat))
    simp only
    omega

theorem places_shortestDecimal (h : b.mantissa ≠ 0) :
    b.shortestDecimal.places ≤ (-b.exponent).toNat := by
  have hgrid := ofBinary_grid h b.exponent
  simp only [shortestDecimal, isZero, beq_iff_eq, h, if_false]
  refine (shortestFrom_grid _ _ _ _).1.trans ?_
  rw [places]
  omega

/-- The text is on the grid of the number's own places. -/
theorem exists_value_shortestDecimal (h : b.mantissa ≠ 0) :
    ∃ m : ℕ, b.shortestDecimal.value * 10 ^ (-b.exponent).toNat = m := by
  refine ⟨b.textDigits * 10 ^ ((-b.exponent).toNat - b.shortestDecimal.places), ?_⟩
  push_cast
  rw [textDigits_eq, mul_assoc, ← pow_add, Nat.add_sub_cancel' (places_shortestDecimal h)]

theorem two_zpow_mul_ten_pow (e : ℤ) :
    (2 : ℚ) ^ e * 10 ^ (-e).toNat = (2 ^ e.toNat * 5 ^ (-e).toNat : ℕ) := by
  rcases le_or_gt 0 e with hpos | hneg
  · obtain ⟨n, rfl⟩ := Int.eq_ofNat_of_zero_le hpos
    simp
  · obtain ⟨n, rfl⟩ : ∃ n : ℕ, e = -n := ⟨(-e).toNat, by omega⟩
    rw [show (-(-(n : ℤ))).toNat = n by simp, show (-(n : ℤ)).toNat = 0 by simp, zpow_neg,
      zpow_natCast, show (10 : ℚ) = 2 * 5 by norm_num, mul_pow]
    push_cast
    field_simp

/-- **The text is exact if the grid of the number's places is coarser than
half the way to its neighbours.** -/
theorem shortestDecimal_exact (h : b.mantissa ≠ 0) (hfits : bitLength b.mantissa ≤ b.precision)
    (hgrid : 2 ^ b.exponent.toNat * 5 ^ (-b.exponent).toNat < 2 ^ (b.room + 1)) :
    b.shortestDecimal.value = b.magnitude := by
  obtain ⟨x, hx⟩ : ∃ x, b.shortestDecimal.value = x := ⟨_, rfl⟩
  obtain ⟨k, hk⟩ : ∃ k, (-b.exponent).toNat = k := ⟨_, rfl⟩
  obtain ⟨m, hm⟩ := exists_value_shortestDecimal h
  have hscale := two_zpow_mul_ten_pow b.exponent
  obtain ⟨u, hu⟩ : ∃ u, 2 ^ b.exponent.toNat * 5 ^ (-b.exponent).toNat = u := ⟨_, rfl⟩
  rw [hu] at hscale hgrid
  rw [hk] at hscale hm
  rw [hx] at hm ⊢
  have hten : (0 : ℚ) < 10 ^ k := by positivity
  have hmagnitude : b.magnitude * 10 ^ k = (b.mantissa * u : ℕ) := by
    rw [magnitude, mul_assoc, hscale]
    push_cast
    ring
  -- half the way to the neighbours, counted in the grid
  have hhalf : (2 : ℚ) ^ (b.exponent - b.room) / 2 * 10 ^ k < 1 := by
    have hpow : (2 : ℚ) ^ (b.exponent - b.room) / 2 * 10 ^ k = u / 2 ^ (b.room + 1) := by
      rw [← hscale, zpow_sub₀ (by norm_num), zpow_natCast]
      field_simp
      ring
    rw [hpow, div_lt_one (by positivity)]
    exact_mod_cast hgrid
  have hclose : b.magnitude - 2 ^ (b.exponent - b.room) / 2 ≤ x ∧
      x ≤ b.magnitude + 2 ^ (b.exponent - b.room) / 2 := by
    rw [magnitude_eq, ← hx]
    rcases between_shortestDecimal h hfits with ⟨hl, hu⟩ | ⟨-, hl, hu⟩
    · constructor <;> linarith
    · constructor <;> linarith
  have hlow : ((b.mantissa * u : ℕ) : ℚ) < m + 1 := by
    rw [← hmagnitude, ← hm]
    nlinarith [hclose.1]
  have hhigh : (m : ℚ) < (b.mantissa * u : ℕ) + 1 := by
    rw [← hmagnitude, ← hm]
    nlinarith [hclose.2]
  have hnat : m = b.mantissa * u := by
    have hlow' : b.mantissa * u < m + 1 := by exact_mod_cast hlow
    have hhigh' : m < b.mantissa * u + 1 := by exact_mod_cast hhigh
    omega
  rw [hnat, ← hmagnitude] at hm
  exact mul_right_cancel₀ hten.ne' hm

/-- A power of two so far from one that its text need not be exact: then it
may be the text of a number below, where the neighbours are closer. -/
def Lopsided (b : Binary) : Prop :=
  b.mantissa = 1 ∧ 2 ^ b.precision ≤ 2 ^ b.exponent.toNat * 5 ^ (-b.exponent).toNat

instance (b : Binary) : Decidable b.Lopsided := inferInstanceAs (Decidable (_ ∧ _))

/-- **Every other number is the one nearest to its text.** -/
theorem nearest_shortestDecimal (h : b.Standard) (hzero : b.mantissa ≠ 0) (hb : ¬b.Lopsided) :
    Nearest b.precision (b.mantissa * 2 ^ b.room) (b.exponent - b.room) b.shortestDecimal.value where
  low := by
    have hpos := bitLength_pos hzero
    calc 2 ^ (b.precision - 1) = 2 ^ (bitLength b.mantissa - 1) * 2 ^ b.room := by
          rw [← pow_add, room]
          congr 1
          have := h.fits
          omega
      _ ≤ b.mantissa * 2 ^ b.room := by
          gcongr
          exact two_pow_le_of_bitLength hzero
  high := by
    calc b.mantissa * 2 ^ b.room < 2 ^ bitLength b.mantissa * 2 ^ b.room := by
          gcongr
          exact lt_two_pow_bitLength _
      _ = 2 ^ b.precision := by rw [← pow_add, room, Nat.add_sub_cancel' h.fits]
  near := between_shortestDecimal hzero h.fits
  above := by
    -- the first number of its length is a power of two, and its text is exact
    intro hpower
    have hone : b.mantissa = 1 := by
      have hdvd : b.mantissa ∣ 2 ^ (b.precision - 1) := ⟨2 ^ b.room, hpower.symm⟩
      obtain ⟨j, -, hj⟩ := (Nat.dvd_prime_pow Nat.prime_two).mp hdvd
      have hodd := h.odd hzero
      rw [hj] at hodd ⊢
      cases j with
      | zero => rfl
      | succ j =>
        rw [pow_succ] at hodd
        omega
    have hroom : b.room + 1 = b.precision := by
      have hfits := h.fits
      rw [room, hone] at *
      have : bitLength 1 = 1 := by decide
      omega
    have hgrid : 2 ^ b.exponent.toNat * 5 ^ (-b.exponent).toNat < 2 ^ (b.room + 1) := by
      rw [hroom]
      exact not_le.mp fun hle => hb ⟨hone, hle⟩
    rw [shortestDecimal_exact hzero h.fits hgrid, magnitude_eq]

theorem normal_self (h : b.Standard) (hzero : b.mantissa ≠ 0) :
    normal b.negative (b.mantissa * 2 ^ b.room) (b.exponent - b.room) b.precision = b := by
  rw [normal_odd (h.odd hzero), sub_add_cancel]

/-! ### Different numbers -/

variable {c : Binary}

theorem value_eq_zero : b.shortestDecimal.value = 0 ↔ b.mantissa = 0 := by
  refine ⟨fun h => by_contra fun hne => ?_, fun h => ?_⟩
  · exact (tidy_shortestDecimal hne).value_pos.ne' h
  · rw [shortestDecimal_zero h]
    simp [Decimal.value, valueOf]

theorem textDigits_eq_zero : b.textDigits = 0 ↔ b.mantissa = 0 := by
  refine ⟨fun h => by_contra fun hne => textDigits_ne_zero hne h, fun h => ?_⟩
  rw [textDigits, shortestDecimal_zero h]
  rfl

/-- **The value of the text determines the number**, but for some powers of
two. -/
theorem eq_of_value_eq (hb : b.Standard) (hc : c.Standard) (hprecision : b.precision = c.precision)
    (hb' : ¬b.Lopsided) (hc' : ¬c.Lopsided) (hnegative : b.negative = c.negative)
    (hvalue : b.shortestDecimal.value = c.shortestDecimal.value) : b = c := by
  have hzero : b.mantissa = 0 ↔ c.mantissa = 0 := by
    rw [← value_eq_zero, ← value_eq_zero, hvalue]
  by_cases hbz : b.mantissa = 0
  · have hcz := hzero.mp hbz
    have hexponent := (hb.zero hbz).trans (hc.zero hcz).symm
    obtain ⟨_, _, _, _⟩ := b
    obtain ⟨_, _, _, _⟩ := c
    simp_all
  · have hcz := mt hzero.mpr hbz
    have hnearest := nearest_shortestDecimal hb hbz hb'
    have hnearest' := nearest_shortestDecimal hc hcz hc'
    rw [hprecision, hvalue] at hnearest
    rw [← normal_self hb hbz, ← normal_self hc hcz, hnegative, hprecision,
      nearest_unique hnearest hnearest' ((bitLength_pos hcz).trans_le hc.fits)]

/-- **Different numbers of one precision have different texts**, but for some
powers of two. -/
theorem text_inj (hb : b.Standard) (hc : c.Standard) (hprecision : b.precision = c.precision)
    (hb' : ¬b.Lopsided) (hc' : ¬c.Lopsided) (h : b.text = c.text) : b = c := by
  rw [text_eq, text_eq, String.ofList_inj] at h
  obtain ⟨hnegative, hvalue⟩ := value_eq_of_spelled_eq b.whole_shortestDecimal
    c.whole_shortestDecimal b.proper_shortestDecimal.fractionPart
    c.proper_shortestDecimal.fractionPart h
  exact eq_of_value_eq hb hc hprecision hb' hc' hnegative hvalue

/-! ### Reading the text -/

/-- The exponent of the leading bit is one that a number may have. -/
def InRange (b : Binary) : Prop :=
  -maxExponent - 1 ≤ b.exponent + bitLength b.mantissa ∧
    b.exponent + bitLength b.mantissa ≤ maxExponent

end Binary

namespace Numeral

/-- The whole number that the digits stand for. -/
def digits (t : Numeral) : Nat := decimalValue (t.whole ++ t.fraction)

/-- The exponent of the leading bit, if five were two. -/
def top (t : Numeral) : Int := t.exponent - t.fraction.length + bitLength t.digits

/-- The exponent of the power of five. -/
def fives (t : Numeral) : Int := (if t.binaryExponent then 0 else t.exponent) - t.fraction.length

/-- The number before its exponent is looked at. -/
def scaled (t : Numeral) : Binary :=
  let exp2 := t.exponent - t.fraction.length
  let p := powerOfFive t.fives.natAbs (Number.readPrecision + 64)
  if t.fives == 0 then Binary.rounded t.negative t.digits exp2 Number.readPrecision false
  else if t.fives < 0 then
    let q := Binary.ofRatio t.negative t.digits p.mantissa Number.readPrecision
    { q with exponent := q.exponent + exp2 - p.exponent }
  else Binary.rounded t.negative (t.digits * p.mantissa) (exp2 + p.exponent)
    Number.readPrecision false

/-- The number with an exponent that it may have. -/
def limited (negative : Bool) (b : Binary) : Number :=
  if b.exponent + bitLength b.mantissa > maxExponent then .infinite negative
  else if b.exponent + bitLength b.mantissa < -maxExponent - 1 then
    .finite (Binary.zero negative Number.readPrecision)
  else .finite b

theorem value?_eq (t : Numeral) : t.value? =
    if t.digits = 0 then some (.finite (Binary.zero t.negative Number.readPrecision))
    else if t.top > maxExponent ∨ t.top < -maxExponent - 1 then none
    else some (limited t.negative t.scaled) := by
  have hdigits : decimalValue (t.whole ++ t.fraction) = t.digits := rfl
  have hfives : (if t.binaryExponent then 0 else t.exponent) - (t.fraction.length : ℤ) = t.fives :=
    rfl
  have htop : t.exponent - t.fraction.length + bitLength t.digits = t.top := rfl
  simp only [value?, hdigits, hfives, htop, scaled, beq_iff_eq, Bool.or_eq_true, decide_eq_true_eq]
  split
  · rfl
  split
  · rfl
  split
  · rfl
  split <;> rfl

end Numeral

namespace Number

/-- How many places a numeral may have for its power of five to be exact. -/
def exactPlaces : Nat := 248

theorem parse?_eq_numeral {s : String} (h : 'f' ∉ s.toList) :
    parse? s = (Numeral.parse? s).bind Numeral.value? := by
  rw [parse?]
  all_goals
    rintro rfl
    exact h (by decide)

theorem notMem_text (b : Binary) : 'f' ∉ b.text.toList := by
  intro hmem
  rcases b.isNumeral_of_mem_text _ hmem with h | h | h <;> exact absurd h (by decide)

theorem bitLength_five_pow {k : Nat} (h : k ≤ exactPlaces) :
    bitLength (5 ^ k) ≤ readPrecision + 64 := by
  have hmax : 5 ^ exactPlaces < 2 ^ (readPrecision + 64) := by decide +kernel
  exact bitLength_le ((Nat.pow_le_pow_right (by norm_num) h).trans_lt hmax)

end Number

namespace Binary

variable {b : Binary}

/-- A number with places after the point is not large. -/
theorem textDigits_lt (h : b.Standard) (hzero : b.mantissa ≠ 0) (hb : ¬b.Lopsided)
    (hplaces : b.shortestDecimal.places ≠ 0) :
    bitLength b.textDigits ≤ b.precision + 4 * b.shortestDecimal.places := by
  refine bitLength_le ?_
  have hexponent : b.exponent < 0 := by
    have := places_shortestDecimal hzero
    omega
  have hprecision : 0 < b.precision := (bitLength_pos hzero).trans_le h.fits
  have hlt := ((nearest_shortestDecimal h hzero hb).bounds hprecision).2
  have hvalue : b.shortestDecimal.value < 2 ^ b.precision := by
    refine hlt.trans_le ?_
    rw [← zpow_natCast]
    exact zpow_le_zpow_right₀ (by norm_num) (by omega)
  have hdigits : (b.textDigits : ℚ) < (2 ^ b.precision * 16 ^ b.shortestDecimal.places : ℕ) := by
    rw [textDigits_eq]
    push_cast
    have hpos := (tidy_shortestDecimal hzero).value_pos
    gcongr
    norm_num
  rw [pow_add, pow_mul]
  exact_mod_cast hdigits

theorem value_of_places (h : b.shortestDecimal.places = 0) :
    b.shortestDecimal.value = b.textDigits * 2 ^ (0 : ℤ) := by
  rw [textDigits_eq, h]
  simp

theorem rounded_textDigits (h : b.Standard) (hzero : b.mantissa ≠ 0) (hb : ¬b.Lopsided)
    (hplaces : b.shortestDecimal.places = 0) :
    rounded b.negative b.textDigits 0 b.precision false = b := by
  have hprecision : 0 < b.precision := (bitLength_pos hzero).trans_le h.fits
  have hnearest := nearest_shortestDecimal h hzero hb
  have hvalue := value_of_places hplaces
  rw [rounded_eq hnearest hprecision (textDigits_ne_zero hzero) hvalue.ge (by rw [hvalue]; simp)
    (fun _ => hvalue) (by simp), normal_self h hzero]

/-- The power of two in a power of ten only moves the exponent. -/
theorem ofRatio_five (h : b.Standard) (hzero : b.mantissa ≠ 0) (hb : ¬b.Lopsided) :
    ofRatio b.negative b.textDigits (5 ^ b.shortestDecimal.places) b.precision =
      { b with exponent := b.exponent + b.shortestDecimal.places } := by
  have hprecision : 0 < b.precision := (bitLength_pos hzero).trans_le h.fits
  have hnearest := (nearest_shortestDecimal h hzero hb).scale b.shortestDecimal.places
  have hvalue : b.shortestDecimal.value * 2 ^ b.shortestDecimal.places =
      b.textDigits / (5 ^ b.shortestDecimal.places : ℕ) := by
    rw [textDigits_eq, show (10 : ℚ) = 2 * 5 by norm_num, mul_pow]
    push_cast
    field_simp
  rw [hvalue] at hnearest
  rw [ofRatio_eq hnearest hprecision (textDigits_ne_zero hzero) (by positivity),
    normal_odd (h.odd hzero)]
  congr 1
  ring

/-- The numeral is not out of all bounds. -/
theorem top_textDigits (h : b.Standard) (hprecision : b.precision = Number.readPrecision)
    (hzero : b.mantissa ≠ 0) (hrange : b.InRange) (hb : ¬b.Lopsided)
    (hplaces : b.shortestDecimal.places ≤ Number.exactPlaces) :
    -maxExponent - 1 ≤ -(b.shortestDecimal.places : ℤ) + bitLength b.textDigits ∧
      -(b.shortestDecimal.places : ℤ) + bitLength b.textDigits ≤ maxExponent := by
  have hpos := bitLength_pos (textDigits_ne_zero hzero)
  rw [Number.exactPlaces] at hplaces
  by_cases hwhole : b.shortestDecimal.places = 0
  · -- the leading bit of the text is that of the number
    have hvalue := value_of_places hwhole
    have hplace := leading_eq (nearest_shortestDecimal h hzero hb)
      ((bitLength_pos hzero).trans_le h.fits) (textDigits_ne_zero hzero) hvalue.ge
      (by rw [hvalue]; simp)
    have hfits := h.fits
    obtain ⟨hlow, hhigh⟩ := hrange
    rw [room] at hplace
    omega
  · have hlt := textDigits_lt h hzero hb hwhole
    rw [hprecision, Number.readPrecision] at hlt
    rw [maxExponent]
    omega

/-- The text of a number as a numeral. -/
def numeral (b : Binary) : Numeral where
  negative := b.negative
  whole := chars b.shortestDecimal.wholePart
  fraction := chars b.shortestDecimal.fractionPart
  exponent := 0
  binaryExponent := false

theorem digits_numeral (b : Binary) : b.numeral.digits = b.textDigits := b.decimalValue_text

theorem length_fraction_numeral (b : Binary) :
    b.numeral.fraction.length = b.shortestDecimal.places := by
  simp [numeral, chars, length_fractionPart]

theorem scaled_numeral (h : b.Standard) (hprecision : b.precision = Number.readPrecision)
    (hzero : b.mantissa ≠ 0) (hb : ¬b.Lopsided)
    (hplaces : b.shortestDecimal.places ≤ Number.exactPlaces) : b.numeral.scaled = b := by
  have hexponent : b.numeral.exponent = 0 := rfl
  have hbinary : b.numeral.binaryExponent = false := rfl
  have hnegative : b.numeral.negative = b.negative := rfl
  simp only [Numeral.scaled, Numeral.fives, digits_numeral, length_fraction_numeral, hexponent,
    hbinary, hnegative, zero_sub, Bool.false_eq_true, if_false, beq_iff_eq, neg_eq_zero, Int.natAbs_neg,
    Int.natAbs_natCast, ← hprecision]
  split
  · rename_i hwhole
    have hwhole : b.shortestDecimal.places = 0 := by exact_mod_cast hwhole
    simpa [hwhole] using rounded_textDigits h hzero hb hwhole
  · have hfive := powerOfFive_eq (Number.bitLength_five_pow hplaces)
      (hplaces.trans_lt (by decide))
    rw [← hprecision] at hfive
    rw [if_pos (by omega), hfive, ofRatio_five h hzero hb]
    simp

/-- **A number is read back from its text**, unless it is a lopsided power of
two or its text has too many places. -/
theorem parse?_text (h : b.Standard) (hprecision : b.precision = Number.readPrecision)
    (hrange : b.mantissa ≠ 0 → b.InRange) (hb : ¬b.Lopsided)
    (hplaces : b.shortestDecimal.places ≤ Number.exactPlaces) :
    Number.parse? b.text = some (.finite b) := by
  have hparse : Numeral.parse? b.text = some b.numeral := b.numeral_text
  rw [Number.parse?_eq_numeral (Number.notMem_text b), hparse, Option.bind_some,
    Numeral.value?_eq, digits_numeral]
  by_cases hzero : b.mantissa = 0
  · have hexponent := h.zero hzero
    rw [if_pos (textDigits_eq_zero.mpr hzero), ← hprecision, zero, ← hzero, ← hexponent]
    rfl
  · obtain ⟨hlow, hhigh⟩ := hrange hzero
    have htop := top_textDigits h hprecision hzero (hrange hzero) hb hplaces
    have htop' : b.numeral.top = -(b.shortestDecimal.places : ℤ) + bitLength b.textDigits := by
      rw [Numeral.top, digits_numeral, length_fraction_numeral]
      simp [numeral]
    rw [if_neg (textDigits_ne_zero hzero), htop', if_neg (by omega),
      scaled_numeral h hprecision hzero hb hplaces, Numeral.limited, if_neg (by omega),
      if_neg (by omega)]

end Binary

/-! ### Numbers that are read -/

namespace Numeral

theorem precision_scaled (t : Numeral) : t.scaled.precision = Number.readPrecision := by
  rw [scaled]
  split
  · rw [Binary.precision_rounded]
  split
  · rw [Binary.precision_ofRatio]
  · rw [Binary.precision_rounded]

theorem standard_scaled {t : Numeral} (h : t.digits ≠ 0) : t.scaled.Standard := by
  have hprecision : 0 < Number.readPrecision := by decide
  rw [scaled]
  split
  · exact Binary.standard_rounded _ _ _ hprecision _
  split
  · have hfive := mantissa_powerOfFive_ne_zero t.fives.natAbs
      (by omega : 0 < Number.readPrecision + 64)
    have hstandard := Binary.standard_ofRatio t.negative t.digits
      (powerOfFive t.fives.natAbs (Number.readPrecision + 64)).mantissa hprecision
    have hne := Binary.mantissa_ofRatio_ne_zero h hfive t.negative hprecision
    exact ⟨hstandard.odd, hstandard.fits, fun hzero => absurd hzero hne⟩
  · exact Binary.standard_rounded _ _ _ hprecision _

end Numeral

/-- The numbers that a text can be read as. -/
structure Binary.IsRead (b : Binary) : Prop where
  standard : b.Standard
  precision : b.precision = Number.readPrecision
  inRange : b.mantissa ≠ 0 → b.InRange

theorem Binary.isRead_zero (negative : Bool) : (zero negative Number.readPrecision).IsRead :=
  ⟨standard_zero negative _, rfl, fun h => absurd rfl h⟩

theorem Binary.isRead_of_parse? {s : String} {b : Binary}
    (h : Number.parse? s = some (.finite b)) : b.IsRead := by
  have hvalue : ∀ {t : Numeral}, t.value? = some (.finite b) → b.IsRead := by
    intro t ht
    rw [Numeral.value?_eq] at ht
    split at ht
    · obtain rfl := Number.finite.inj (Option.some_inj.mp ht)
      exact isRead_zero t.negative
    rename_i hdigits
    split at ht
    · cases ht
    rw [Option.some_inj, Numeral.limited] at ht
    split at ht
    · cases ht
    split at ht
    · obtain rfl := Number.finite.inj ht
      exact isRead_zero t.negative
    · obtain rfl := Number.finite.inj ht
      exact ⟨Numeral.standard_scaled hdigits, t.precision_scaled, fun _ => ⟨by omega, by omega⟩⟩
  unfold Number.parse? at h
  split at h
  all_goals try cases h
  obtain ⟨t, -, ht⟩ := Option.bind_eq_some_iff.mp h
  exact hvalue ht

/-! ### All numbers -/

namespace Number

/-- The number is one that a text can be read as. -/
def IsRead : Number → Prop
  | finite b => b.IsRead
  | infinite _ => True

/-- The number is a power of two whose text need not be exact. -/
def Lopsided : Number → Prop
  | finite b => b.Lopsided
  | infinite _ => False

instance : DecidablePred Lopsided
  | finite b => inferInstanceAs (Decidable b.Lopsided)
  | infinite _ => inferInstanceAs (Decidable False)

/-- The places after the point in the text of the number. -/
def places : Number → Nat
  | finite b => b.shortestDecimal.places
  | infinite _ => 0

/-- The number has a text in documents, which is read back as the number. -/
def ReadsBack : Number → Prop
  | finite b => parse? b.text = some (finite b)
  | infinite _ => False

variable {m n : Number}

theorem isRead_of_parse? {s : String} (h : parse? s = some n) : n.IsRead := by
  cases n with
  | finite b => exact Binary.isRead_of_parse? h
  | infinite _ => trivial

/-- **Numbers that are read have different texts**, but for some powers of
two. -/
theorem text_inj (hm : m.IsRead) (hn : n.IsRead) (hm' : ¬m.Lopsided) (hn' : ¬n.Lopsided)
    (h : m.text = n.text) : m = n := by
  have hinfinite : ∀ b : Binary, ∀ negative, b.text ≠ (infinite negative).text := by
    intro b negative h
    refine notMem_text b ?_
    rw [h]
    cases negative <;> decide
  cases m with
  | finite b =>
    cases n with
    | finite c =>
      have hprecision := hm.precision.trans hn.precision.symm
      rw [Binary.text_inj hm.standard hn.standard hprecision hm' hn' h]
    | infinite negative => exact absurd h (hinfinite b negative)
  | infinite negative =>
    cases n with
    | finite c => exact absurd h.symm (hinfinite c negative)
    | infinite negative' =>
      have hsign : ∀ a b, (infinite a).text = (infinite b).text → a = b := by decide
      rw [hsign negative negative' h]

/-- **Numbers that are read are read back**, but for infinities, some powers
of two and texts with very many places. -/
theorem readsBack_of_places (h : n.IsRead) (hfinite : n.isInfinite = false) (hn : ¬n.Lopsided)
    (hplaces : n.places ≤ exactPlaces) : n.ReadsBack := by
  cases n with
  | finite b => exact b.parse?_text h.standard h.precision h.inRange hn hplaces
  | infinite _ => cases hfinite

theorem ReadsBack.isInfinite (h : n.ReadsBack) : n.isInfinite = false := by
  cases n with
  | finite _ => rfl
  | infinite _ => exact h.elim

/-! ### A power of two that is not read back -/

/-- The number `2 ^ 513`. -/
def power : Binary := ⟨false, 1, 513, readPrecision⟩

/-- The number before it, `2 ^ 513 - 2`. -/
def neighbour : Binary := ⟨false, 2 ^ 512 - 1, 1, readPrecision⟩

/-- All digits of `2 ^ 513`. -/
def powerText : String :=
  "268156158598851941991480499964116922549587316411847867554471228874435280601470" ++
    "93953603748596333806855380063716372972101707507765623893139892867298012168192"

/-- All digits of `2 ^ 513 - 2`. -/
def neighbourText : String :=
  "268156158598851941991480499964116922549587316411847867554471228874435280601470" ++
    "93953603748596333806855380063716372972101707507765623893139892867298012168190"

theorem texts_eq : powerText = wholeText false (2 ^ 513) ∧
    neighbourText = wholeText false (2 ^ 513 - 2) := by
  -- lists of characters are compared faster than texts
  have hpower : powerText = String.ofList _ ++ String.ofList _ := rfl
  have hneighbour : neighbourText = String.ofList _ ++ String.ofList _ := rfl
  rw [hpower, hneighbour, ← String.ofList_append, ← String.ofList_append, wholeText, wholeText]
  exact ⟨congrArg String.ofList (by decide +kernel), congrArg String.ofList (by decide +kernel)⟩

theorem isNumber_powerText : Json.IsNumber powerText := by
  rw [texts_eq.1]
  exact isNumber_wholeText _ _

/-- A whole number is read from its digits. -/
theorem parse?_wholeText_eq (n : Nat) : parse? (wholeText false n) =
    Numeral.value? ⟨false, Nat.toDigits 10 n, [], 0, false⟩ := by
  have hf : 'f' ∉ (wholeText false n).toList := by
    rw [wholeText, String.toList_ofList, if_neg (by decide), List.nil_append]
    exact fun hmem => absurd (Text.isDigit_of_mem_toDigits _ hmem) (by decide)
  rw [parse?_eq_numeral hf, numeral_wholeText, Option.bind_some]

theorem value?_digits :
    Numeral.value? ⟨false, Nat.toDigits 10 (2 ^ 513), [], 0, false⟩ = some (finite power) ∧
    Numeral.value? ⟨false, Nat.toDigits 10 (2 ^ 513 - 2), [], 0, false⟩ =
      some (finite neighbour) := by
  rw [Numeral.value?, Numeral.value?, List.append_nil, List.append_nil, decimalValue_toDigits,
    decimalValue_toDigits]
  refine ⟨?_, ?_⟩ <;> decide +kernel

theorem parse?_powerText : parse? powerText = some (finite power) := by
  rw [texts_eq.1, parse?_wholeText_eq]
  exact value?_digits.1

theorem parse?_neighbourText : parse? neighbourText = some (finite neighbour) := by
  rw [texts_eq.2, parse?_wholeText_eq]
  exact value?_digits.2

theorem texts_of_power : power.text = neighbourText ∧ neighbour.text = neighbourText := by
  rw [texts_eq.2, wholeText, Binary.text, Binary.text]
  exact ⟨congrArg String.ofList (by decide +kernel), congrArg String.ofList (by decide +kernel)⟩

theorem power_ne_neighbour : power ≠ neighbour :=
  fun h => absurd (congrArg Binary.exponent h) (by decide)

theorem text_power : power.text = neighbourText := texts_of_power.1

theorem text_neighbour : neighbour.text = neighbourText := texts_of_power.2

end Number

end SolidityCanvas
