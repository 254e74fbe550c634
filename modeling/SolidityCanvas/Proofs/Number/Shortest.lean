/-
Where the shortest expansion lies.

* `shortestFrom_between`: it lies between the two bounds, on a bound only if it
  may;
* `shortestFrom_grid`: it has no more places than the expansion it shortens.
-/
import SolidityCanvas.Proofs.Number.Expansion

namespace SolidityCanvas.Decimal

variable {d lower upper : Decimal} {inclusive : Bool}

/-- Whether cutting off after place `i` stays above the lower bound. -/
def mayRoundDown (d lower : Decimal) (inclusive : Bool) (i : Nat) : Bool :=
  lower.digit i != d.digit i || (inclusive && i + 1 == lower.digits.length)

/-- Whether raising place `i` stays below the upper bound. -/
def mayRoundUp (d upper : Decimal) (inclusive : Bool) (i : Nat) : Bool :=
  d.digit i != upper.digit i &&
    (inclusive || d.digit i + 1 < upper.digit i || i + 1 < upper.digits.length)

/-- The walk ends at the first place where one of the two will do. -/
theorem shortestFrom_cases (d lower upper : Decimal) (inclusive : Bool) :
    ∀ places i, i + places = d.digits.length →
      (∀ j < i, ¬ mayRoundDown d lower inclusive j ∧ ¬ mayRoundUp d upper inclusive j) →
      d.shortestFrom lower upper inclusive places i = d ∨
      ∃ k < d.digits.length,
        (∀ j < k, ¬ mayRoundDown d lower inclusive j ∧ ¬ mayRoundUp d upper inclusive j) ∧
        (mayRoundDown d lower inclusive k ∧
            d.shortestFrom lower upper inclusive places i = d.roundDown (k + 1) ∨
          mayRoundUp d upper inclusive k ∧
            d.shortestFrom lower upper inclusive places i = d.roundUp (k + 1)) := by
  intro places
  induction places with
  | zero => exact fun i _ _ => Or.inl rfl
  | succ places ih =>
    intro i hi hbefore
    have hstep : d.shortestFrom lower upper inclusive (places + 1) i =
        if mayRoundDown d lower inclusive i && mayRoundUp d upper inclusive i then d.round (i + 1)
        else if mayRoundDown d lower inclusive i then d.roundDown (i + 1)
        else if mayRoundUp d upper inclusive i then d.roundUp (i + 1)
        else d.shortestFrom lower upper inclusive places (i + 1) := rfl
    rw [hstep]
    by_cases hdown : mayRoundDown d lower inclusive i <;>
      by_cases hup : mayRoundUp d upper inclusive i
    · -- the nearer of the two
      rw [if_pos (by simp [hdown, hup]), round]
      split
      · exact Or.inl rfl
      split
      · exact Or.inr ⟨i, by omega, hbefore, Or.inr ⟨hup, rfl⟩⟩
      · exact Or.inr ⟨i, by omega, hbefore, Or.inl ⟨hdown, rfl⟩⟩
    · rw [if_neg (by simp [hup]), if_pos hdown]
      exact Or.inr ⟨i, by omega, hbefore, Or.inl ⟨hdown, rfl⟩⟩
    · rw [if_neg (by simp [hdown]), if_neg hdown, if_pos hup]
      exact Or.inr ⟨i, by omega, hbefore, Or.inr ⟨hup, rfl⟩⟩
    · rw [if_neg (by simp [hdown]), if_neg hdown, if_neg hup]
      refine ih (i + 1) (by omega) fun j hj => ?_
      rcases Nat.lt_succ_iff_lt_or_eq.mp hj with hj | rfl
      · exact hbefore j hj
      · exact ⟨hdown, hup⟩

theorem head_congr {c d : Decimal} {n : Nat} (h : ∀ j < n, c.digit j = d.digit j) :
    c.head n = d.head n := by
  induction n with
  | zero => rfl
  | succ n ih => rw [head, head, ih fun j hj => h j (by omega), h n (by omega)]

/-- The first place where digits differ decides. -/
theorem head_add_le {c d : Decimal} {k m : Nat} (hsame : c.head k = d.head k)
    (h : c.digit k + m ≤ d.digit k) (j : ℤ) :
    ((c.head (k + 1) : ℚ) + m) * 10 ^ j ≤ d.head (k + 1) * 10 ^ j := by
  have hhead : c.head (k + 1) + m ≤ d.head (k + 1) := by
    rw [head, head, hsame]
    omega
  have hheadQ : (c.head (k + 1) : ℚ) + m ≤ d.head (k + 1) := by exact_mod_cast hhead
  exact mul_le_mul_of_nonneg_right hheadQ (unit_pos j).le

/-! ### Above the lower bound -/

theorem point_le_of_lt (hlower : lower.Tidy) (hd : d.Proper) (h : lower.value < d.value) :
    lower.point ≤ d.point := by
  have hlt := (hlower.unit_le_value.trans_lt h).trans (value_lt_unit hd)
  have hpoint := (zpow_lt_zpow_iff_right₀ (by norm_num : (1 : ℚ) < 10)).mp hlt
  omega

/-- What is cut off where it may be is above the lower bound. -/
theorem lower_le_head (hlower : lower.Tidy) (hd : d.Tidy) (hlt : lower.value < d.value) {k : Nat}
    (hbefore : ∀ j < k, ¬ mayRoundDown d lower inclusive j)
    (hk : mayRoundDown d lower inclusive k) :
    lower.value < d.head (k + 1) * 10 ^ (d.point - (k + 1 : ℕ)) ∨
      inclusive ∧ lower.value = d.head (k + 1) * 10 ^ (d.point - (k + 1 : ℕ)) := by
  have hu := unit_pos (d.point - (k + 1 : ℕ))
  rcases (point_le_of_lt hlower hd.proper hlt).lt_or_eq with hpoint | hpoint
  · -- a power of ten lies between the two
    left
    have hpow : (10 : ℚ) ^ lower.point ≤ 10 ^ k * 10 ^ (d.point - (k + 1 : ℕ)) := by
      rw [← zpow_natCast, ← zpow_add₀ (by norm_num)]
      refine zpow_le_zpow_right₀ (by norm_num) ?_
      push_cast
      omega
    have hhead : (10 ^ k : ℚ) ≤ d.head (k + 1) := by exact_mod_cast hd.pow_le_head k
    calc lower.value < 10 ^ lower.point := value_lt_unit hlower.proper
      _ ≤ 10 ^ k * 10 ^ (d.point - (k + 1 : ℕ)) := hpow
      _ ≤ _ := by gcongr
  · have hsame : lower.head k = d.head k := by
      refine head_congr fun j hj => ?_
      have hnot := hbefore j hj
      simp only [mayRoundDown, Bool.or_eq_true, bne_iff_ne, ne_eq, not_or, not_not] at hnot
      exact hnot.1
    have hvalue := value_lt_head_succ hlower.proper (k + 1)
    rw [hpoint] at hvalue
    by_cases hdigit : lower.digit k = d.digit k
    · -- the lower bound ends here
      right
      have hend : inclusive = true ∧ k + 1 = lower.digits.length := by
        simpa [mayRoundDown, hdigit] using hk
      refine ⟨hend.1, ?_⟩
      rw [value_eq_head hend.2.ge, head, head, hsame, hdigit, hpoint]
    · left
      have hless : lower.digit k < d.digit k := by
        by_contra hge
        have hhead := head_add_le (m := 1) hsame.symm (by omega) (d.point - (k + 1 : ℕ))
        have hle := lower.head_le_value (k + 1)
        have hgt := value_lt_head_succ hd.proper (k + 1)
        rw [hpoint] at hle
        push_cast at hhead hle hgt
        linarith
      have hhead := head_add_le (m := 1) hsame hless (d.point - (k + 1 : ℕ))
      push_cast at hhead hvalue ⊢
      linarith

/-! ### Below the upper bound -/

/-- What is raised where it may be is below the upper bound. -/
theorem head_succ_le_upper (hupper : upper.Tidy) (hd : d.Tidy) (hlt : d.value < upper.value)
    {k : Nat} (hbefore : ∀ j < k, ¬ mayRoundUp d upper inclusive j)
    (hk : mayRoundUp d upper inclusive k) :
    (d.head (k + 1) + 1) * 10 ^ (d.point - (k + 1 : ℕ)) < upper.value ∨
      inclusive ∧ (d.head (k + 1) + 1) * 10 ^ (d.point - (k + 1 : ℕ)) ≤ upper.value := by
  have hu := unit_pos (d.point - (k + 1 : ℕ))
  simp only [mayRoundUp, Bool.and_eq_true, bne_iff_ne, ne_eq, Bool.or_eq_true,
    decide_eq_true_eq] at hk
  obtain ⟨hne, hroom⟩ := hk
  rcases (point_le_of_lt hd hupper.proper hlt).lt_or_eq with hpoint | hpoint
  · -- a power of ten lies between the two
    have hpow : (10 : ℚ) ^ (k + 1) * 10 ^ (d.point - (k + 1 : ℕ)) = 10 ^ d.point := by
      rw [← zpow_natCast, ← zpow_add₀ (by norm_num)]
      congr 1
      push_cast
      ring
    have hten : (10 : ℚ) ^ d.point ≤ 10 ^ (upper.point - 1) :=
      zpow_le_zpow_right₀ (by norm_num) (by omega)
    have hhead : (d.head (k + 1) + 1 : ℚ) ≤ 10 ^ (k + 1) := by
      exact_mod_cast head_lt hd.proper (k + 1)
    have hle : (d.head (k + 1) + 1) * (10 : ℚ) ^ (d.point - (k + 1 : ℕ)) ≤ 10 ^ d.point := by
      rw [← hpow]
      gcongr
    rcases hroom with (hinc | hdigit) | hlen
    · exact Or.inr ⟨hinc, (hle.trans hten).trans hupper.unit_le_value⟩
    · -- the raised digit is not a nine
      left
      have hsmall : d.head (k + 1) + 1 < 10 ^ (k + 1) := by
        have hdigit' := hupper.proper.digit_lt k
        have hlow := head_lt hd.proper k
        rw [head, pow_succ]
        omega
      have hsmallQ : (d.head (k + 1) + 1 : ℚ) < 10 ^ (k + 1) := by exact_mod_cast hsmall
      have hlt' : (d.head (k + 1) + 1) * (10 : ℚ) ^ (d.point - (k + 1 : ℕ)) < 10 ^ d.point := by
        rw [← hpow]
        gcongr
      exact (hlt'.trans_le hten).trans_le hupper.unit_le_value
    · -- the upper bound is more than the power of ten
      left
      have hone : (1 : ℚ) ≤ upper.head 1 := by exact_mod_cast hupper.pow_le_head 0
      have hmore := hupper.head_lt_value (n := 1) (by omega)
      have hu' := unit_pos (upper.point - 1)
      push_cast at hmore
      have : (10 : ℚ) ^ (upper.point - 1) ≤ upper.head 1 * 10 ^ (upper.point - 1) := by nlinarith
      linarith
  · by_cases hall : ∀ j < k, d.digit j = upper.digit j
    · have hsame : d.head k = upper.head k := head_congr hall
      have hle := upper.head_le_value (k + 1)
      have hgt := value_lt_head_succ hupper.proper (k + 1)
      rw [← hpoint] at hle hgt
      have hmore : d.digit k < upper.digit k := by
        by_contra hge
        have hhead := head_add_le (m := 1) hsame.symm (by omega) (d.point - (k + 1 : ℕ))
        have hle := d.head_le_value (k + 1)
        push_cast at hhead hle hgt
        linarith
      have hhead := head_add_le (m := 1) hsame hmore (d.point - (k + 1 : ℕ))
      rcases hroom with (hinc | hdigit) | hlen
      · right
        push_cast at hhead hle ⊢
        exact ⟨hinc, hhead.trans hle⟩
      · left
        have hhead := head_add_le (m := 2) hsame hdigit (d.point - (k + 1 : ℕ))
        push_cast at hhead hle hu ⊢
        linarith
      · left
        have hlt' := hupper.head_lt_value hlen
        rw [← hpoint] at hlt'
        push_cast at hhead hlt' ⊢
        exact hhead.trans_lt hlt'
    · -- the upper bound has ended before, and raising was not allowed there
      push Not at hall
      obtain ⟨j, hj, hdiff⟩ := hall
      have hnot := hbefore j hj
      simp only [mayRoundUp, Bool.and_eq_true, bne_iff_ne, ne_eq, Bool.or_eq_true,
        decide_eq_true_eq, not_and, not_or, Bool.not_eq_true] at hnot
      obtain ⟨⟨hinc, -⟩, hlen⟩ := hnot hdiff
      have hzero : upper.digit k = 0 := by
        rw [digit, List.getD_eq_getElem?_getD, List.getElem?_eq_none (by omega), Option.getD_none]
      rcases hroom with (hinc' | hdigit) | hlen'
      · rw [hinc] at hinc'
        cases hinc'
      · omega
      · omega

/-! ### The shortest expansion -/

theorem Tidy.roundDown (h : d.Tidy) (n : Nat) : (d.roundDown (n + 1)).Tidy := by
  refine tidy_dropZeros (fun x hx => h.proper x (List.mem_of_mem_take hx)) ?_ d.point
  have hled := h.led
  obtain ⟨x, ds, hds⟩ := List.exists_cons_of_ne_nil h.nonempty
  simpa [digit, hds] using hled

theorem Tidy.roundUp (h : d.Tidy) (n : Nat) : (d.roundUp (n + 1)).Tidy := by
  have hproper := h.proper.roundUp (n + 1)
  rw [Decimal.roundUp] at hproper ⊢
  split at hproper
  · exact ⟨hproper, by simp, by simp [digit], by simp [digit]⟩
  · rename_i last rest hcons
    refine ⟨hproper, by simp, ?_, by simp [digit]⟩
    -- the first digit is raised, or it is the one there was
    obtain ⟨x, ds, hds⟩ := List.exists_cons_of_ne_nil h.nonempty
    have hx : x ≠ 0 := by simpa [digit, hds] using h.led
    cases rest using List.reverseRecOn with
    | nil => simp [digit]
    | append_singleton rest y =>
      have hsuffix : (last :: (rest ++ [y])).IsSuffix (d.digits.take (n + 1)).reverse :=
        hcons ▸ List.dropWhile_suffix _
      obtain ⟨t, ht⟩ := hsuffix
      have hreverse := congrArg List.reverse ht
      simp only [hds, List.take_succ_cons, List.reverse_append, List.reverse_cons,
        List.reverse_reverse, List.append_assoc, List.cons_append, List.nil_append,
        List.reverse_nil, List.cons.injEq] at hreverse
      simp [digit, hreverse.1, hx]

/-- The shortest expansion is that of the number, or that of a neighbour on
a coarser grid. -/
theorem shortestFrom_rounds (d lower upper : Decimal) (inclusive : Bool) :
    d.shortestFrom lower upper inclusive d.digits.length 0 = d ∨
    ∃ k < d.digits.length,
      d.shortestFrom lower upper inclusive d.digits.length 0 = d.roundDown (k + 1) ∨
      d.shortestFrom lower upper inclusive d.digits.length 0 = d.roundUp (k + 1) := by
  rcases shortestFrom_cases d lower upper inclusive d.digits.length 0 (Nat.zero_add _)
    (fun j hj => absurd hj (Nat.not_lt_zero j)) with h | ⟨k, hk, -, ⟨-, h⟩ | ⟨-, h⟩⟩
  · exact Or.inl h
  · exact Or.inr ⟨k, hk, Or.inl h⟩
  · exact Or.inr ⟨k, hk, Or.inr h⟩

theorem Tidy.shortestFrom (h : d.Tidy) (lower upper : Decimal) (inclusive : Bool) :
    (d.shortestFrom lower upper inclusive d.digits.length 0).Tidy := by
  rcases shortestFrom_rounds d lower upper inclusive with heq | ⟨k, -, heq | heq⟩
  · rw [heq]
    exact h
  · rw [heq]
    exact h.roundDown k
  · rw [heq]
    exact h.roundUp k

/-- **The shortest expansion lies between the bounds**, on one of them only if
it may. -/
theorem shortestFrom_between (hd : d.Tidy) (hlower : lower.Tidy) (hupper : upper.Tidy)
    (hl : lower.value < d.value) (hu : d.value < upper.value) :
    (lower.value < (d.shortestFrom lower upper inclusive d.digits.length 0).value ∧
      (d.shortestFrom lower upper inclusive d.digits.length 0).value < upper.value) ∨
    inclusive ∧ lower.value ≤ (d.shortestFrom lower upper inclusive d.digits.length 0).value ∧
      (d.shortestFrom lower upper inclusive d.digits.length 0).value ≤ upper.value := by
  rcases shortestFrom_cases d lower upper inclusive d.digits.length 0 (Nat.zero_add _)
    (fun j hj => absurd hj (Nat.not_lt_zero j)) with h | ⟨k, hk, hbefore, ⟨hdown, h⟩ | ⟨hup, h⟩⟩
  · rw [h]
    exact Or.inl ⟨hl, hu⟩
  · rw [h, value_roundDown hk]
    have hle := (d.head_le_value (k + 1)).trans_lt hu
    rcases lower_le_head hlower hd hl (fun j hj => (hbefore j hj).1) hdown with hlt | ⟨hinc, heq⟩
    · exact Or.inl ⟨hlt, hle⟩
    · exact Or.inr ⟨hinc, heq.le, hle.le⟩
  · rw [h, value_roundUp hk]
    have hle := hl.trans (value_lt_head_succ hd.proper (k + 1))
    rcases head_succ_le_upper hupper hd hu (fun j hj => (hbefore j hj).2) hup with hlt | ⟨hinc, hle'⟩
    · exact Or.inl ⟨hle, hlt⟩
    · exact Or.inr ⟨hinc, hle.le, hle'⟩

theorem length_roundUp_le {n : Nat} :
    ((d.roundUp n).digits.length : ℤ) - (d.roundUp n).point ≤ max (n - d.point) (-d.point) := by
  rw [roundUp]
  split
  · simp
  · rename_i last rest hcons
    have hle := (List.dropWhile_sublist (l := (d.digits.take n).reverse) (· == 9)).length_le
    rw [hcons, List.length_reverse, List.length_take, List.length_cons] at hle
    simp only [List.length_reverse, List.length_cons]
    push_cast
    omega

/-- The shortest expansion lies on the grid of the one it shortens. -/
theorem shortestFrom_grid (d lower upper : Decimal) (inclusive : Bool) :
    (d.shortestFrom lower upper inclusive d.digits.length 0).places ≤ d.places ∧
      ∃ n : ℕ, (d.shortestFrom lower upper inclusive d.digits.length 0).value =
        n * 10 ^ (d.point - d.digits.length) := by
  have hscale : ∀ {k : ℕ}, k ≤ d.digits.length → ∀ m : ℕ,
      (m : ℚ) * 10 ^ (d.point - k) =
        (m * 10 ^ (d.digits.length - k) : ℕ) * 10 ^ (d.point - d.digits.length) := by
    intro k hk m
    push_cast
    rw [mul_assoc, ← zpow_natCast, ← zpow_add₀ (by norm_num)]
    congr 2
    omega
  rcases shortestFrom_rounds d lower upper inclusive with heq | ⟨k, hk, heq | heq⟩
  · rw [heq]
    exact ⟨le_rfl, _, rfl⟩
  · rw [heq, value_roundDown hk, hscale hk]
    refine ⟨?_, _, rfl⟩
    have hle := length_dropZeros_le (d.digits.take (k + 1))
    rw [List.length_take] at hle
    simp only [places, roundDown]
    omega
  · rw [heq, value_roundUp hk]
    refine ⟨?_, (d.head (k + 1) + 1) * 10 ^ (d.digits.length - (k + 1)), ?_⟩
    · have hle := length_roundUp_le (d := d) (n := k + 1)
      simp only [places]
      push_cast at hle
      omega
    · have hgrid := hscale hk (d.head (k + 1) + 1)
      push_cast at hgrid ⊢
      exact hgrid

end SolidityCanvas.Decimal
