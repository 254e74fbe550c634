/-
Numbers written as calls.

Where a property holds an infinity, all its numbers are written as the calls
that would construct them: whole numbers and doubles with an exponent if they
are large or small, all others as their texts. Doubles have the digits that
53 bits need, so it is there that a power of two can be taken for a neighbour
(`LopsidedDouble`). Apart from that, different numbers have different calls
(`display_inj`).
-/
import SolidityCanvas.Proofs.Number.ReadBack

namespace SolidityCanvas

open Decimal

namespace Decimal

variable {d : Decimal}

/-! ### Decimals with an exponent -/

/-- The exponent, with a sign and at least two digits. -/
def exponentTail (e : Int) : List Char :=
  'e' :: (if e < 0 then '-' else '+') ::
    ((if (Nat.toDigits 10 e.natAbs).length < 2 then ['0'] else []) ++ Nat.toDigits 10 e.natAbs)

theorem exponentTail_inj {e f : Int} (h : exponentTail e = exponentTail f) : e = f := by
  have hvalue : ∀ e : Int, decimalValue ((if (Nat.toDigits 10 e.natAbs).length < 2 then ['0']
      else []) ++ Nat.toDigits 10 e.natAbs) = e.natAbs := by
    intro e
    split
    · exact decimalValue_toDigits e.natAbs
    · exact decimalValue_toDigits e.natAbs
  obtain ⟨-, h⟩ := List.cons_eq_cons.mp h
  obtain ⟨hsign, h⟩ := List.cons_eq_cons.mp h
  have habs := congrArg decimalValue h
  rw [hvalue, hvalue] at habs
  have hnegative : e < 0 ↔ f < 0 := by
    by_cases he : e < 0 <;> by_cases hf : f < 0 <;> simp [he, hf] at hsign ⊢
  omega

/-- One digit before the point, and all others after it. -/
theorem spelled_scientific (h : d.Tidy) (negative : Bool) :
    (if negative then ['-'] else []) ++ d.scientific 'e' (d.digits.length - 1) =
      spelled negative [d.digit 0] d.digits.tail (exponentTail (d.point - 1)) := by
  obtain ⟨x, rest, hx⟩ := List.exists_cons_of_ne_nil h.nonempty
  have hfraction : (List.range rest.length).map (fun i => d.digit (i + 1)) = rest := by
    refine List.ext_getElem (by simp) fun i hi hi' => ?_
    simp [digit, hx, hi']
  have hempty : (if rest.length == 0 then [] else '.' :: chars rest) =
      if rest = [] then [] else '.' :: chars rest := by
    simp
  simp only [scientific, hx, List.length_cons, Nat.add_sub_cancel, hfraction, hempty, spelled,
    List.tail_cons, List.isEmpty_cons, Bool.false_eq_true, if_false, List.append_assoc]
  rfl

theorem general_eq (d : Decimal) : d.general 'e' d.digits.length true =
    if d.point - 1 < -4 ∨ 6 ≤ d.point - 1 then d.scientific 'e' (d.digits.length - 1)
    else d.fixed d.places := by
  simp [general, places]

end Decimal

namespace Binary

variable {b c : Binary} {negative negative' : Bool}

/-- The digits of a number in the shorter style, with a sign before them. -/
def generalChars (b : Binary) (negative : Bool) : List Char :=
  (if negative then ['-'] else []) ++
    b.shortestDecimal.general 'e' b.shortestDecimal.digits.length true

/-- In the shorter style, a number is spelled with an exponent or without. -/
theorem generalChars_cases (b : Binary) (negative : Bool) :
    b.generalChars negative =
      spelled negative b.shortestDecimal.wholePart b.shortestDecimal.fractionPart [] ∨
    b.shortestDecimal.Tidy ∧ b.generalChars negative = spelled negative
      [b.shortestDecimal.digit 0] b.shortestDecimal.digits.tail
      (exponentTail (b.shortestDecimal.point - 1)) := by
  rw [generalChars, general_eq]
  by_cases hpoint : b.shortestDecimal.point - 1 < -4 ∨ 6 ≤ b.shortestDecimal.point - 1
  · have hzero : b.mantissa ≠ 0 := by
      intro hzero
      rw [shortestDecimal_zero hzero] at hpoint
      simp at hpoint
    have htidy := tidy_shortestDecimal hzero
    rw [if_pos hpoint]
    exact .inr ⟨htidy, spelled_scientific htidy negative⟩
  · rw [if_neg hpoint]
    exact .inl (spelled_fixed _ negative)

theorem whole_digit (h : b.shortestDecimal.Tidy) : Whole [b.shortestDecimal.digit 0] :=
  ⟨by simpa using h.proper.digit_lt 0, .inr (by simpa using h.led)⟩

theorem proper_tail (h : b.shortestDecimal.Tidy) : ∀ x ∈ b.shortestDecimal.digits.tail, x < 10 :=
  fun x hx => h.proper x (List.mem_of_mem_tail hx)

/-- **The digits in the shorter style determine the value.** -/
theorem value_eq_of_generalChars_eq (h : b.generalChars negative = c.generalChars negative') :
    negative = negative' ∧ b.shortestDecimal.value = c.shortestDecimal.value := by
  have htail : ∀ e, ∀ x ∈ (exponentTail e).head?, x = 'e' := by
    intro e x hx
    simpa [exponentTail] using hx.symm
  have hnil : ∀ x ∈ ([] : List Char).head?, x = 'e' := by simp
  rcases b.generalChars_cases negative with hb | ⟨htidy, hb⟩ <;>
    rcases c.generalChars_cases negative' with hc | ⟨htidy', hc⟩ <;> rw [hb, hc] at h
  · exact value_eq_of_spelled_eq b.whole_shortestDecimal c.whole_shortestDecimal
      b.proper_shortestDecimal.fractionPart c.proper_shortestDecimal.fractionPart h
  · have hparts := spelled_inj b.whole_shortestDecimal (whole_digit htidy')
      b.proper_shortestDecimal.fractionPart (proper_tail htidy') hnil (htail _) h
    exact absurd hparts.2.2.2 (by simp [exponentTail])
  · have hparts := spelled_inj (whole_digit htidy) c.whole_shortestDecimal (proper_tail htidy)
      c.proper_shortestDecimal.fractionPart (htail _) hnil h
    exact absurd hparts.2.2.2 (by simp [exponentTail])
  · obtain ⟨hnegative, hhead, hrest, hexponent⟩ := spelled_inj (whole_digit htidy)
      (whole_digit htidy') (proper_tail htidy) (proper_tail htidy') (htail _) (htail _) h
    have hpoint := exponentTail_inj hexponent
    have hdigits : b.shortestDecimal.digits = c.shortestDecimal.digits := by
      obtain ⟨x, rest, hx⟩ := List.exists_cons_of_ne_nil htidy.nonempty
      obtain ⟨y, rest', hy⟩ := List.exists_cons_of_ne_nil htidy'.nonempty
      rw [digit, digit, hx, hy] at hhead
      rw [hx, hy] at hrest ⊢
      simpa using ⟨List.cons_eq_cons.mp hhead |>.1, hrest⟩
    refine ⟨hnegative, ?_⟩
    rw [Decimal.value, Decimal.value, hdigits, show b.shortestDecimal.point = c.shortestDecimal.point by omega]

theorem notMem_chars {ds : List Nat} (h : ∀ x ∈ ds, x < 10) : 'f' ∉ chars ds :=
  fun hmem => absurd (isDecimalDigit_of_mem_chars h _ hmem) (by decide)

theorem notMem_spelled {whole fraction : List Nat} {tail : List Char} (hwhole : Whole whole)
    (hfraction : ∀ x ∈ fraction, x < 10) (htail : 'f' ∉ tail) :
    'f' ∉ spelled negative whole fraction tail := by
  have hminus : 'f' ∉ (if negative then ['-'] else []) := by cases negative <;> decide
  have hpoint : 'f' ∉ (if fraction = [] then [] else '.' :: chars fraction) := by
    split
    · exact List.not_mem_nil
    · exact List.not_mem_cons_of_ne_of_not_mem (by decide) (notMem_chars hfraction)
  simp only [spelled, List.mem_append, not_or]
  exact ⟨⟨hminus, notMem_chars hwhole.proper⟩, hpoint, htail⟩

/-- A finite number in the shorter style is not taken for an infinity. -/
theorem notMem_generalChars (b : Binary) (negative : Bool) : 'f' ∉ b.generalChars negative := by
  rcases b.generalChars_cases negative with h | ⟨htidy, h⟩ <;> rw [h]
  · exact notMem_spelled b.whole_shortestDecimal b.proper_shortestDecimal.fractionPart
      List.not_mem_nil
  · refine notMem_spelled (whole_digit htidy) (proper_tail htidy) ?_
    have hdigits : ∀ n, 'f' ∉ Nat.toDigits 10 n := fun n hmem =>
      absurd (Text.isDigit_of_mem_toDigits _ hmem) (by decide)
    have hpad : ∀ p : Prop, ∀ [Decidable p], 'f' ∉ (if p then ['0'] else []) := by
      intro p _
      split <;> decide
    have hsign : ∀ e : Int, 'f' ≠ if e < 0 then '-' else '+' := by
      intro e
      split <;> decide
    simp only [exponentTail, List.mem_cons, List.mem_append, not_or]
    exact ⟨by decide, hsign _, hpad _, hdigits _⟩

theorem withPrecision_of_fitsDouble (h : b.Standard) (hzero : b.mantissa ≠ 0)
    (hfits : b.fitsDouble) : b.withPrecision 53 = { b with precision := 53 } := by
  have hlength : bitLength b.mantissa ≤ 53 := by
    simp only [fitsDouble, isZero, Bool.or_eq_true, beq_iff_eq, hzero, false_or, Bool.and_eq_true,
      decide_eq_true_eq] at hfits
    exact hfits.1.1
  exact rounded_of_odd (h.odd hzero) hlength _ _

end Binary

namespace Number

/-- The number is a power of two whose digits as a double need not tell it
from a neighbour. -/
def LopsidedDouble : Number → Prop
  | finite b => (b.withPrecision 53).Lopsided
  | infinite _ => False

theorem display_finite (b : Binary) : (finite b).display =
    if b.isWhole then "cty.NumberIntVal(" ++ String.ofList (b.generalChars b.negative) ++ ")"
    else if b.fitsDouble then "cty.NumberFloatVal(" ++ String.ofList
      ((b.withPrecision 53).generalChars (b.withPrecision 53).negative) ++ ")"
    else "cty.MustParseNumberVal(" ++ Text.quoted b.text ++ ")" := rfl

theorem display_infinite (negative : Bool) : (infinite negative).display =
    "cty.NumberFloatVal(" ++ (infinite negative).text ++ ")" := by
  cases negative <;> decide

/-- A call determines what is called and with what. -/
theorem call_inj {head head' s t : String} (hhead : head ∈ heads) (hhead' : head' ∈ heads)
    (h : head ++ s ++ ")" = head' ++ t ++ ")") : head = head' ∧ s = t := by
  have hparen : ∀ head ∈ heads, head.toList = head.toList.dropLast ++ ['('] ∧
      '(' ∉ head.toList.dropLast := by decide
  obtain ⟨heq, hne⟩ := hparen head hhead
  obtain ⟨heq', hne'⟩ := hparen head' hhead'
  simp only [← String.toList_inj, String.toList_append] at h ⊢
  have hbody := List.append_cancel_right h
  rw [heq, heq', List.append_assoc, List.append_assoc] at hbody
  have hplain : ∀ c ∈ head.toList.dropLast, c ≠ '(' := fun c hc h => hne (h ▸ hc)
  have hplain' : ∀ c ∈ head'.toList.dropLast, c ≠ '(' := fun c hc h => hne' (h ▸ hc)
  obtain ⟨hname, hrest⟩ := Text.eq_of_append_eq hplain hplain' (Text.stops_cons (by simp) _)
    (Text.stops_cons (by simp) _) hbody
  exact ⟨by rw [heq, heq', hname], (List.cons_eq_cons.mp hrest).2⟩

variable {m n : Number}

/-- The calls of finite numbers. -/
theorem display_inj_finite {b c : Binary} (hb : b.IsRead) (hc : c.IsRead) (hb' : ¬b.Lopsided)
    (hc' : ¬c.Lopsided) (hbd : ¬(b.withPrecision 53).Lopsided)
    (hcd : ¬(c.withPrecision 53).Lopsided) (h : (finite b).display = (finite c).display) : b = c := by
  have hprecision : b.precision = c.precision := hb.precision.trans hc.precision.symm
  rw [display_finite, display_finite] at h
  -- numbers of different kinds have different heads
  split_ifs at h with hwhole hwhole' hdouble' hdouble hwhole' hdouble' hwhole' hdouble'
  all_goals obtain ⟨hhead, hbody⟩ := call_inj (by decide) (by decide) h
  all_goals try exact absurd hhead (by decide)
  · -- whole numbers
    rw [String.ofList_inj] at hbody
    obtain ⟨hnegative, hvalue⟩ := Binary.value_eq_of_generalChars_eq hbody
    exact Binary.eq_of_value_eq hb.standard hc.standard hprecision hb' hc' hnegative hvalue
  · -- doubles, which keep their bits
    rw [String.ofList_inj] at hbody
    obtain ⟨hnegative, hvalue⟩ := Binary.value_eq_of_generalChars_eq hbody
    have hzero : ∀ {b : Binary}, ¬b.isWhole → b.mantissa ≠ 0 := by
      intro b hwhole hzero
      simp [Binary.isWhole, Binary.isZero, hzero] at hwhole
    have heq := Binary.eq_of_value_eq
      (Binary.standard_rounded b.negative b.mantissa b.exponent (by norm_num) false)
      (Binary.standard_rounded c.negative c.mantissa c.exponent (by norm_num) false)
      (by rw [Binary.precision_rounded, Binary.precision_rounded]) hbd hcd hnegative hvalue
    change b.withPrecision 53 = c.withPrecision 53 at heq
    rw [Binary.withPrecision_of_fitsDouble hb.standard (hzero hwhole) hdouble,
      Binary.withPrecision_of_fitsDouble hc.standard (hzero hwhole') hdouble', Binary.mk.injEq] at heq
    obtain ⟨_, _, _, _⟩ := b
    obtain ⟨_, _, _, _⟩ := c
    simp_all
  · -- all others
    have htext := (Text.prefixFree_quoted (congrArg (String.toList · ++ []) hbody)).1
    exact Binary.text_inj hb.standard hc.standard hprecision hb' hc' htext

/-- **Numbers that are read have different calls**, but for some powers of
two. -/
theorem display_inj (hm : m.IsRead) (hn : n.IsRead) (hm' : ¬m.Lopsided) (hn' : ¬n.Lopsided)
    (hmd : ¬m.LopsidedDouble) (hnd : ¬n.LopsidedDouble) (h : m.display = n.display) : m = n := by
  have hinfinite : ∀ b : Binary, ∀ negative, (finite b).display ≠ (infinite negative).display := by
    intro b negative h
    rw [display_finite, display_infinite] at h
    split_ifs at h
    all_goals obtain ⟨hhead, hbody⟩ := call_inj (by decide) (by decide) h
    all_goals try exact absurd hhead (by decide)
    have hmem : 'f' ∈ (infinite negative).text.toList := by cases negative <;> decide
    rw [← hbody, String.toList_ofList] at hmem
    exact Binary.notMem_generalChars _ _ hmem
  cases m with
  | finite b =>
    cases n with
    | finite c => rw [display_inj_finite hm hn hm' hn' hmd hnd h]
    | infinite negative => exact absurd h (hinfinite b negative)
  | infinite negative =>
    cases n with
    | finite c => exact absurd h.symm (hinfinite c negative)
    | infinite negative' =>
      have hsign : ∀ a b, (infinite a).display = (infinite b).display → a = b := by decide
      rw [hsign negative negative' h]

end Number

end SolidityCanvas
