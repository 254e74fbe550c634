/-
How numbers are spelled.

A number is spelled as a sign, digits before the point, digits after it and
an exponent, of which the last two may be missing.

* `isNumber_spelled`: such a text is a number of a document;
* `parse?_spelled`: it is taken apart into the parts it was made from;
* `spelled_fixed`, `value_parts`: a decimal without an exponent is spelled
  that way, and the digits stand for its value.
-/
import SolidityCanvas.Proofs.Json.Reading
import SolidityCanvas.Proofs.Number.Shortest

namespace SolidityCanvas

open Decimal

open Json (NumberPart IsNumber)

/-! ### The parts of a number -/

/-- A sign, digits before and after the point, and what follows them. -/
def spelled (negative : Bool) (whole fraction : List Nat) (tail : List Char) : List Char :=
  (if negative then ['-'] else []) ++ chars whole ++
    ((if fraction = [] then [] else '.' :: chars fraction) ++ tail)

/-- Digits that may stand before a point: no zero leads others. -/
structure Whole (ds : List Nat) : Prop where
  proper : ∀ x ∈ ds, x < 10
  led : ds = [0] ∨ ds.getD 0 0 ≠ 0

/-- An exponent with a sign and at least one digit, or none. -/
def IsTail (tail : List Char) : Prop :=
  tail = [] ∨ ∃ sign ∈ ['+', '-'], ∃ ds : List Nat, (∀ x ∈ ds, x < 10) ∧ ds ≠ [] ∧
    tail = 'e' :: sign :: chars ds

variable {negative : Bool} {whole fraction : List Nat} {tail : List Char}

theorem decimalValue_chars {ds : List Nat} (h : ∀ x ∈ ds, x < 10) :
    decimalValue (chars ds) = valueOf ds := by
  have hdigit : ∀ x < 10, (Char.ofNat (x + 48)).toNat - '0'.toNat = x := by decide
  rw [← valueOf_eq_decimalValue, chars, List.map_map]
  congr 1
  conv_rhs => rw [← List.map_id ds]
  exact List.map_congr_left fun x hx => hdigit x (h x hx)

theorem chars_cons (x : Nat) (ds : List Nat) :
    chars (x :: ds) = Char.ofNat (x + 48) :: chars ds := rfl

theorem chars_append (ds es : List Nat) : chars (ds ++ es) = chars ds ++ chars es := by
  simp [chars]

theorem isDecimalDigit_of_mem_chars {ds : List Nat} (h : ∀ x ∈ ds, x < 10) :
    ∀ c ∈ chars ds, isDecimalDigit c := by
  have hdigit : ∀ x < 10, isDecimalDigit (Char.ofNat (x + 48)) := by decide
  intro c hc
  obtain ⟨x, hx, rfl⟩ := List.mem_map.mp hc
  exact hdigit x (h x hx)

/-! ### Numbers of a document -/

/-- Once digits are due, more of them change nothing. -/
theorem foldlM_chars {part : NumberPart} (hpart : part = .whole ∨ part = .fraction ∨
    part = .exponentDigits) {ds : List Nat} (h : ∀ x ∈ ds, x < 10) :
    (chars ds).foldlM NumberPart.next? part = some part := by
  have hstep : ∀ x < 10, part.next? (Char.ofNat (x + 48)) = some part := by
    rcases hpart with rfl | rfl | rfl <;> decide
  induction ds with
  | nil => rfl
  | cons x ds ih =>
    have hx := hstep x (h x (by simp))
    simpa [chars_cons, hx] using ih fun y hy => h y (by simp [hy])

/-- The first digit after a place where digits are due. -/
theorem foldlM_chars_cons {before part : NumberPart}
    (hpart : part = .whole ∨ part = .fraction ∨ part = .exponentDigits) {x : Nat} {ds : List Nat}
    (hfirst : before.next? (Char.ofNat (x + 48)) = some part) (h : ∀ y ∈ ds, y < 10) :
    (chars (x :: ds)).foldlM NumberPart.next? before = some part := by
  simpa [chars_cons, hfirst] using foldlM_chars hpart h

theorem IsTail.foldlM (h : IsTail tail) (part : NumberPart)
    (hpart : part = .zero ∨ part = .whole ∨ part = .fraction) :
    ∃ last : NumberPart, tail.foldlM NumberPart.next? part = some last ∧ last.complete := by
  rcases h with rfl | ⟨sign, hsign, ds, hds, hne, rfl⟩
  · refine ⟨part, rfl, ?_⟩
    rcases hpart with rfl | rfl | rfl <;> rfl
  · refine ⟨.exponentDigits, ?_, rfl⟩
    have he : part.next? 'e' = some .exponent := by
      rcases hpart with rfl | rfl | rfl <;> rfl
    have hs : NumberPart.exponent.next? sign = some .exponentSign := by
      rcases List.mem_pair.mp hsign with rfl | rfl <;> rfl
    obtain ⟨x, ds, rfl⟩ := List.exists_cons_of_ne_nil hne
    have hfirst : ∀ x < 10, NumberPart.exponentSign.next? (Char.ofNat (x + 48)) =
        some .exponentDigits := by decide
    simpa [he, hs] using foldlM_chars_cons (.inr (.inr rfl)) (hfirst x (hds x (by simp)))
      fun y hy => hds y (by simp [hy])

/-- After the digits before the point. -/
theorem foldlM_after_whole (hfraction : ∀ x ∈ fraction, x < 10) (htail : IsTail tail)
    {part : NumberPart} (hpart : part = .zero ∨ part = .whole) :
    ∃ last : NumberPart, ((if fraction = [] then [] else '.' :: chars fraction) ++ tail).foldlM
      NumberPart.next? part = some last ∧ last.complete := by
  by_cases hempty : fraction = []
  · simpa [hempty] using htail.foldlM part (hpart.imp_right .inl)
  · obtain ⟨x, ds, rfl⟩ := List.exists_cons_of_ne_nil hempty
    have hpoint : part.next? '.' = some .point := by
      rcases hpart with rfl | rfl <;> rfl
    have hfirst : ∀ x < 10, NumberPart.point.next? (Char.ofNat (x + 48)) = some .fraction := by
      decide
    have hds : ∀ y ∈ ds, y < 10 := fun y hy => hfraction y (by simp [hy])
    have hdigits := foldlM_chars_cons (.inr (.inl rfl)) (hfirst x (hfraction x (by simp))) hds
    obtain ⟨last, hlast, hcomplete⟩ := htail.foldlM .fraction (.inr (.inr rfl))
    refine ⟨last, ?_, hcomplete⟩
    simp [hpoint, List.foldlM_append, hdigits, hlast]

/-- **A spelled number is a number of a document.** -/
theorem isNumber_spelled (hwhole : Whole whole) (hfraction : ∀ x ∈ fraction, x < 10)
    (htail : IsTail tail) : IsNumber (String.ofList (spelled negative whole fraction tail)) := by
  obtain ⟨x, rest, rfl⟩ : ∃ x rest, whole = x :: rest := by
    rcases hwhole.led with rfl | hled
    · exact ⟨0, [], rfl⟩
    · cases whole with
      | nil => simp at hled
      | cons x rest => exact ⟨x, rest, rfl⟩
  have hx := hwhole.proper x (by simp)
  have hrest : ∀ y ∈ rest, y < 10 := fun y hy => hwhole.proper y (by simp [hy])
  -- where the first digit leads, with or without a sign before it
  obtain ⟨start, hstart, hfirst, hminus, hmore⟩ : ∃ start : NumberPart,
      (start = .zero ∨ start = .whole) ∧ NumberPart.first? (Char.ofNat (x + 48)) = some start ∧
      NumberPart.minus.next? (Char.ofNat (x + 48)) = some start ∧
      (chars rest).foldlM NumberPart.next? start = some start := by
    rcases hwhole.led with hzero | hled
    · obtain ⟨rfl, rfl⟩ := List.cons_eq_cons.mp hzero
      exact ⟨.zero, .inl rfl, by decide, by decide, rfl⟩
    · have hdigit : ∀ x < 10, x ≠ 0 → NumberPart.first? (Char.ofNat (x + 48)) = some .whole ∧
          NumberPart.minus.next? (Char.ofNat (x + 48)) = some .whole := by decide
      have hwhole := hdigit x hx (by simpa using hled)
      exact ⟨.whole, .inr rfl, hwhole.1, hwhole.2, foldlM_chars (.inl rfl) hrest⟩
  obtain ⟨last, hlast, hcomplete⟩ := foldlM_after_whole hfraction htail hstart
  have hdigits : (chars rest ++ ((if fraction = [] then [] else '.' :: chars fraction) ++
      tail)).foldlM NumberPart.next? start = some last := by
    rw [List.foldlM_append, hmore]
    exact hlast
  cases negative with
  | false =>
    exact ⟨Char.ofNat (x + 48), _, start, last, String.toList_ofList, hfirst, hdigits, hcomplete⟩
  | true =>
    refine ⟨'-', _, .minus, last, String.toList_ofList, rfl, ?_, hcomplete⟩
    simpa [chars_cons, hminus] using hdigits

/-- The digits of a whole number may stand before a point. -/
theorem whole_digitsOf (n : Nat) : Whole (digitsOf n) := by
  refine ⟨fun x => lt_of_mem_digitsOf, ?_⟩
  by_cases hn : n = 0
  · subst hn
    exact .inl rfl
  · exact .inr (led_digitsOf hn)

theorem chars_digitsOf (n : Nat) : chars (digitsOf n) = Nat.toDigits 10 n := by
  rw [chars, digitsOf, List.map_map]
  conv_rhs => rw [← List.map_id (Nat.toDigits 10 n)]
  refine List.map_congr_left fun c hc => ?_
  have hdigit := Text.isDigit_of_mem_toDigits c hc
  simp only [Char.isDigit, Bool.and_eq_true, decide_eq_true_eq] at hdigit
  have hle : '0'.toNat ≤ c.toNat := hdigit.1
  change Char.ofNat (c.toNat - '0'.toNat + '0'.toNat) = c
  rw [Nat.sub_add_cancel hle, Char.ofNat_toNat]

/-- A whole number, written with its digits. -/
def wholeText (negative : Bool) (n : Nat) : String :=
  String.ofList ((if negative then ['-'] else []) ++ Nat.toDigits 10 n)

theorem wholeText_eq (negative : Bool) (n : Nat) :
    wholeText negative n = String.ofList (spelled negative (digitsOf n) [] []) := by
  simp [wholeText, spelled, chars_digitsOf]

theorem toString_nat (n : Nat) : toString n = wholeText false n := by
  rw [Nat.toString_eq_ofList_toDigits]
  rfl

theorem toString_int (n : Int) : toString n = wholeText (n < 0) n.natAbs := by
  match n with
  | .ofNat m => exact toString_nat m
  | .negSucc m =>
    have hminus : toString (Int.negSucc m) = "-" ++ toString (m + 1) := rfl
    rw [hminus, toString_nat, ← String.toList_inj]
    simp [wholeText]

/-- A whole number is written as a number of a document. -/
theorem isNumber_wholeText (negative : Bool) (n : Nat) : IsNumber (wholeText negative n) := by
  rw [wholeText_eq]
  exact isNumber_spelled (whole_digitsOf n) (by simp) (.inl rfl)

/-! ### Taking a number apart -/

theorem takeWhile_digits {ds : List Nat} (h : ∀ x ∈ ds, x < 10) {cs : List Char}
    (hcs : ∀ c ∈ cs.head?, !isDecimalDigit c) :
    (chars ds ++ cs).takeWhile isDecimalDigit = chars ds ∧
      (chars ds ++ cs).dropWhile isDecimalDigit = cs := by
  have hdigits := isDecimalDigit_of_mem_chars h
  rw [List.takeWhile_append_of_pos hdigits, List.dropWhile_append_of_pos hdigits]
  cases cs with
  | nil => simp
  | cons c cs =>
    have hc : isDecimalDigit c = false := by simpa using hcs c rfl
    simp [hc]

theorem takeSign_spelled (hwhole : ∀ x ∈ whole, x < 10) (hne : whole ≠ []) :
    takeSign (spelled negative whole fraction tail) =
      (negative, spelled false whole fraction tail) := by
  cases negative with
  | true => rfl
  | false =>
    obtain ⟨x, rest, rfl⟩ := List.exists_cons_of_ne_nil hne
    have hdigit : ∀ x < 10, Char.ofNat (x + 48) ≠ '-' ∧ Char.ofNat (x + 48) ≠ '+' := by decide
    have hx := hdigit x (hwhole x (by simp))
    have hcons : spelled false (x :: rest) fraction tail =
        Char.ofNat (x + 48) :: spelled false rest fraction tail := rfl
    rw [hcons, takeSign]
    · simpa using hx.1
    · simpa using hx.2

/-- **A spelled number is taken apart into its parts.** -/
theorem parse?_spelled (hwhole : ∀ x ∈ whole, x < 10) (hne : whole ≠ [])
    (hfraction : ∀ x ∈ fraction, x < 10)
    (htail : ∀ c ∈ tail.head?, !isDecimalDigit c ∧ c ≠ '.') :
    Numeral.parse? (String.ofList (spelled negative whole fraction tail)) =
      (readExponent? tail).map fun (exponent, binaryExponent) =>
        { negative, whole := chars whole, fraction := chars fraction, exponent, binaryExponent } := by
  have htail' : ∀ c ∈ tail.head?, !isDecimalDigit c := fun c hc => (htail c hc).1
  have hparts (more : List Char) : (∀ c ∈ more.head?, !isDecimalDigit c) →
      (chars whole ++ more).takeWhile isDecimalDigit = chars whole ∧
        (chars whole ++ more).dropWhile isDecimalDigit = more := takeWhile_digits hwhole
  have hempty : (chars whole).isEmpty = false := by
    simp [chars, hne]
  rw [Numeral.parse?, String.toList_ofList, takeSign_spelled hwhole hne]
  by_cases hfrac : fraction = []
  · subst hfrac
    have hspelled : spelled false whole [] tail = chars whole ++ tail := by simp [spelled]
    simp only [hspelled, hparts tail htail', hempty]
    split
    · exact absurd rfl (htail '.' rfl).2
    · rcases readExponent? tail with _ | _ <;> rfl
  · have hspelled : spelled false whole fraction tail =
        chars whole ++ ('.' :: (chars fraction ++ tail)) := by simp [spelled, hfrac]
    have hpoint := hparts ('.' :: (chars fraction ++ tail)) (by simp; decide)
    simp only [hspelled, hpoint, takeWhile_digits hfraction htail', hempty]
    rcases readExponent? tail with _ | _ <;> rfl

theorem numeral_wholeText (negative : Bool) (n : Nat) : Numeral.parse? (wholeText negative n) =
    some ⟨negative, Nat.toDigits 10 n, [], 0, false⟩ := by
  rw [wholeText_eq, parse?_spelled (whole_digitsOf n).proper (by simp [digitsOf]) (by simp)
    (by simp), chars_digitsOf]
  rfl

theorem Whole.ne_nil (h : Whole whole) : whole ≠ [] := by
  rintro rfl
  simpa using h.led

theorem chars_inj {ds es : List Nat} (hds : ∀ x ∈ ds, x < 10) (hes : ∀ x ∈ es, x < 10)
    (h : chars ds = chars es) : ds = es := by
  have hdigit : ∀ x < 10, ∀ y < 10, Char.ofNat (x + 48) = Char.ofNat (y + 48) → x = y := by decide
  induction ds generalizing es with
  | nil => exact (List.map_eq_nil_iff.mp h.symm).symm
  | cons x ds ih =>
    cases es with
    | nil => cases h
    | cons y es =>
      obtain ⟨hxy, hrest⟩ := List.cons_eq_cons.mp h
      rw [hdigit x (hds x (by simp)) y (hes y (by simp)) hxy,
        ih (fun z hz => hds z (by simp [hz])) (fun z hz => hes z (by simp [hz])) hrest]

variable {negative' : Bool} {whole' fraction' : List Nat} {tail' : List Char}

/-- What follows the digits before the point. -/
def afterWhole (fraction : List Nat) (tail : List Char) : List Char :=
  (if fraction = [] then [] else '.' :: chars fraction) ++ tail

theorem digits_append_inj (hwhole : ∀ x ∈ whole, x < 10) (hwhole' : ∀ x ∈ whole', x < 10)
    {cs cs' : List Char} (hcs : ∀ c ∈ cs.head?, !isDecimalDigit c)
    (hcs' : ∀ c ∈ cs'.head?, !isDecimalDigit c) (h : chars whole ++ cs = chars whole' ++ cs') :
    whole = whole' ∧ cs = cs' := by
  have hsplit := takeWhile_digits hwhole hcs
  rw [h, (takeWhile_digits hwhole' hcs').1, (takeWhile_digits hwhole' hcs').2] at hsplit
  exact ⟨(chars_inj hwhole' hwhole hsplit.1).symm, hsplit.2.symm⟩

theorem afterWhole_inj (hfraction : ∀ x ∈ fraction, x < 10) (hfraction' : ∀ x ∈ fraction', x < 10)
    (htail : ∀ c ∈ tail.head?, c = 'e') (htail' : ∀ c ∈ tail'.head?, c = 'e')
    (h : afterWhole fraction tail = afterWhole fraction' tail') :
    fraction = fraction' ∧ tail = tail' := by
  have hdigit : ∀ {tail : List Char}, (∀ c ∈ tail.head?, c = 'e') →
      ∀ c ∈ tail.head?, !isDecimalDigit c := by
    intro tail htail c hc
    rw [htail c hc]
    rfl
  by_cases hempty : fraction = [] <;> by_cases hempty' : fraction' = [] <;>
    simp only [afterWhole, hempty, hempty', if_true, if_false, List.nil_append,
      List.cons_append] at h
  · exact ⟨by rw [hempty, hempty'], h⟩
  · rw [h] at htail
    exact absurd (htail '.' rfl) (by decide)
  · rw [← h] at htail'
    exact absurd (htail' _ rfl) (by decide)
  · exact digits_append_inj hfraction hfraction' (hdigit htail) (hdigit htail')
      (List.cons_eq_cons.mp h).2

/-- **A spelled number determines its parts.** -/
theorem spelled_inj (hwhole : Whole whole) (hwhole' : Whole whole')
    (hfraction : ∀ x ∈ fraction, x < 10) (hfraction' : ∀ x ∈ fraction', x < 10)
    (htail : ∀ c ∈ tail.head?, c = 'e') (htail' : ∀ c ∈ tail'.head?, c = 'e')
    (h : spelled negative whole fraction tail = spelled negative' whole' fraction' tail') :
    negative = negative' ∧ whole = whole' ∧ fraction = fraction' ∧ tail = tail' := by
  have hsign := congrArg takeSign h
  rw [takeSign_spelled hwhole.proper hwhole.ne_nil, takeSign_spelled hwhole'.proper hwhole'.ne_nil,
    Prod.mk.injEq] at hsign
  -- what follows the digits before the point is no digit
  have hafter : ∀ (fraction : List Nat) {tail : List Char}, (∀ c ∈ tail.head?, c = 'e') →
      ∀ c ∈ (afterWhole fraction tail).head?, !isDecimalDigit c := by
    intro fraction tail htail c hc
    by_cases hempty : fraction = []
    · rw [htail c (by simpa [afterWhole, hempty] using hc)]
      rfl
    · obtain rfl : '.' = c := by simpa [afterWhole, hempty] using hc
      rfl
  obtain ⟨hwhole, h⟩ := digits_append_inj hwhole.proper hwhole'.proper (hafter fraction htail)
    (hafter fraction' htail') hsign.2
  exact ⟨hsign.1, hwhole, afterWhole_inj hfraction hfraction' htail htail' h⟩

/-! ### Decimals without an exponent -/

namespace Decimal

variable {d : Decimal}

/-- The digits before the point. -/
def wholePart (d : Decimal) : List Nat :=
  if d.point > 0 then
    d.digits.take d.point.toNat ++ List.replicate (d.point.toNat - d.digits.length) 0
  else [0]

/-- The digits after the point. -/
def fractionPart (d : Decimal) : List Nat :=
  if d.point > 0 then d.digits.drop d.point.toNat
  else List.replicate (-d.point).toNat 0 ++ d.digits

theorem length_fractionPart (d : Decimal) : d.fractionPart.length = d.places := by
  rw [fractionPart, places]
  split
  · simp
    omega
  · simp
    omega

/-- All places are written, and no more than there are. -/
theorem fractionPart_eq (d : Decimal) : (List.range d.places).map (fun i : Nat =>
    if d.point + i < 0 then 0 else d.digit (d.point + i).toNat) = d.fractionPart := by
  refine List.ext_getElem (by simp [length_fractionPart]) fun i hi hi' => ?_
  rw [length_fractionPart, places] at hi'
  simp only [List.getElem_map, List.getElem_range, fractionPart, digit]
  split
  · rename_i hneg
    have hpoint : ¬d.point > 0 := by omega
    simp only [hpoint, if_false]
    rw [List.getElem_append_left (by simp; omega)]
    simp
  · rename_i hneg
    by_cases hpoint : d.point > 0
    · simp only [hpoint, if_true, List.getElem_drop]
      rw [List.getD_eq_getElem?_getD, List.getElem?_eq_getElem (by omega), Option.getD_some]
      congr 1
      omega
    · simp only [hpoint, if_false]
      rw [List.getElem_append_right (by simp; omega), List.getD_eq_getElem?_getD,
        List.getElem?_eq_getElem (by omega), Option.getD_some]
      congr 1
      simp
      omega

theorem spelled_fixed (d : Decimal) (negative : Bool) :
    (if negative then ['-'] else []) ++ d.fixed d.places =
      spelled negative d.wholePart d.fractionPart [] := by
  have hempty : d.places = 0 ↔ d.fractionPart = [] := by
    rw [← length_fractionPart, List.length_eq_zero_iff]
  have hfraction : (if d.places == 0 then [] else '.' :: chars d.fractionPart) =
      if d.fractionPart = [] then [] else '.' :: chars d.fractionPart := by
    simp only [beq_iff_eq, hempty]
  rw [spelled, List.append_nil, List.append_assoc, ← hfraction, ← fractionPart_eq]
  rfl

/-- The digits that are written are those of the decimal, with zeros around
them. -/
theorem parts_eq (d : Decimal) : ∃ j, d.wholePart ++ d.fractionPart =
    List.replicate j 0 ++ (d.digits ++ List.replicate (d.point - d.digits.length).toNat 0) := by
  rw [wholePart, fractionPart]
  by_cases hpoint : d.point > 0
  · refine ⟨0, ?_⟩
    simp only [hpoint, if_true, List.replicate_zero, List.nil_append]
    rcases Nat.lt_or_ge d.point.toNat d.digits.length with hlt | hge
    · have h₁ : d.point.toNat - d.digits.length = 0 := by omega
      have h₂ : (d.point - d.digits.length).toNat = 0 := by omega
      simp [h₁, h₂]
    · have h₁ : d.point.toNat - d.digits.length = (d.point - d.digits.length).toNat := by omega
      rw [h₁, List.take_of_length_le hge, List.drop_of_length_le hge, List.append_nil]
  · refine ⟨(-d.point).toNat + 1, ?_⟩
    have hzero : (d.point - d.digits.length).toNat = 0 := by omega
    simp [hpoint, hzero, List.replicate_succ]

/-- **The digits that are written stand for the value.** -/
theorem value_parts (d : Decimal) :
    (valueOf (d.wholePart ++ d.fractionPart) : ℚ) = d.value * 10 ^ d.places := by
  obtain ⟨j, hj⟩ := d.parts_eq
  rw [hj, valueOf_append, valueOf_append, valueOf_replicate_zero, valueOf_replicate_zero, value,
    List.length_replicate, places]
  push_cast
  rw [zero_mul, zero_add, add_zero, mul_assoc, ← zpow_natCast, ← zpow_natCast,
    ← zpow_add₀ (by norm_num)]
  congr 2
  omega

theorem Tidy.wholePart (h : d.Tidy) : Whole d.wholePart := by
  rw [Decimal.wholePart]
  split
  · refine ⟨fun x hx => ?_, .inr ?_⟩
    · rcases List.mem_append.mp hx with hx | hx
      · exact h.proper x (List.mem_of_mem_take hx)
      · rw [(List.mem_replicate.mp hx).2]
        norm_num
    · obtain ⟨x, rest, hx⟩ := List.exists_cons_of_ne_nil h.nonempty
      obtain ⟨p, hp⟩ : ∃ p, d.point.toNat = p + 1 := ⟨d.point.toNat - 1, by omega⟩
      have hled := h.led
      rw [digit, hx] at hled
      simpa [hp, hx] using hled
  · exact ⟨by simp, .inl rfl⟩

theorem Proper.fractionPart (h : d.Proper) : ∀ x ∈ d.fractionPart, x < 10 := by
  intro x hx
  rw [Decimal.fractionPart] at hx
  split at hx
  · exact h x (List.mem_of_mem_drop hx)
  · rcases List.mem_append.mp hx with hx | hx
    · rw [(List.mem_replicate.mp hx).2]
      norm_num
    · exact h x hx

/-- The text of a decimal determines its value. -/
theorem value_eq_of_spelled_eq {c : Decimal} {negative negative' : Bool} (hd : Whole d.wholePart)
    (hc : Whole c.wholePart) (hd' : ∀ x ∈ d.fractionPart, x < 10)
    (hc' : ∀ x ∈ c.fractionPart, x < 10)
    (h : spelled negative d.wholePart d.fractionPart [] =
      spelled negative' c.wholePart c.fractionPart []) :
    negative = negative' ∧ d.value = c.value := by
  obtain ⟨hnegative, hwhole, hfraction, -⟩ := spelled_inj hd hc hd' hc' (by simp) (by simp) h
  have hplaces : d.places = c.places := by rw [← length_fractionPart, hfraction, length_fractionPart]
  have hvalue := d.value_parts
  rw [hwhole, hfraction, c.value_parts, hplaces] at hvalue
  exact ⟨hnegative, (mul_right_cancel₀ (by positivity) hvalue).symm⟩

end Decimal

end SolidityCanvas
