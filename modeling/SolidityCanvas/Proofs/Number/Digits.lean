/-
The characters of written numbers.

A decimal expansion is made of digits below ten (`Decimal.Proper`), and
rounding it or looking for the shortest one keeps it so.  Hence

* `isNumeral_of_mem_text`: the text of a number is made of digits, a point and
  a sign;
* `isCall_display`: as a call, a number ends with the only closing parenthesis.
-/
import Mathlib.Data.List.Basic
import SolidityCanvas.Proofs.Basic
import SolidityCanvas.Proofs.Text.PrefixFree
import SolidityCanvas.Value.Display

namespace SolidityCanvas

/-! ### Decimal expansions -/

namespace Decimal

/-- All digits are below ten. -/
def Proper (d : Decimal) : Prop := ∀ x ∈ d.digits, x < 10

variable {d lower upper : Decimal}

theorem lt_of_mem_digitsOf {n x : Nat} (h : x ∈ digitsOf n) : x < 10 := by
  obtain ⟨c, hc, rfl⟩ := List.mem_map.mp h
  have hdigit : c.isDigit := Text.isDigit_of_mem_toDigits c hc
  have hle := Char.isDigit_iff_toNat.mp hdigit
  simp only [Char.reduceToNat] at hle ⊢
  omega

theorem mem_of_mem_dropZeros {ds : List Nat} {x : Nat} (h : x ∈ dropZeros ds) : x ∈ ds := by
  rw [dropZeros, List.mem_reverse] at h
  exact List.mem_reverse.mp ((List.dropWhile_sublist _).mem h)

theorem proper_ofBinary (n : Nat) (e : Int) : (ofBinary n e).Proper := by
  rw [ofBinary]
  split
  · exact fun _ h => absurd h List.not_mem_nil
  split
  · exact fun _ h => lt_of_mem_digitsOf (mem_of_mem_dropZeros h)
  · exact fun _ h => lt_of_mem_digitsOf (mem_of_mem_dropZeros h)

theorem Proper.digit_lt (h : d.Proper) (i : Nat) : d.digit i < 10 := by
  rw [digit, List.getD_eq_getElem?_getD]
  cases hi : d.digits[i]? with
  | none => exact Nat.zero_lt_succ _
  | some x => exact h x (List.mem_of_getElem? hi)

theorem Proper.roundDown (h : d.Proper) (n : Nat) : (d.roundDown n).Proper :=
  fun x hx => h x (List.mem_of_mem_take (mem_of_mem_dropZeros hx))

/-- The digit that is raised is not a nine, as nines at the end are dropped
first. -/
theorem Proper.roundUp (h : d.Proper) (n : Nat) : (d.roundUp n).Proper := by
  have hmem : ∀ x ∈ (d.digits.take n).reverse.dropWhile (· == 9), x < 10 := fun x hx =>
    h x (List.mem_of_mem_take (List.mem_reverse.mp ((List.dropWhile_sublist _).mem hx)))
  rw [Decimal.roundUp]
  split
  · intro x hx
    rw [List.mem_singleton.mp hx]
    decide
  · rename_i last rest heq
    rw [heq] at hmem
    -- What is left of the digits does not end with a nine.
    have hnine : last ≠ 9 := by
      have hhead := List.head_dropWhile_not (· == 9) (by rw [heq]; exact List.cons_ne_nil _ _)
      simp only [heq, List.head_cons, beq_eq_false_iff_ne] at hhead
      exact hhead
    have hlast := hmem last List.mem_cons_self
    intro x hx
    rcases List.mem_cons.mp (List.mem_reverse.mp hx) with rfl | hx
    · omega
    · exact hmem x (List.mem_cons_of_mem _ hx)

theorem Proper.round (h : d.Proper) (n : Nat) : (d.round n).Proper := by
  rw [Decimal.round]
  split
  · exact h
  split
  · exact h.roundUp n
  · exact h.roundDown n

theorem Proper.shortestFrom (h : d.Proper) (inclusive : Bool) :
    ∀ places i, (d.shortestFrom lower upper inclusive places i).Proper := by
  intro places
  induction places with
  | zero => exact fun _ => h
  | succ places ih =>
    intro i
    rw [Decimal.shortestFrom]
    split
    · exact h.round _
    split
    · exact h.roundDown _
    split
    · exact h.roundUp _
    · exact ih _

end Decimal

theorem Binary.proper_shortestDecimal (b : Binary) : b.shortestDecimal.Proper := by
  have h := Decimal.proper_ofBinary b.mantissa b.exponent
  rw [shortestDecimal]
  dsimp only
  split
  · exact h
  · exact h.shortestFrom _ _ _

/-! ### Characters -/

namespace Number

/-- A character of a number without an exponent. -/
def IsNumeral (c : Char) : Prop := c.isDigit ∨ c = '.' ∨ c = '-'

instance : DecidablePred IsNumeral := fun _ => inferInstanceAs (Decidable (_ ∨ _ ∨ _))

/-- A character of a number in any style. -/
def IsStyled (c : Char) : Prop := IsNumeral c ∨ c ∈ ['+', 'e', 'I', 'n', 'f']

instance : DecidablePred IsStyled := fun _ => inferInstanceAs (Decidable (_ ∨ _))

end Number

namespace Decimal

open Number

variable {d : Decimal}

theorem isDigit_of_mem_chars {ds : List Nat} (h : ∀ x ∈ ds, x < 10) :
    ∀ c ∈ chars ds, c.isDigit := by
  have hdigit : ∀ x < 10, (Char.ofNat (x + 48)).isDigit := by decide
  intro c hc
  obtain ⟨x, hx, rfl⟩ := List.mem_map.mp hc
  exact hdigit x (h x hx)

/-- A point and digits after it, if there are any. -/
theorem isNumeral_of_mem_fraction {ds : List Nat} (h : ∀ x ∈ ds, x < 10) (places : Nat) :
    ∀ c ∈ (if places == 0 then [] else '.' :: chars ds), IsNumeral c := by
  intro c hc
  split at hc
  · exact absurd hc List.not_mem_nil
  · rcases List.mem_cons.mp hc with rfl | hc
    · exact .inr (.inl rfl)
    · exact .inl (isDigit_of_mem_chars h c hc)

theorem Proper.isNumeral_of_mem_fixed (h : d.Proper) (places : Nat) :
    ∀ c ∈ d.fixed places, IsNumeral c := by
  intro c hc
  rw [fixed] at hc
  dsimp only at hc
  rcases List.mem_append.mp hc with hc | hc
  · refine .inl (isDigit_of_mem_chars (fun x hx => ?_) c hc)
    split at hx
    · rcases List.mem_append.mp hx with hx | hx
      · exact h x (List.mem_of_mem_take hx)
      · rw [(List.mem_replicate.mp hx).2]
        decide
    · rw [List.mem_singleton.mp hx]
      decide
  · refine isNumeral_of_mem_fraction (fun x hx => ?_) places c hc
    obtain ⟨i, _, rfl⟩ := List.mem_map.mp hx
    split
    · decide
    · exact h.digit_lt _

theorem fixed_ne_nil (d : Decimal) (places : Nat) : d.fixed places ≠ [] := by
  rw [fixed]
  refine List.append_ne_nil_of_left_ne_nil (fun h => ?_) _
  have hlength := congrArg List.length h
  rw [chars, List.length_map] at hlength
  split at hlength
  · simp only [List.length_append, List.length_take, List.length_replicate, List.length_nil]
      at hlength
    omega
  · exact absurd hlength (by decide)

theorem Proper.isStyled_of_mem_scientific (h : d.Proper) (places : Nat) :
    ∀ c ∈ d.scientific 'e' places, IsStyled c := by
  have hsign : ∀ e : Int, IsStyled (if e < 0 then '-' else '+') := by
    intro e
    split <;> decide
  intro c hc
  rw [scientific] at hc
  simp only [List.mem_append, List.mem_cons] at hc
  rcases hc with (hc | hc) | rfl | rfl | hc | hc
  · refine .inl (.inl (isDigit_of_mem_chars (fun x hx => ?_) c hc))
    rw [List.mem_singleton.mp hx]
    exact h.digit_lt 0
  · refine .inl (isNumeral_of_mem_fraction (fun x hx => ?_) places c hc)
    obtain ⟨i, _, rfl⟩ := List.mem_map.mp hx
    exact h.digit_lt _
  · decide
  · exact hsign _
  · exact forall_mem_ite (List.forall_mem_singleton.mpr (by decide)) (List.forall_mem_nil _) c hc
  · exact .inl (.inl (Text.isDigit_of_mem_toDigits c hc))

theorem Proper.isStyled_of_mem_general (h : d.Proper) (digits : Nat) :
    ∀ c ∈ d.general 'e' digits true, IsStyled c := by
  rw [general]
  exact forall_mem_ite (h.isStyled_of_mem_scientific _)
    fun c hc => .inl (h.isNumeral_of_mem_fixed _ c hc)

end Decimal

/-! ### Numbers -/

theorem Binary.isNumeral_of_mem_text (b : Binary) : ∀ c ∈ b.text.toList, Number.IsNumeral c := by
  intro c hc
  rw [text, String.toList_ofList, List.mem_append] at hc
  rcases hc with hc | hc
  · split at hc
    · exact .inr (.inr (List.mem_singleton.mp hc))
    · exact absurd hc List.not_mem_nil
  · exact b.proper_shortestDecimal.isNumeral_of_mem_fixed _ c hc

theorem Binary.toList_text_ne_nil (b : Binary) : b.text.toList ≠ [] := by
  rw [text, String.toList_ofList]
  exact List.append_ne_nil_of_right_ne_nil _ (Decimal.fixed_ne_nil _ _)

namespace Number

theorem isStyled_of_mem_generalText (n : Number) :
    ∀ c ∈ (n.generalText 'e' none).2, IsStyled c := by
  cases n with
  | infinite negative =>
    change ∀ c ∈ ['I', 'n', 'f'], IsStyled c
    simp [IsStyled]
  | finite b =>
    intro c hc
    exact b.proper_shortestDecimal.isStyled_of_mem_general _ c hc

/-- The heads of the calls that construct numbers. -/
def heads : List String := ["cty.NumberIntVal(", "cty.NumberFloatVal(", "cty.MustParseNumberVal("]

theorem IsStyled.ne {c : Char} (h : IsStyled c) : c ≠ ')' ∧ ¬ Text.IsBreak c := by
  constructor
  · rintro rfl
    exact absurd h (by decide)
  · rintro (rfl | rfl) <;> exact absurd h (by decide)

/-- A text that has the form of a call with a number, and no parenthesis is
closed before its end. -/
def IsCall (s : String) : Prop := ∃ head ∈ heads, ∃ body : List Char,
  s.toList = head.toList ++ (body ++ [')']) ∧ ∀ c ∈ body, c ≠ ')' ∧ ¬ Text.IsBreak c

theorem isCall_signed {head : String} (hhead : head ∈ heads) (n : Number) {sign : List Char}
    (hsign : ∀ c ∈ sign, IsStyled c) :
    IsCall (head ++ String.ofList (sign ++ (n.generalText 'e' none).2) ++ ")") := by
  refine ⟨head, hhead, sign ++ (n.generalText 'e' none).2, ?_, fun c hc => ?_⟩
  · simp only [String.toList_append, String.toList_ofList, List.append_assoc]
    rfl
  · rcases List.mem_append.mp hc with hc | hc
    · exact (hsign c hc).ne
    · exact (n.isStyled_of_mem_generalText c hc).ne

theorem isCall_quoted {head : String} (hhead : head ∈ heads) (b : Binary) :
    IsCall (head ++ Text.quoted b.text ++ ")") := by
  have hplain : Text.IsPlain ')' := by decide
  refine ⟨head, hhead, (Text.quoted b.text).toList, ?_, fun c hc => ⟨?_, ?_⟩⟩
  · simp only [String.toList_append, List.append_assoc]
    rfl
  · rintro rfl
    refine hplain.notMem_quoted (fun h => ?_) hc
    exact absurd (b.isNumeral_of_mem_text _ h) (by decide)
  · exact fun hbreak => hbreak.notMem_quoted _ hc

/-- **As a call, a number ends with the only closing parenthesis.** -/
theorem isCall_display (n : Number) : IsCall n.display := by
  have hminus : ∀ c ∈ ['-'], IsStyled c := List.forall_mem_singleton.mpr (by decide)
  have hplus : ∀ c ∈ ['+'], IsStyled c := List.forall_mem_singleton.mpr (by decide)
  have hnone : ∀ c ∈ ([] : List Char), IsStyled c := List.forall_mem_nil _
  unfold display
  dsimp only
  cases n with
  | infinite negative =>
    exact isCall_signed (by decide) _ (forall_mem_ite hminus (forall_mem_ite hplus hnone))
  | finite b =>
    dsimp only
    split
    · exact isCall_signed (by decide) _ (forall_mem_ite hminus (forall_mem_ite hplus hnone))
    split
    · exact isCall_signed (by decide) _ (forall_mem_ite hminus hnone)
    · exact isCall_quoted (by decide) b

/-- A number as a call shows where it ends. -/
theorem told_display {m n : Number} {s t : List Char}
    (h : m.display.toList ++ s = n.display.toList ++ t) : m.display = n.display ∧ s = t := by
  have hend : ∀ n : Number, ∃ u, n.display.toList = u ++ [')'] ∧ ∀ c ∈ u, c ≠ ')' := by
    intro n
    have hheads : ∀ head ∈ heads, ')' ∉ head.toList := by decide
    obtain ⟨head, hhead, body, heq, hbody⟩ := isCall_display n
    refine ⟨head.toList ++ body, by rw [heq, List.append_assoc], fun c hc => ?_⟩
    rcases List.mem_append.mp hc with hc | hc
    · rintro rfl
      exact hheads head hhead hc
    · exact (hbody c hc).1
  obtain ⟨u, hu, hparen⟩ := hend m
  obtain ⟨v, hv, hparen'⟩ := hend n
  rw [hu, hv, List.append_assoc, List.append_assoc] at h
  obtain ⟨huv, hst⟩ := Text.eq_of_append_eq hparen hparen' (Text.stops_cons (by simp) s)
    (Text.stops_cons (by simp) t) h
  rw [← String.toList_inj, hu, hv, huv]
  exact ⟨rfl, (List.cons.inj hst).2⟩

theorem break_notMem_display (n : Number) {x : Char} (hx : Text.IsBreak x) :
    x ∉ n.display.toList := by
  have hheads : ∀ head ∈ heads, '\x00' ∉ head.toList ∧ '\n' ∉ head.toList := by decide
  obtain ⟨head, hhead, body, heq, hbody⟩ := isCall_display n
  simp only [heq, List.mem_append, not_or]
  exact ⟨hx.notMem (hheads head hhead).1 (hheads head hhead).2, fun h => (hbody _ h).2 hx,
    hx.notMem (by decide) (by decide)⟩

end Number

end SolidityCanvas
