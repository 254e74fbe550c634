/-
What a written document says.

* `told_chars`: a compact document, followed by something that is no part of a
  number, shows the document and where it ends.  Of the numbers only those are
  considered that are written as numerals (`Json.Numerals`).
* `break_notMem_chars`: it has no zero character and no line feed.
-/
import SolidityCanvas.Json.Writer
import SolidityCanvas.Proofs.Number.Digits
import SolidityCanvas.Proofs.Text.PrefixFree

namespace SolidityCanvas.Json

open Number (IsNumeral)
open Text (Told Opens Stops row rowAfter)

/-- All numbers are written as numerals. -/
inductive Numerals : Json → Prop
  | null : Numerals null
  | bool (b : Bool) : Numerals (bool b)
  | number {t : String} (hne : t.toList ≠ []) (h : ∀ c ∈ t.toList, IsNumeral c) :
      Numerals (number t)
  | string (s : String) : Numerals (string s)
  | array {items : List Json} (h : ∀ j ∈ items, Numerals j) : Numerals (array items)
  | object {members : List (String × Json)} (h : ∀ m ∈ members, Numerals m.2) :
      Numerals (object members)

/-- The characters of a document. -/
def chars (j : Json) : List Char := j.text.toList

/-- The characters of a member. -/
def memberChars (m : String × Json) : List Char :=
  (quotedText m.1).toList ++ ':' :: m.2.chars

/-! ### Rows -/

theorem chars_array (items : List Json) (s : List Char) :
    (array items).chars ++ s = '[' :: row chars [','] (']' :: s) items := by
  rw [← Text.append_eq_row (g := fun items => (itemsText items).toList)]
  · simp [chars, text]
  · rw [itemsText]
    rfl
  · intro j
    rw [itemsText, chars]
  · intro j k rest
    rw [itemsText]
    simp [chars]

theorem chars_object (members : List (String × Json)) (s : List Char) :
    (object members).chars ++ s = '\x7b' :: row memberChars [','] ('\x7d' :: s) members := by
  rw [← Text.append_eq_row (g := fun members => (membersText members).toList)]
  · simp [chars, text]
  · rw [membersText]
    rfl
  · rintro ⟨n, j⟩
    rw [membersText]
    simp [memberChars, chars]
  · rintro ⟨n, j⟩ m rest
    rw [membersText]
    simp [memberChars, chars]

/-! ### First characters -/

/-- The kinds of documents that the first character tells apart. -/
def kind : Json → Nat × Bool
  | null => (0, false)
  | bool b => (1, b)
  | number _ => (2, false)
  | string _ => (3, false)
  | array _ => (4, false)
  | object _ => (5, false)

/-- The kind of the documents that begin with a character. -/
def kindOf (c : Char) : Option (Nat × Bool) :=
  if IsNumeral c then some (2, false)
  else match c with
    | 'n' => some (0, false)
    | 't' => some (1, true)
    | 'f' => some (1, false)
    | '"' => some (3, false)
    | '[' => some (4, false)
    | '\x7b' => some (5, false)
    | _ => none

theorem kindOf_head {j : Json} (h : j.Numerals) :
    ∃ c rest, j.chars = c :: rest ∧ kindOf c = some j.kind := by
  cases h with
  | null => exact ⟨'n', _, rfl, by decide⟩
  | bool b =>
    cases b with
    | false => exact ⟨'f', _, rfl, by decide⟩
    | true => exact ⟨'t', _, rfl, by decide⟩
  | @number t hne h =>
    obtain ⟨c, rest, heq⟩ := List.exists_cons_of_ne_nil hne
    exact ⟨c, rest, heq, if_pos (h c (by rw [heq]; exact List.mem_cons_self))⟩
  | string s => exact ⟨'"', _, by rw [chars, text, Text.toList_quotedText]; rfl, rfl⟩
  | @array items _ =>
    exact ⟨'[', _, (List.append_nil _).symm.trans (chars_array items []), rfl⟩
  | @object members _ =>
    exact ⟨'\x7b', _, (List.append_nil _).symm.trans (chars_object members []), rfl⟩

theorem kind_eq {j k : Json} (hj : j.Numerals) (hk : k.Numerals) {s t : List Char}
    (h : j.chars ++ s = k.chars ++ t) : j.kind = k.kind := by
  obtain ⟨c, r, hc, hcj⟩ := kindOf_head hj
  obtain ⟨d, r', hd, hdk⟩ := kindOf_head hk
  rw [hc, hd] at h
  rw [(List.cons.inj h).1, hdk] at hcj
  exact (Option.some_inj.mp hcj).symm

theorem opens_chars {j : Json} (h : j.Numerals) {d : Char} (hd : kindOf d = none) :
    Opens d j.chars := by
  obtain ⟨c, r, hc, hcj⟩ := kindOf_head h
  refine ⟨c, by rw [hc]; rfl, ?_⟩
  rintro rfl
  rw [hd] at hcj
  exact absurd hcj (by simp)

theorem opens_memberChars (m : String × Json) : Opens '\x7d' (memberChars m) := by
  refine ⟨'"', ?_, by decide⟩
  rw [memberChars, Text.toList_quotedText]
  rfl

/-! ### Documents -/

theorem told_memberChars {m n : String × Json} (h : Told IsNumeral chars m.2 n.2) :
    Told IsNumeral memberChars m n := by
  intro s t hs ht heq
  simp only [memberChars, List.append_assoc, List.cons_append] at heq
  obtain ⟨hname, hrest⟩ := Text.prefixFree_quotedText heq
  obtain ⟨hvalue, hst⟩ := h hs ht (List.cons.inj hrest).2
  exact ⟨Prod.ext hname hvalue, hst⟩

/-- **A document shows what it says and where it ends.** -/
theorem told_chars {j : Json} (hj : j.Numerals) :
    ∀ {k : Json}, k.Numerals → Told IsNumeral chars j k := by
  -- The first character says that the other document is of the same kind.
  induction hj with
  | null =>
    intro k hk s t _ _ h
    have hkind := kind_eq .null hk h
    cases hk with
    | null => exact ⟨rfl, List.append_cancel_left h⟩
    | _ => exact absurd hkind (by simp [kind])
  | bool a =>
    intro k hk s t _ _ h
    have hkind := kind_eq (.bool a) hk h
    cases hk with
    | bool b =>
      obtain rfl : a = b := (Prod.mk.inj hkind).2
      exact ⟨rfl, List.append_cancel_left h⟩
    | _ => exact absurd hkind (by simp [kind])
  | @number t hne hchars =>
    intro k hk s t' hs ht' h
    have hkind := kind_eq (.number hne hchars) hk h
    cases hk with
    | number _ hchars' =>
      obtain ⟨htext, hst⟩ := Text.eq_of_append_eq hchars hchars' hs ht' h
      exact ⟨congrArg number (String.toList_inj.mp htext), hst⟩
    | _ => exact absurd hkind (by simp [kind])
  | string u =>
    intro k hk s t _ _ h
    have hkind := kind_eq (.string u) hk h
    cases hk with
    | string v =>
      obtain ⟨huv, hst⟩ := Text.prefixFree_quotedText h
      exact ⟨congrArg string huv, hst⟩
    | _ => exact absurd hkind (by simp [kind])
  | @array items hitems ih =>
    intro k hk s t _ _ h
    have hkind := kind_eq (.array hitems) hk h
    cases hk with
    | array hitems' =>
      rw [chars_array, chars_array] at h
      obtain ⟨rfl, hst⟩ := Text.row_inj (by decide) (by decide) (by decide)
        (fun a ha b hb => ih a ha (hitems' b hb)) (fun a ha => opens_chars (hitems a ha) rfl)
        (fun b hb => opens_chars (hitems' b hb) rfl) (List.cons.inj h).2
      exact ⟨rfl, hst⟩
    | _ => exact absurd hkind (by simp [kind])
  | @object members hmembers ih =>
    intro k hk s t _ _ h
    have hkind := kind_eq (.object hmembers) hk h
    cases hk with
    | object hmembers' =>
      rw [chars_object, chars_object] at h
      obtain ⟨rfl, hst⟩ := Text.row_inj (by decide) (by decide) (by decide)
        (fun a ha b hb => told_memberChars (ih a ha (hmembers' b hb)))
        (fun a _ => opens_memberChars a) (fun b _ => opens_memberChars b) (List.cons.inj h).2
      exact ⟨rfl, hst⟩
    | _ => exact absurd hkind (by simp [kind])

theorem break_notMem_chars {j : Json} (h : j.Numerals) {x : Char} (hx : Text.IsBreak x) :
    x ∉ j.chars := by
  have hne : ∀ y ∈ ['[', '\x7b', ':'], x ≠ y := by rcases hx with rfl | rfl <;> simp
  have hcomma : x ∉ [','] := hx.notMem (by decide) (by decide)
  induction h with
  | null => exact hx.notMem (by decide) (by decide)
  | bool b => cases b <;> exact hx.notMem (by decide) (by decide)
  | number _ hchars =>
    exact hx.notMem (fun h => absurd (hchars _ h) (by decide))
      fun h => absurd (hchars _ h) (by decide)
  | string s => exact hx.notMem_quotedText s
  | @array items _ ih =>
    rw [← List.append_nil (chars _), chars_array, List.mem_cons, not_or]
    exact ⟨hne _ (by decide), Text.notMem_row hcomma (hx.notMem (by decide) (by decide)) ih⟩
  | @object members _ ih =>
    rw [← List.append_nil (chars _), chars_object, List.mem_cons, not_or]
    refine ⟨hne _ (by decide), Text.notMem_row hcomma (hx.notMem (by decide) (by decide))
      fun m hm => ?_⟩
    simp only [memberChars, List.mem_append, List.mem_cons, not_or]
    exact ⟨hx.notMem_quotedText m.1, hne _ (by decide), ih m hm⟩

end SolidityCanvas.Json
