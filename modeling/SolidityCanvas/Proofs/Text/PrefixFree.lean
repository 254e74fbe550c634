/-
Texts that can be cut off the front of a longer text.

`Text.PrefixFree f` says that `f a` shows where it ends: from `f a ++ rest`
both `a` and `rest` can be told.

* `prefixFree_quoted`, `prefixFree_quotedText`: a text in quotes, in either
  of the two ways to write its characters; both are undone by
  `Text.unescape`;
* `prefixFree_lengthPrefixed`: a text with its length in front;
* `PrefixFree.flatMap`: as many of these as there are known to be;
* `eq_of_append_eq`: what consists of some characters and is followed by
  another one;
* `bytes_inj`: a text is known by its bytes.

None of the characters in quotes is written with a zero character or a line
feed (`IsBreak`), so that these can stand between texts.
-/
import Mathlib.Data.List.Basic
import Mathlib.Tactic.IntervalCases
import SolidityCanvas.Canvas.Basic
import SolidityCanvas.Json.Writer
import SolidityCanvas.Text.Quoted

namespace SolidityCanvas

namespace Text

/-- What is written shows where it ends. -/
def PrefixFree {α : Type} (f : α → List Char) : Prop :=
  ∀ {a b : α} {s t : List Char}, f a ++ s = f b ++ t → a = b ∧ s = t

/-! ### Numbers in hexadecimal -/

theorem hexDigitValue_hexDigit {n : Nat} (h : n < 16) : hexDigitValue (hexDigit n) = n := by
  interval_cases n <;> rfl

theorem hexValue_append_singleton (cs : List Char) (c : Char) :
    hexValue (cs ++ [c]) = hexValue cs * 16 + hexDigitValue c := by
  rw [hexValue, List.foldl_append]
  rfl

@[simp] theorem length_hexPadded (width : Nat) : ∀ n, (hexPadded width n).length = width := by
  induction width with
  | zero => exact fun _ => rfl
  | succ width ih =>
    intro n
    rw [hexPadded, List.length_append, ih]
    rfl

theorem hexValue_hexPadded (width : Nat) : ∀ {n : Nat}, n < 16 ^ width →
    hexValue (hexPadded width n) = n := by
  induction width with
  | zero =>
    intro n h
    simp only [Nat.pow_zero, Nat.lt_one_iff] at h
    rw [h]
    rfl
  | succ width ih =>
    intro n h
    -- The last digit is cut off; the others are those of the quotient.
    have hdiv : n / 16 < 16 ^ width := by
      rw [Nat.div_lt_iff_lt_mul (by decide)]
      rwa [Nat.pow_succ] at h
    rw [hexPadded, hexValue_append_singleton, ih hdiv,
      hexDigitValue_hexDigit (Nat.mod_lt _ (by decide))]
    omega

/-! ### Characters in quotes -/

/-- The first character of a text as it stands between quotes, and the
rest. -/
def unescape : List Char → Option (Char × List Char)
  | '\\' :: 'a' :: rest => some (Char.ofNat 7, rest)
  | '\\' :: 'b' :: rest => some (Char.ofNat 8, rest)
  | '\\' :: 't' :: rest => some (Char.ofNat 9, rest)
  | '\\' :: 'n' :: rest => some (Char.ofNat 10, rest)
  | '\\' :: 'v' :: rest => some (Char.ofNat 11, rest)
  | '\\' :: 'f' :: rest => some (Char.ofNat 12, rest)
  | '\\' :: 'r' :: rest => some (Char.ofNat 13, rest)
  | '\\' :: 'x' :: rest => some (Char.ofNat (hexValue (rest.take 2)), rest.drop 2)
  | '\\' :: 'u' :: rest => some (Char.ofNat (hexValue (rest.take 4)), rest.drop 4)
  | '\\' :: 'U' :: rest => some (Char.ofNat (hexValue (rest.take 8)), rest.drop 8)
  | '\\' :: c :: rest => some (c, rest)
  | c :: rest => some (c, rest)
  | [] => none

theorem ofNat_hexPadded {width : Nat} {c : Char} (h : c.toNat < 16 ^ width) (s : List Char) :
    Char.ofNat (hexValue ((hexPadded width c.toNat ++ s).take width)) = c ∧
      (hexPadded width c.toNat ++ s).drop width = s := by
  have htake : (hexPadded width c.toNat ++ s).take width = hexPadded width c.toNat :=
    List.take_left' (length_hexPadded ..)
  rw [htake, hexValue_hexPadded width h, Char.ofNat_toNat]
  exact ⟨rfl, List.drop_left' (length_hexPadded ..)⟩

theorem unescape_cons {c : Char} (h : c ≠ '\\') (s : List Char) :
    unescape (c :: s) = some (c, s) := by
  rw [unescape]
  all_goals simp_all

theorem eq_ofNat {c : Char} {n : Nat} (h : c.toNat = n) : c = Char.ofNat n := by
  rw [← h, Char.ofNat_toNat]

theorem toNat_lt (c : Char) : c.toNat < 0x110000 := by
  have h := c.valid
  change c.val.toNat.isValidChar at h
  change c.val.toNat < 0x110000
  rcases h with h | h
  · omega
  · omega

theorem unescape_quotedChar (c : Char) (s : List Char) :
    unescape (quotedChar c ++ s) = some (c, s) := by
  rw [quotedChar]
  split
  · rename_i h
    rw [Bool.or_eq_true, beq_iff_eq, beq_iff_eq] at h
    rcases h with rfl | rfl <;> rfl
  rename_i hq
  split
  · have hne : c ≠ '\\' := by simp_all
    exact unescape_cons hne s
  split
  · rename_i h
    rw [eq_ofNat h]
    rfl
  · rename_i h
    rw [eq_ofNat h]
    rfl
  · rename_i h
    rw [eq_ofNat h]
    rfl
  · rename_i h
    rw [eq_ofNat h]
    rfl
  · rename_i h
    rw [eq_ofNat h]
    rfl
  · rename_i h
    rw [eq_ofNat h]
    rfl
  · rename_i h
    rw [eq_ofNat h]
    rfl
  split
  · rename_i h
    have hlt : c.toNat < 16 ^ 2 := by
      simp only [Bool.or_eq_true, decide_eq_true_eq, beq_iff_eq] at h
      omega
    obtain ⟨hc, hs⟩ := ofNat_hexPadded hlt s
    simp only [List.cons_append, unescape, hc, hs]
  split
  · rename_i h
    have hlt : c.toNat < 16 ^ 4 := by omega
    obtain ⟨hc, hs⟩ := ofNat_hexPadded hlt s
    simp only [List.cons_append, unescape, hc, hs]
  · have hlt : c.toNat < 16 ^ 8 := Nat.lt_trans (toNat_lt c) (by decide)
    obtain ⟨hc, hs⟩ := ofNat_hexPadded hlt s
    simp only [List.cons_append, unescape, hc, hs]

/-- Neither a letter that stands for a character nor a digit of its number. -/
def IsPlain (x : Char) : Prop :=
  x ∉ ['"', '\\', 'a', 'b', 't', 'n', 'v', 'f', 'r', 'x', 'u', 'U'] ∧ ∀ d < 16, x ≠ hexDigit d

instance : DecidablePred IsPlain := fun _ => inferInstanceAs (Decidable (_ ∧ _))

variable {x : Char}

theorem IsPlain.ne_of_mem (h : IsPlain x) {y : Char}
    (hy : y ∈ ['"', '\\', 'a', 'b', 't', 'n', 'v', 'f', 'r', 'x', 'u', 'U']) : x ≠ y := by
  rintro rfl
  exact h.1 hy

theorem IsPlain.notMem_hexPadded (h : IsPlain x) (width : Nat) : ∀ n, x ∉ hexPadded width n := by
  induction width with
  | zero => exact fun _ => List.not_mem_nil
  | succ width ih =>
    intro n hn
    rw [hexPadded, List.mem_append, List.mem_singleton] at hn
    exact hn.elim (ih _) (h.2 _ (Nat.mod_lt _ (by decide)))

/-- A plain character stands in quotes only for itself. -/
theorem IsPlain.notMem_quotedChar (h : IsPlain x) {c : Char}
    (hc : x = c → isPrintable c = false) : x ∉ quotedChar c := by
  have hletter := h.1
  rw [quotedChar]
  split
  · rename_i hq
    rw [Bool.or_eq_true, beq_iff_eq, beq_iff_eq] at hq
    rcases hq with rfl | rfl <;> simp_all
  split
  · rename_i hp
    rw [List.mem_singleton]
    intro hx
    exact absurd (hc hx) (by simp [hp])
  split
  · simp_all
  · simp_all
  · simp_all
  · simp_all
  · simp_all
  · simp_all
  · simp_all
  split
  · simp_all [h.notMem_hexPadded]
  split <;> simp_all [h.notMem_hexPadded]

/-- A zero character or a line feed. -/
def IsBreak (x : Char) : Prop := x = '\x00' ∨ x = '\n'

theorem IsBreak.notMem {l : List Char} (hx : IsBreak x) (hnul : '\x00' ∉ l) (hline : '\n' ∉ l) :
    x ∉ l := by
  rcases hx with rfl | rfl
  · exact hnul
  · exact hline

theorem IsBreak.isPlain (hx : IsBreak x) : IsPlain x := by
  rcases hx with rfl | rfl <;> decide

theorem unescape_escapedChar (c : Char) (s : List Char) :
    unescape (Json.escapedChar c ++ s) = some (c, s) := by
  unfold Json.escapedChar
  split
  · rfl
  · rfl
  · rfl
  · rfl
  · rfl
  dsimp only
  split
  · rename_i h
    rw [eq_ofNat (beq_iff_eq.mp h)]
    rfl
  split
  · rename_i h
    rw [eq_ofNat (beq_iff_eq.mp h)]
    rfl
  split
  · rename_i h
    have hlt : c.toNat < 16 ^ 4 := by
      simp only [Bool.or_eq_true, decide_eq_true_eq, beq_iff_eq] at h
      rcases h with ((((h | rfl) | rfl) | rfl) | h) | h
      · omega
      · decide
      · decide
      · decide
      · omega
      · omega
    obtain ⟨hc, hs⟩ := ofNat_hexPadded hlt s
    simp only [List.cons_append, unescape, hc, hs]
  · rename_i _ hne _ _ _ _ _ _
    exact unescape_cons hne s

theorem IsBreak.notMem_escapedChar (hx : IsBreak x) (c : Char) : x ∉ Json.escapedChar c := by
  unfold Json.escapedChar
  split
  · exact hx.notMem (by decide) (by decide)
  · exact hx.notMem (by decide) (by decide)
  · exact hx.notMem (by decide) (by decide)
  · exact hx.notMem (by decide) (by decide)
  · exact hx.notMem (by decide) (by decide)
  dsimp only
  split
  · exact hx.notMem (by decide) (by decide)
  split
  · exact hx.notMem (by decide) (by decide)
  split
  · simp only [List.mem_cons, not_or]
    exact ⟨hx.isPlain.ne_of_mem (by decide), hx.isPlain.ne_of_mem (by decide),
      hx.isPlain.notMem_hexPadded 4 _⟩
  · rename_i hline _ _ _ _ hcontrol
    rw [List.mem_singleton]
    rintro rfl
    rcases hx with rfl | rfl
    · exact hcontrol (by decide)
    · exact hline rfl

/-! ### Texts in quotes -/

section quotes

variable {f : Char → List Char}

/-- A text in quotes, each character written by `f`. -/
def quotedBy (f : Char → List Char) (s : String) : List Char :=
  '"' :: (s.toList.flatMap f ++ ['"'])

/-- A quote that is not a character ends the text: no character is written with
a quote in front. -/
theorem prefixFree_quotedBy (hf : ∀ c s, unescape (f c ++ s) = some (c, s))
    (hquote : f '"' = ['\\', '"']) : PrefixFree (quotedBy f) := by
  -- Only a quote could be written with a quote in front, and it is not.
  have hend : ∀ {c s t}, f c ++ s ≠ '"' :: t := by
    intro c s t h
    have hc := hf c s
    rw [h, unescape_cons (by decide), Option.some_inj, Prod.mk.injEq] at hc
    rw [← hc.1, hquote] at h
    exact absurd (List.cons.inj h).1 (by decide)
  -- The characters are undone one after another, up to the first quote.
  have hchars : ∀ {l m s t : List Char}, l.flatMap f ++ '"' :: s = m.flatMap f ++ '"' :: t →
      l = m ∧ s = t := by
    intro l
    induction l with
    | nil =>
      intro m s t h
      cases m with
      | nil => exact ⟨rfl, (List.cons.inj h).2⟩
      | cons d m =>
        rw [List.flatMap_cons, List.append_assoc] at h
        exact absurd h.symm hend
    | cons c l ih =>
      intro m s t h
      rw [List.flatMap_cons, List.append_assoc] at h
      cases m with
      | nil => exact absurd h hend
      | cons d m =>
        rw [List.flatMap_cons, List.append_assoc] at h
        have hcd := hf c (l.flatMap f ++ '"' :: s)
        rw [h, hf, Option.some_inj, Prod.mk.injEq] at hcd
        obtain ⟨rfl, hrest⟩ := hcd
        obtain ⟨rfl, rfl⟩ := ih hrest.symm
        exact ⟨rfl, rfl⟩
  intro a b s t h
  simp only [quotedBy, List.cons_append, List.append_assoc, List.nil_append] at h
  obtain ⟨hab, hst⟩ := hchars (List.cons.inj h).2
  exact ⟨String.toList_inj.mp hab, hst⟩

theorem notMem_quotedBy (hx : IsPlain x) {s : String} (hs : ∀ c ∈ s.toList, x ∉ f c) :
    x ∉ quotedBy f s := by
  have hquote : x ≠ '"' := fun h => hx.1 (by simp [h])
  simpa [quotedBy, hquote] using hs

end quotes

theorem toList_quoted (s : String) : (quoted s).toList = quotedBy quotedChar s := by
  rw [quoted, String.toList_ofList]
  rfl

theorem toList_quotedText (s : String) :
    (Json.quotedText s).toList = quotedBy Json.escapedChar s := by
  rw [Json.quotedText, String.toList_ofList]
  rfl

theorem prefixFree_quoted : PrefixFree fun s => (quoted s).toList := by
  simp only [toList_quoted]
  exact prefixFree_quotedBy unescape_quotedChar (by decide)

theorem prefixFree_quotedText : PrefixFree fun s => (Json.quotedText s).toList := by
  simp only [toList_quotedText]
  exact prefixFree_quotedBy unescape_escapedChar (by decide)

/-- A plain character stands in a text in quotes only for itself. -/
theorem IsPlain.notMem_quoted (h : IsPlain x) {s : String}
    (hs : x ∈ s.toList → isPrintable x = false) : x ∉ (quoted s).toList := by
  rw [toList_quoted]
  refine notMem_quotedBy h fun c hc => h.notMem_quotedChar ?_
  rintro rfl
  exact hs hc

theorem IsBreak.notMem_quoted (hx : IsBreak x) (s : String) : x ∉ (quoted s).toList :=
  hx.isPlain.notMem_quoted fun _ => by rcases hx with rfl | rfl <;> decide

theorem IsBreak.notMem_quotedText (hx : IsBreak x) (s : String) :
    x ∉ (Json.quotedText s).toList := by
  rw [toList_quotedText]
  exact notMem_quotedBy hx.isPlain fun c _ => hx.notMem_escapedChar c

/-! ### Texts that end where something else begins -/

/-- The text is at an end, or goes on with something else. -/
def Stops (p : Char → Prop) (s : List Char) : Prop := ∀ c ∈ s.head?, ¬ p c

theorem stops_nil (p : Char → Prop) : Stops p [] := fun _ h => absurd h (by simp)

theorem stops_cons {p : Char → Prop} {c : Char} (h : ¬ p c) (s : List Char) :
    Stops p (c :: s) := by
  rintro d ⟨⟩
  exact h

theorem eq_of_append_eq {p : Char → Prop} : ∀ {l m s t : List Char},
    (∀ c ∈ l, p c) → (∀ c ∈ m, p c) → Stops p s → Stops p t → l ++ s = m ++ t →
      l = m ∧ s = t := by
  intro l
  induction l with
  | nil =>
    intro m s t _ hm hs _ h
    cases m with
    | nil => exact ⟨rfl, h⟩
    | cons d m =>
      rw [List.nil_append] at h
      exact absurd (hm d List.mem_cons_self) (hs d (by rw [h]; rfl))
  | cons c l ih =>
    intro m s t hl hm hs ht h
    cases m with
    | nil =>
      rw [List.nil_append] at h
      exact absurd (hl c List.mem_cons_self) (ht c (by rw [← h]; rfl))
    | cons d m =>
      rw [List.cons_append, List.cons_append, List.cons.injEq] at h
      obtain ⟨rfl, h⟩ := h
      obtain ⟨rfl, hst⟩ := ih (fun x hx => hl x (List.mem_cons_of_mem _ hx))
        (fun x hx => hm x (List.mem_cons_of_mem _ hx)) hs ht h
      exact ⟨rfl, hst⟩

theorem isDigit_of_mem_toDigits {n : Nat} : ∀ c ∈ Nat.toDigits 10 n, c.isDigit :=
  fun _ hc => Nat.isDigit_of_mem_toDigits (by decide) (by decide) hc

/-- Digits show the number. -/
theorem eq_of_digits_append {m n : Nat} {s t : List Char} (hs : Stops (·.isDigit) s)
    (ht : Stops (·.isDigit) t) (h : (toString m).toList ++ s = (toString n).toList ++ t) :
    m = n ∧ s = t := by
  simp only [Nat.toString_eq_repr, Nat.toList_repr] at h
  obtain ⟨hmn, hst⟩ := eq_of_append_eq isDigit_of_mem_toDigits isDigit_of_mem_toDigits hs ht h
  refine ⟨?_, hst⟩
  rw [← Nat.ofDigitChars_ten_toDigits (n := m), hmn, Nat.ofDigitChars_ten_toDigits]

/-! ### Texts with their length in front -/

theorem eq_of_utf8ByteSize_eq {a b : String} {s t : List Char}
    (hsize : a.utf8ByteSize = b.utf8ByteSize) (h : a.toList ++ s = b.toList ++ t) :
    a = b ∧ s = t := by
  -- One of the two is the other and a rest, which takes no bytes.
  have hle : ∀ {a b : String} {u : List Char}, a.utf8ByteSize = b.utf8ByteSize →
      b.toList = a.toList ++ u → u = [] := by
    intro a b u hsize hb
    have hb' : b = a ++ String.ofList u := by
      rw [← String.toList_inj, String.toList_append, String.toList_ofList, hb]
    rw [hb', String.utf8ByteSize_append] at hsize
    have hu : String.ofList u = "" := String.utf8ByteSize_eq_zero_iff.mp (by omega)
    simpa using hu
  rcases List.append_eq_append_iff.mp h with ⟨u, hb, hs⟩ | ⟨u, ha, ht⟩
  · obtain rfl := hle hsize hb
    exact ⟨String.toList_inj.mp (by simpa using hb.symm), hs⟩
  · obtain rfl := hle hsize.symm ha
    exact ⟨String.toList_inj.mp (by simpa using ha), ht.symm⟩

theorem prefixFree_lengthPrefixed : PrefixFree fun s => (Canvas.lengthPrefixed s).toList := by
  intro a b s t h
  simp only [Canvas.lengthPrefixed, String.toList_append, List.append_assoc] at h
  have hcolon : ∀ s : List Char, Stops (·.isDigit) (":".toList ++ s) :=
    fun s => stops_cons (by decide) s
  obtain ⟨hsize, hrest⟩ := eq_of_digits_append (hcolon _) (hcolon _) h
  exact eq_of_utf8ByteSize_eq hsize (List.append_cancel_left hrest)

/-! ### Rows of texts -/

/-- A row of texts shows its items if their number is known. -/
theorem PrefixFree.flatMap {α : Type} {f : α → List Char} (hf : PrefixFree f) :
    ∀ {l m : List α} {s t : List Char}, l.length = m.length →
      l.flatMap f ++ s = m.flatMap f ++ t → l = m ∧ s = t := by
  intro l
  induction l with
  | nil =>
    intro m s t hlen h
    rw [List.length_eq_zero_iff.mp hlen.symm] at h ⊢
    exact ⟨rfl, h⟩
  | cons a l ih =>
    intro m s t hlen h
    cases m with
    | nil => exact absurd hlen (by simp)
    | cons b m =>
      rw [List.flatMap_cons, List.flatMap_cons, List.append_assoc, List.append_assoc] at h
      obtain ⟨rfl, hrest⟩ := hf h
      obtain ⟨rfl, hst⟩ := ih (Nat.succ.inj hlen) hrest
      exact ⟨rfl, hst⟩

/-! ### Texts with something between them -/

section separated

variable {α : Type} {p : Char → Prop} {f : α → List Char}

/-- Before something that stops, `f a` and `f b` can be told apart, and so can
what follows. -/
def Told (p : Char → Prop) (f : α → List Char) (a b : α) : Prop :=
  ∀ {s t : List Char}, Stops p s → Stops p t → f a ++ s = f b ++ t → a = b ∧ s = t

/-- The text begins, and not with the character. -/
def Opens (d : Char) (s : List Char) : Prop := ∃ c ∈ s.head?, c ≠ d

theorem Opens.append_ne {d : Char} {u : List Char} (h : Opens d u) (s t : List Char) :
    u ++ s ≠ d :: t := by
  obtain ⟨c, hc, hcd⟩ := h
  cases u with
  | nil => exact absurd hc (by simp)
  | cons x u =>
    obtain rfl : x = c := by simpa using hc
    exact fun heq => hcd (List.cons.inj heq).1

/-- What follows an item of a row: the other items, each after `sep`, and the
end. -/
def rowAfter (f : α → List Char) (sep close : List Char) : List α → List Char
  | [] => close
  | a :: l => sep ++ (f a ++ rowAfter f sep close l)

/-- A row of items with `sep` between them, and the end. -/
def row (f : α → List Char) (sep close : List Char) : List α → List Char
  | [] => close
  | a :: l => f a ++ rowAfter f sep close l

/-- How rows are written. -/
theorem append_eq_row {g : List α → List Char} {sep : List Char} (hnil : g [] = [])
    (hone : ∀ a, g [a] = f a) (hcons : ∀ a b l, g (a :: b :: l) = f a ++ (sep ++ g (b :: l)))
    (close : List Char) (l : List α) : g l ++ close = row f sep close l := by
  have hafter : ∀ l a, g (a :: l) ++ close = f a ++ rowAfter f sep close l := by
    intro l
    induction l with
    | nil =>
      intro a
      rw [hone]
      rfl
    | cons b l ih =>
      intro a
      rw [hcons, List.append_assoc, List.append_assoc, ih]
      rfl
  cases l with
  | nil =>
    rw [hnil]
    rfl
  | cons a l => exact hafter l a

variable {c d : Char} {sep : List Char}

theorem stops_rowAfter (hc : ¬ p c) (hd : ¬ p d) (s : List Char) (l : List α) :
    Stops p (rowAfter f (c :: sep) (d :: s) l) := by
  cases l with
  | nil => exact stops_cons hd s
  | cons a l => exact stops_cons hc _

theorem rowAfter_inj (hcd : c ≠ d) (hc : ¬ p c) (hd : ¬ p d) : ∀ {l m : List α},
    (∀ a ∈ l, ∀ b ∈ m, Told p f a b) → ∀ {s t : List Char},
    rowAfter f (c :: sep) (d :: s) l = rowAfter f (c :: sep) (d :: t) m → l = m ∧ s = t := by
  intro l
  induction l with
  | nil =>
    intro m _ s t h
    cases m with
    | nil => exact ⟨rfl, (List.cons.inj h).2⟩
    | cons b m => exact absurd (List.cons.inj h).1.symm hcd
  | cons a l ih =>
    intro m htold s t h
    cases m with
    | nil => exact absurd (List.cons.inj h).1 hcd
    | cons b m =>
      obtain ⟨rfl, hrest⟩ := htold a List.mem_cons_self b List.mem_cons_self
        (stops_rowAfter hc hd s l) (stops_rowAfter hc hd t m) (List.append_cancel_left h)
      obtain ⟨rfl, hst⟩ := ih (fun x hx y hy => htold x (List.mem_cons_of_mem _ hx) y
        (List.mem_cons_of_mem _ hy)) hrest
      exact ⟨rfl, hst⟩

/-- A row shows its items and where it ends, if neither an item nor what is
between them begins as the end does. -/
theorem row_inj (hcd : c ≠ d) (hc : ¬ p c) (hd : ¬ p d) {l m : List α}
    (htold : ∀ a ∈ l, ∀ b ∈ m, Told p f a b) (hl : ∀ a ∈ l, Opens d (f a))
    (hm : ∀ b ∈ m, Opens d (f b)) {s t : List Char}
    (h : row f (c :: sep) (d :: s) l = row f (c :: sep) (d :: t) m) : l = m ∧ s = t := by
  cases l with
  | nil =>
    cases m with
    | nil => exact ⟨rfl, (List.cons.inj h).2⟩
    | cons b m => exact absurd h.symm ((hm b List.mem_cons_self).append_ne _ _)
  | cons a l =>
    cases m with
    | nil => exact absurd h ((hl a List.mem_cons_self).append_ne _ _)
    | cons b m =>
      obtain ⟨rfl, hrest⟩ := htold a List.mem_cons_self b List.mem_cons_self
        (stops_rowAfter hc hd s l) (stops_rowAfter hc hd t m) h
      obtain ⟨rfl, hst⟩ := rowAfter_inj hcd hc hd (fun x hx y hy =>
        htold x (List.mem_cons_of_mem _ hx) y (List.mem_cons_of_mem _ hy)) hrest
      exact ⟨rfl, hst⟩

theorem notMem_rowAfter {x : Char} {close : List Char} {l : List α} (hsep : x ∉ sep)
    (hclose : x ∉ close) (h : ∀ a ∈ l, x ∉ f a) : x ∉ rowAfter f sep close l := by
  induction l with
  | nil => exact hclose
  | cons a l ih =>
    simp only [rowAfter, List.mem_append, not_or]
    exact ⟨hsep, h a List.mem_cons_self, ih fun b hb => h b (List.mem_cons_of_mem _ hb)⟩

theorem notMem_row {x : Char} {close : List Char} {l : List α} (hsep : x ∉ sep)
    (hclose : x ∉ close) (h : ∀ a ∈ l, x ∉ f a) : x ∉ row f sep close l := by
  cases l with
  | nil => exact hclose
  | cons a l =>
    rw [row, List.mem_append, not_or]
    exact ⟨h a List.mem_cons_self,
      notMem_rowAfter hsep hclose fun b hb => h b (List.mem_cons_of_mem _ hb)⟩

end separated

/-! ### Bytes -/

theorem toList_loop (bs : ByteArray) (i : Nat) (r : List UInt8) :
    ByteArray.toList.loop bs i r = r.reverse ++ bs.data.toList.drop i := by
  fun_induction ByteArray.toList.loop bs i r with
  | case1 i r h ih =>
    have hi : i < bs.data.toList.length := h
    -- The access that checks its bound at run time is the one of the list.
    have hget : bs.get! i = bs.data.toList[i] := by
      obtain ⟨data⟩ := bs
      exact getElem!_pos data i h
    rw [ih, List.drop_eq_getElem_cons hi, hget, List.reverse_cons, List.append_assoc]
    rfl
  | case2 i r h =>
    rw [List.drop_eq_nil_of_le (Nat.le_of_not_lt h), List.append_nil]

/-- The bytes of a text. -/
theorem bytes_eq (s : String) : s.toUTF8.toList = s.toByteArray.data.toList := by
  rw [ByteArray.toList, toList_loop]
  rfl

theorem bytes_append (s t : String) :
    (s ++ t).toUTF8.toList = s.toUTF8.toList ++ t.toUTF8.toList := by
  rw [bytes_eq, bytes_eq, bytes_eq, String.toByteArray_append, ByteArray.toList_data_append]

/-- A text is known by its bytes. -/
theorem bytes_inj {s t : String} (h : s.toUTF8.toList = t.toUTF8.toList) : s = t := by
  rw [bytes_eq, bytes_eq, Array.toList_inj] at h
  exact String.toByteArray_inj.mp (ByteArray.ext h)

end Text

end SolidityCanvas
