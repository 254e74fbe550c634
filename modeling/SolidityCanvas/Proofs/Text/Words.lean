/-
Words and the white space between them.

* `fieldsBy_append`: a word in front of a separator is the first field;
* `fields_spaced`: words after one space each are the fields of the text;
* `trimChars_eq_self`: trimming keeps a text that neither begins nor ends with
  white space, and `exists_trimChars` and `exists_trimChars_append` say what it
  takes away from any other.
-/
import Mathlib.Data.List.TakeWhile
import SolidityCanvas.Text.Split

namespace SolidityCanvas.Text

/-- A text that is not empty and has no white space. -/
def IsWord (w : List Char) : Prop := w ≠ [] ∧ ∀ c ∈ w, isBlank c = false

instance (w : List Char) : Decidable (IsWord w) :=
  decidable_of_iff (w ≠ [] ∧ w.all (!isBlank ·) = true) (by simp [IsWord])

/-! ### Fields -/

section

variable {sep : Char → Bool}

theorem fieldsBy_cons_of_sep {c : Char} (h : sep c = true) (cs : List Char) :
    fieldsBy sep (c :: cs) = fieldsBy sep cs := by
  rw [fieldsBy.eq_def]
  exact if_pos h

/-- A word that a separator or the end follows is the first field. -/
theorem fieldsBy_append {w rest : List Char} (hne : w ≠ []) (hw : ∀ c ∈ w, sep c = false)
    (hrest : ∀ c ∈ rest.head?, sep c = true) :
    fieldsBy sep (w ++ rest) = w :: fieldsBy sep rest := by
  induction w with
  | nil => exact absurd rfl hne
  | cons c w ih =>
    obtain ⟨hc, hw⟩ := List.forall_mem_cons.mp hw
    rw [List.cons_append, fieldsBy.eq_def]
    dsimp only
    rw [if_neg (by simp [hc])]
    cases w with
    | nil =>
      cases rest with
      | nil => rfl
      | cons d rest => simp [hrest d (by simp)]
    | cons d w =>
      rw [ih (by simp) hw]
      simp [(List.forall_mem_cons.mp hw).1]

end

/-- Words, each after one space. -/
def spaced (words : List (List Char)) : List Char := words.flatMap (' ' :: ·)

theorem head?_spaced (words : List (List Char)) :
    ∀ c ∈ (spaced words).head?, isBlank c = true := by
  cases words with
  | nil => simp [spaced]
  | cons w words =>
    intro c hc
    obtain rfl : ' ' = c := by simpa [spaced] using hc
    rfl

theorem fieldsBy_spaced {words : List (List Char)} (h : ∀ w ∈ words, IsWord w) :
    fieldsBy isBlank (spaced words) = words := by
  induction words with
  | nil => rfl
  | cons w words ih =>
    obtain ⟨⟨hne, hw⟩, hwords⟩ := List.forall_mem_cons.mp h
    change fieldsBy isBlank (' ' :: (w ++ spaced words)) = _
    rw [fieldsBy_cons_of_sep rfl, fieldsBy_append hne hw (head?_spaced words), ih hwords]

theorem fieldsBy_append_spaced {w : List Char} {words : List (List Char)} (hw : IsWord w)
    (h : ∀ w ∈ words, IsWord w) : fieldsBy isBlank (w ++ spaced words) = w :: words := by
  rw [fieldsBy_append hw.1 hw.2 (head?_spaced words), fieldsBy_spaced h]

/-- A text and the words that follow it, with single spaces between them. -/
theorem toList_intercalate_space (s : String) (words : List String) :
    (" ".intercalate (s :: words)).toList = s.toList ++ spaced (words.map (·.toList)) := by
  have hspace : " ".toList = [' '] := rfl
  rw [String.toList_intercalate, List.map_cons, hspace]
  generalize s.toList = cs
  induction words generalizing cs with
  | nil => simp [spaced]
  | cons w words ih =>
    rw [List.map_cons, List.intercalate_cons_cons, ih]
    simp [spaced]

/-- The start of a text does not reach beyond a character that is not in it. -/
theorem prefix_append_iff {pat cs rest : List Char} (h : ∀ c ∈ rest.head?, c ∉ pat) :
    pat <+: cs ++ rest ↔ pat <+: cs := by
  refine ⟨fun ⟨after, hafter⟩ => ?_, fun h => h.trans (List.prefix_append _ _)⟩
  rcases List.append_eq_append_iff.mp hafter with ⟨more, hcs, -⟩ | ⟨more, hmore, hrest⟩
  · exact ⟨more, hcs.symm⟩
  · cases more with
    | nil => exact ⟨[], by rw [hmore]; simp⟩
    | cons d more => exact absurd (by rw [hmore]; simp) (h d (by rw [hrest]; rfl))

/-- A word at the start of a text stands in the first word. -/
theorem prefix_append_spaced {pat cs : List Char} {words : List (List Char)}
    (hpat : ∀ c ∈ pat, isBlank c = false) : pat <+: cs ++ spaced words ↔ pat <+: cs :=
  prefix_append_iff fun c hc hmem => by
    have hblank := head?_spaced words c hc
    rw [hpat c hmem] at hblank
    cases hblank

/-! ### Trimming -/

theorem isWord_spaced_getLast? {words : List (List Char)} (h : ∀ w ∈ words, IsWord w) :
    ∀ c ∈ (spaced words).getLast?, isBlank c = false := by
  intro c hc
  induction words with
  | nil => simp [spaced] at hc
  | cons w words ih =>
    obtain ⟨⟨hne, hw⟩, hwords⟩ := List.forall_mem_cons.mp h
    change c ∈ (' ' :: w ++ spaced words).getLast? at hc
    rw [List.getLast?_append] at hc
    cases hlast : (spaced words).getLast? with
    | some d =>
      obtain rfl : d = c := by simpa [hlast] using hc
      exact ih hwords hlast
    | none =>
      rw [hlast, Option.none_or, List.getLast?_cons_of_ne_nil hne] at hc
      exact hw c (List.mem_of_getLast? hc)

theorem fields_spaced {words : List String} (h : ∀ w ∈ words, IsWord w.toList) :
    fields (String.ofList (spaced (words.map (·.toList)))) = words := by
  rw [fields, String.toList_ofList, fieldsBy_spaced (List.forall_mem_map.mpr h), List.map_map]
  simp [Function.comp_def]

theorem dropWhile_eq_self {α : Type} {p : α → Bool} {l : List α}
    (h : ∀ a ∈ l.head?, p a = false) : l.dropWhile p = l := by
  cases l with
  | nil => rfl
  | cons a l => rw [List.dropWhile_cons_of_neg (by simp [h a (by simp)])]

/-- A text that neither begins nor ends with white space is not trimmed. -/
theorem trimChars_eq_self {cs : List Char} (hhead : ∀ c ∈ cs.head?, isBlank c = false)
    (hlast : ∀ c ∈ cs.getLast?, isBlank c = false) : trimChars cs = cs := by
  rw [trimChars, dropWhile_eq_self hhead, dropRightWhile,
    dropWhile_eq_self (by rwa [List.head?_reverse]), List.reverse_reverse]

theorem trimChars_append_spaced {cs : List Char} {words : List (List Char)}
    (hhead : ∀ c ∈ cs.head?, isBlank c = false) (hlast : ∀ c ∈ cs.getLast?, isBlank c = false)
    (hne : cs ≠ []) (h : ∀ w ∈ words, IsWord w) :
    trimChars (cs ++ spaced words) = cs ++ spaced words := by
  refine trimChars_eq_self ?_ fun c hc => ?_
  · obtain ⟨d, cs, rfl⟩ := List.exists_cons_of_ne_nil hne
    exact hhead
  · rw [List.getLast?_append] at hc
    cases hwords : (spaced words).getLast? with
    | some d =>
      obtain rfl : d = c := by simpa [hwords] using hc
      exact isWord_spaced_getLast? h d hwords
    | none => exact hlast c (by simpa [hwords] using hc)

/-- Trimming takes away white space at both ends. -/
theorem exists_trimChars (cs : List Char) : ∃ front back, cs = front ++ (trimChars cs ++ back) ∧
    (∀ c ∈ front, isBlank c = true) ∧ ∀ c ∈ back, isBlank c = true := by
  let rest := cs.dropWhile isBlank
  have hfront : cs.takeWhile isBlank ++ rest = cs := List.takeWhile_append_dropWhile
  have hback : rest.reverse.takeWhile isBlank ++ rest.reverse.dropWhile isBlank = rest.reverse :=
    List.takeWhile_append_dropWhile
  refine ⟨cs.takeWhile isBlank, (rest.reverse.takeWhile isBlank).reverse, ?_,
    fun c hc => List.mem_takeWhile_imp hc,
    fun c hc => List.mem_takeWhile_imp (List.mem_reverse.mp hc)⟩
  have hrest := congrArg List.reverse hback
  rw [List.reverse_append, List.reverse_reverse] at hrest
  rw [trimChars, dropRightWhile, hrest]
  exact hfront.symm

theorem head?_trimChars (cs : List Char) : ∀ c ∈ (trimChars cs).head?, isBlank c = false := by
  intro c hc
  obtain ⟨d, rest, hcs⟩ : ∃ d rest, cs.dropWhile isBlank = d :: rest := by
    refine List.exists_cons_of_ne_nil fun hnil => ?_
    rw [trimChars, hnil] at hc
    simp [dropRightWhile] at hc
  have hd : isBlank d = false := by
    have hhead := List.head?_dropWhile_not isBlank cs
    rw [hcs] at hhead
    simpa using hhead
  -- the last character that is no white space may be the first one
  rw [trimChars, hcs, dropRightWhile, List.head?_reverse] at hc
  have hsuffix : (d :: rest).reverse.dropWhile isBlank <:+ (d :: rest).reverse :=
    List.dropWhile_suffix _
  obtain ⟨front, hfront⟩ := hsuffix
  have hlast : (d :: rest).reverse.getLast? = some d := by simp
  rw [← hfront, List.getLast?_append, hc] at hlast
  obtain rfl : c = d := by simpa using hlast
  exact hd

theorem getLast?_trimChars (cs : List Char) :
    ∀ c ∈ (trimChars cs).getLast?, isBlank c = false := by
  intro c hc
  rw [trimChars, dropRightWhile, List.getLast?_reverse] at hc
  have hhead := List.head?_dropWhile_not isBlank (cs.dropWhile isBlank).reverse
  rw [hc] at hhead
  simpa using hhead

@[simp] theorem trimChars_trimChars (cs : List Char) : trimChars (trimChars cs) = trimChars cs :=
  trimChars_eq_self (head?_trimChars cs) (getLast?_trimChars cs)

/-- Trimming keeps the start of a text between white space and a tail. -/
theorem exists_trimChars_append {front stem : List Char} (tail : List Char)
    (hfront : ∀ c ∈ front, isBlank c = true) (hne : stem ≠ [])
    (hhead : ∀ c ∈ stem.head?, isBlank c = false) (hlast : ∀ c ∈ stem.getLast?, isBlank c = false) :
    ∃ kept, kept <+: tail ∧ trimChars (front ++ (stem ++ tail)) = stem ++ kept := by
  let kept := dropRightWhile isBlank tail
  have hkept : kept <+: tail := by
    rw [← List.reverse_suffix, show kept.reverse = _ from List.reverse_reverse _]
    exact List.dropWhile_suffix _
  refine ⟨kept, hkept, ?_⟩
  have hstart : ∀ c ∈ (stem ++ tail).head?, isBlank c = false := by
    obtain ⟨d, stem, rfl⟩ := List.exists_cons_of_ne_nil hne
    exact hhead
  rw [trimChars, List.dropWhile_append_of_pos hfront, dropWhile_eq_self hstart]
  have hstem : stem.reverse.dropWhile isBlank = stem.reverse :=
    dropWhile_eq_self (by rwa [List.head?_reverse])
  show ((stem ++ tail).reverse.dropWhile isBlank).reverse =
    stem ++ (tail.reverse.dropWhile isBlank).reverse
  rw [List.reverse_append, List.dropWhile_append, hstem]
  split
  next hempty => rw [List.isEmpty_iff.mp hempty]; simp
  next => simp

/-! ### Lines with their characters -/

/-- The characters of some lines, one list for each. -/
inductive SpelledLines : List String → List (List Char) → Prop
  | nil : SpelledLines [] []
  | cons (cs : List Char) {lines : List String} {css : List (List Char)}
      (h : SpelledLines lines css) : SpelledLines (String.ofList cs :: lines) (cs :: css)

/-- The words of the lines are those of the characters, which take less to compute. -/
theorem SpelledLines.wordsOf_eq {lines : List String} {css : List (List Char)}
    (h : SpelledLines lines css) : wordsOf lines = css.flatMap (fieldsBy (· == ' ')) := by
  induction h with
  | nil => rfl
  | cons cs _ ih =>
    rw [wordsOf, List.flatMap_cons, words, String.toList_ofList, List.flatMap_cons, ← ih]
    rfl

end SolidityCanvas.Text
