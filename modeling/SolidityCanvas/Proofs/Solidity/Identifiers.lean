/-
The words of a type text, and those of the type of a declaration.

A type text is cut into words at all characters but letters, digits, the
underscore and the dollar sign.  White space is among these, also that of other
scripts (`isWordSeparator_of_isBlank`), so that what a text holds between
separators has its words in the text (`fieldsBy_append_cons`), and an identifier is
its own word (`fieldsBy_identifier`).

A declaration starts with a type, in which white space may stand between all parts
(`TypeExpression`), and what it mentions are the identifiers of this type
(`MentionsInType`).

* `mem_identifiers_read`: the type that is read of a declaration has them all, if no
  white space stands before the parenthesis of a mapping;
* `type_read_of_loose`: otherwise it is the word `mapping` alone.
-/
import SolidityCanvas.Proofs.Solidity.Declaration

namespace SolidityCanvas

/-! ### Fields of parts -/

namespace Text

variable {sep : Char → Bool}

theorem fieldsBy_ne_nil {c : Char} (h : sep c = false) (cs : List Char) :
    fieldsBy sep (c :: cs) ≠ [] := by
  rw [fieldsBy.eq_def]
  dsimp only
  rw [if_neg (by simp [h])]
  split
  · simp
  · split
    · simp
    · split <;> simp

/-- A separator cuts a text into parts that have fields of their own. -/
theorem fieldsBy_append_cons {c : Char} (h : sep c = true) (xs ys : List Char) :
    fieldsBy sep (xs ++ c :: ys) = fieldsBy sep xs ++ fieldsBy sep ys := by
  induction xs with
  | nil => exact fieldsBy_cons_of_sep h ys
  | cons x xs ih =>
    by_cases hx : sep x = true
    · rw [List.cons_append, fieldsBy_cons_of_sep hx, fieldsBy_cons_of_sep hx, ih]
    · rw [List.cons_append, fieldsBy.eq_def, fieldsBy.eq_def sep (x :: xs)]
      dsimp only
      rw [if_neg hx, if_neg hx, ih]
      cases xs with
      | nil => simp [h, fieldsBy]
      | cons d xs =>
        by_cases hd : sep d = true
        · simp [hd]
        · -- The next character goes on with the word.
          obtain ⟨w, rest, hw⟩ := List.exists_cons_of_ne_nil
            (fieldsBy_ne_nil (Bool.eq_false_iff.mpr hd) xs)
          simp [hd, hw]

theorem fieldsBy_separators {cs : List Char} (h : ∀ c ∈ cs, sep c = true) :
    fieldsBy sep cs = [] := by
  induction cs with
  | nil => rfl
  | cons c cs ih =>
    obtain ⟨hc, hcs⟩ := List.forall_mem_cons.mp h
    rw [fieldsBy_cons_of_sep hc, ih hcs]

/-- Separators around a text add no fields. -/
theorem fieldsBy_padded {front back : List Char} (hfront : ∀ c ∈ front, sep c = true)
    (hback : ∀ c ∈ back, sep c = true) (cs : List Char) :
    fieldsBy sep (front ++ (cs ++ back)) = fieldsBy sep cs := by
  have hend : fieldsBy sep (cs ++ back) = fieldsBy sep cs := by
    cases back with
    | nil => rw [List.append_nil]
    | cons c back =>
      obtain ⟨hc, hback⟩ := List.forall_mem_cons.mp hback
      rw [fieldsBy_append_cons hc, fieldsBy_separators hback, List.append_nil]
  induction front with
  | nil => exact hend
  | cons c front ih =>
    obtain ⟨hc, hfront⟩ := List.forall_mem_cons.mp hfront
    rw [List.cons_append, fieldsBy_cons_of_sep hc, ih hfront]

/-- Fields are made of characters of the text. -/
theorem mem_of_mem_fieldsBy {w cs : List Char} (h : w ∈ fieldsBy sep cs) : ∀ c ∈ w, c ∈ cs := by
  induction cs generalizing w with
  | nil => cases h
  | cons d cs ih =>
    have hrest : ∀ v ∈ fieldsBy sep cs, ∀ c ∈ v, c ∈ d :: cs :=
      fun v hv c hc => List.mem_cons_of_mem d (ih hv c hc)
    rw [fieldsBy.eq_def] at h
    dsimp only at h
    split at h
    · exact hrest w h
    split at h
    · obtain rfl := List.mem_singleton.mp h
      simp
    split at h
    · rcases List.mem_cons.mp h with rfl | h
      · simp
      · exact hrest w h
    split at h
    · obtain rfl := List.mem_singleton.mp h
      simp
    · rename_i v vs hfields
      rw [hfields] at hrest
      rcases List.mem_cons.mp h with rfl | h
      · exact List.forall_mem_cons.mpr ⟨List.mem_cons_self, hrest v List.mem_cons_self⟩
      · exact hrest w (List.mem_cons_of_mem v h)

/-! ### Ranges of code points that are written down -/

/-- Whether no range that is written in some lines meets one of the others. -/
def areApart (ranges : List CodeRange) (lines : List (List Char)) : Bool :=
  lines.all fun cs => (fieldsBy (· == ' ') cs).all fun w =>
    let r := CodeRange.ofWord w
    ranges.all fun b => r.last < b.first || b.last < r.first

/-- What lies in one of some ranges lies in none of those that are apart from them. -/
theorem listContains_of_areApart {ranges : List CodeRange} {lines : List String}
    {css : List (List Char)} (h : SpelledLines lines css) (hapart : areApart ranges css = true)
    {c : Char} (hc : ∃ b ∈ ranges, b.first ≤ c.toNat ∧ c.toNat ≤ b.last) :
    CodeRange.listContains (CodeRange.listOfLines lines) c = false := by
  obtain ⟨b, hb, hfirst, hlast⟩ := hc
  rw [CodeRange.listContains, CodeRange.listOfLines, h.wordsOf_eq, Bool.eq_false_iff]
  intro hany
  obtain ⟨r, hr, hcontains⟩ := List.any_eq_true.mp hany
  obtain ⟨w, hw, rfl⟩ := List.mem_map.mp hr
  obtain ⟨cs, hcs, hw⟩ := List.mem_flatMap.mp hw
  have hword := List.all_eq_true.mp (List.all_eq_true.mp hapart cs hcs) w hw
  have hapart := List.all_eq_true.mp hword b hb
  simp only [Bool.or_eq_true, decide_eq_true_eq] at hapart
  simp only [CodeRange.contains, Bool.and_eq_true, decide_eq_true_eq] at hcontains
  omega

end Text

namespace Solidity

open Text

/-! ### Separators -/

/-- White space beyond ASCII. -/
def wideBlanks : List CodeRange := [⟨0x85, 0x85⟩, ⟨0xA0, 0xA0⟩, ⟨0x1680, 0x1680⟩, ⟨0x2000, 0x200A⟩,
  ⟨0x2028, 0x2029⟩, ⟨0x202F, 0x202F⟩, ⟨0x205F, 0x205F⟩, ⟨0x3000, 0x3000⟩]

theorem exists_wideBlank {c : Char} (h : isBlank c = true) (hwide : ¬ c.toNat < 128) :
    ∃ b ∈ wideBlanks, b.first ≤ c.toNat ∧ c.toNat ≤ b.last := by
  simp only [wideBlanks, List.mem_cons, List.not_mem_nil, or_false, exists_eq_or_imp,
    exists_eq_left]
  simp only [isBlank, Bool.or_eq_true, Bool.and_eq_true, decide_eq_true_eq, beq_iff_eq] at h
  omega

-- The tables of letters and digits are read once, by these two computations.
set_option maxRecDepth 100000 in
theorem letters_apart : ∃ lines css, SpelledLines lines css ∧
    letterRanges = CodeRange.listOfLines lines ∧ areApart wideBlanks css = true := by
  apply Exists.intro
  apply Exists.intro
  refine ⟨?_, rfl, ?_⟩
  · repeat first | exact .nil | apply SpelledLines.cons
  · decide +kernel

set_option maxRecDepth 100000 in
theorem digits_apart : ∃ lines css, SpelledLines lines css ∧
    digitRanges = CodeRange.listOfLines lines ∧ areApart wideBlanks css = true := by
  apply Exists.intro
  apply Exists.intro
  refine ⟨?_, rfl, ?_⟩
  · repeat first | exact .nil | apply SpelledLines.cons
  · decide +kernel

/-- **White space separates words.** -/
theorem isWordSeparator_of_isBlank {c : Char} (h : isBlank c = true) :
    isWordSeparator c = true := by
  have hcontinue : isIdentifierContinue c = false := by
    by_contra hc
    rw [isBlank_of_isIdentifierContinue (Bool.eq_true_of_not_eq_false hc)] at h
    cases h
  simp only [isIdentifierContinue, isIdentifierStart, Bool.or_eq_false_iff] at hcontinue
  obtain ⟨⟨⟨hletter, hunderscore⟩, hdollar⟩, hdigit⟩ := hcontinue
  suffices htables : isLetter c = false ∧ isDigit c = false by
    simp [isWordSeparator, htables, hunderscore, hdollar]
  rw [isLetter, isDigit]
  by_cases hwide : c.toNat < 128
  · rw [if_pos hwide, if_pos hwide]
    exact ⟨hletter, hdigit⟩
  · obtain ⟨_, _, hspelled, hletters, hapart⟩ := letters_apart
    obtain ⟨_, _, hspelled', hdigits, hapart'⟩ := digits_apart
    have hblank := exists_wideBlank h hwide
    rw [if_neg hwide, if_neg hwide, hletters, hdigits]
    exact ⟨listContains_of_areApart hspelled hapart hblank,
      listContains_of_areApart hspelled' hapart' hblank⟩

theorem isWordSeparator_of_isIdentifierContinue {c : Char} (h : isIdentifierContinue c = true) :
    isWordSeparator c = false := by
  have hc := toNat_of_isIdentifierContinue h
  have hwide : c.toNat < 128 := by omega
  simp only [isIdentifierContinue, isIdentifierStart, Bool.or_eq_true] at h
  rw [isWordSeparator, isLetter, isDigit, if_pos hwide, if_pos hwide]
  rcases h with ((h | h) | h) | h <;> simp [h]

/-! ### Identifiers among the words -/

theorem mem_identifiers {n s : String} :
    n ∈ identifiers s ↔ isIdentifier n = true ∧ n.toList ∈ fieldsBy isWordSeparator s.toList := by
  rw [identifiers, isIdentifier, List.mem_map]
  constructor
  · rintro ⟨w, hw, rfl⟩
    rw [String.toList_ofList]
    exact (List.mem_filter.mp hw).symm
  · rintro ⟨hid, hw⟩
    exact ⟨n.toList, List.mem_filter.mpr ⟨hw, hid⟩, String.ofList_toList⟩

/-- An identifier is its own word. -/
theorem fieldsBy_identifier {n : String} (h : isIdentifier n = true) :
    fieldsBy isWordSeparator n.toList = [n.toList] := by
  have hword : fieldsBy isWordSeparator (n.toList ++ []) = n.toList :: fieldsBy isWordSeparator [] :=
    fieldsBy_append (isWord_of_isIdentifier h).1
      (fun c hc => isWordSeparator_of_isIdentifierContinue (isIdentifierContinue_of_mem h c hc))
      (by simp)
  rwa [List.append_nil] at hword

/-! ### Types that a declaration mentions -/

/-- The texts of types, with white space between their parts. -/
inductive TypeExpression : List Char → Prop
  | name {n : String} (h : isIdentifier n = true) : TypeExpression n.toList
  | payable {gap : List Char} (hne : gap ≠ []) (hgap : ∀ c ∈ gap, isBlank c = true) :
      TypeExpression ("address".toList ++ (gap ++ "payable".toList))
  | mapping {gap key value : List Char} (hgap : ∀ c ∈ gap, isBlank c = true)
      (hkey : TypeExpression key) (hvalue : TypeExpression value) :
      TypeExpression
        ("mapping".toList ++ (gap ++ '(' :: ((key ++ (['=', '>'] ++ value)) ++ [')'])))
  | array {cs suffix : List Char} (h : TypeExpression cs) (hsuffix : ArraySuffix suffix) :
      TypeExpression (cs ++ suffix)
  | padded {front cs back : List Char} (hfront : ∀ c ∈ front, isBlank c = true)
      (hback : ∀ c ∈ back, isBlank c = true) (h : TypeExpression cs) :
      TypeExpression (front ++ (cs ++ back))

/-- A type without white space and array brackets around it. -/
inductive TypeStem : List Char → Prop
  | name {n : String} (h : isIdentifier n = true) : TypeStem n.toList
  | payable {gap : List Char} (hne : gap ≠ []) (hgap : ∀ c ∈ gap, isBlank c = true) :
      TypeStem ("address".toList ++ (gap ++ "payable".toList))
  | mapping {gap inner : List Char} (hgap : ∀ c ∈ gap, isBlank c = true)
      (hinner : Balanced inner) :
      TypeStem ("mapping".toList ++ (gap ++ '(' :: (inner ++ [')'])))

/-- Array brackets and white space. -/
structure IsTail (cs : List Char) : Prop where
  head : ∀ c ∈ cs.head?, isBlank c = true ∨ c = '['
  mem : ∀ c ∈ cs, isBlank c = true ∨ isAsciiDigit c = true ∨ c = '[' ∨ c = ']'

/-- The name stands in the type that a declaration starts with.  The type ends with the
declaration, before white space or with a parenthesis or bracket. -/
def MentionsInType (s name : String) : Prop :=
  ∃ type rest, TypeExpression type ∧ s.toList = type ++ rest ∧
    ((∀ c ∈ rest.head?, isBlank c = true) ∨ ∃ c ∈ type.getLast?, c = ')' ∨ c = ']') ∧
    name ∈ identifiers (String.ofList type)

/-- A declaration starts with a mapping whose parenthesis stands behind white space. -/
def StartsWithLooseMapping (s : String) : Prop :=
  ∃ front gap rest, s.toList = front ++ ("mapping".toList ++ (gap ++ '(' :: rest)) ∧
    (∀ c ∈ front, isBlank c = true) ∧ gap ≠ [] ∧ ∀ c ∈ gap, isBlank c = true

section

variable {cs front stem tail : List Char}

theorem IsTail.append {xs ys : List Char} (h : IsTail xs) (h' : IsTail ys) : IsTail (xs ++ ys) where
  head c hc := by
    cases xs with
    | nil => exact h'.head c hc
    | cons x xs => exact h.head c hc
  mem c hc := (List.mem_append.mp hc).elim (h.mem c) (h'.mem c)

theorem isTail_of_isBlank (h : ∀ c ∈ cs, isBlank c = true) : IsTail cs where
  head c hc := .inl (h c (List.mem_of_mem_head? hc))
  mem c hc := .inl (h c hc)

theorem ArraySuffix.isTail (h : ArraySuffix cs) : IsTail cs where
  head c hc := by
    cases h with
    | nil => cases hc
    | @cons gap size rest hgap _ _ =>
      cases gap with
      | nil => exact .inr (Option.some.inj hc).symm
      | cons d gap => exact .inl (hgap c (Option.some.inj hc ▸ List.mem_cons_self))
  mem := h.of_mem

/-- What separates the brackets of a tail from what is before them separates words. -/
theorem IsTail.isWordSeparator_head (h : IsTail cs) : ∀ c ∈ cs.head?, isWordSeparator c = true := by
  intro c hc
  rcases h.head c hc with hblank | rfl
  · exact isWordSeparator_of_isBlank hblank
  · decide

theorem isIdentifierStart_of_isAsciiDigit {c : Char} (h : isAsciiDigit c = true) :
    isIdentifierStart c = false := by
  have hle : ∀ {a b : Char}, a ≤ b → a.toNat ≤ b.toNat := fun hab => hab
  rw [isAsciiDigit, Bool.and_eq_true, decide_eq_true_eq, decide_eq_true_eq] at h
  have hfirst : 48 ≤ c.toNat := hle h.1
  have hlast : c.toNat ≤ 57 := hle h.2
  by_contra hstart
  rw [Bool.not_eq_false, isIdentifierStart, isAsciiLetter] at hstart
  simp only [Bool.or_eq_true, Bool.and_eq_true, decide_eq_true_eq, beq_iff_eq] at hstart
  rcases hstart with ((⟨h1, -⟩ | ⟨h1, -⟩) | rfl) | rfl
  · exact absurd (show 97 ≤ c.toNat from hle h1) (by omega)
  · exact absurd (show 65 ≤ c.toNat from hle h1) (by omega)
  · exact absurd hlast (by decide)
  · exact absurd hfirst (by decide)

/-- A tail has no identifiers. -/
theorem IsTail.notMem_words (h : IsTail cs) {n : String} (hn : isIdentifier n = true) :
    n.toList ∉ fieldsBy isWordSeparator cs := by
  intro hmem
  rw [isIdentifier] at hn
  cases hchars : n.toList with
  | nil => rw [hchars] at hn; cases hn
  | cons d ds =>
    rw [hchars, isIdentifierChars, Bool.and_eq_true] at hn
    have hd := h.mem d (mem_of_mem_fieldsBy hmem d (by rw [hchars]; exact List.mem_cons_self))
    have hstart : isIdentifierContinue d = true := by simp [isIdentifierContinue, hn.1]
    rcases hd with hblank | hdigit | rfl | rfl
    · rw [isBlank_of_isIdentifierContinue hstart] at hblank
      cases hblank
    · rw [isIdentifierStart_of_isAsciiDigit hdigit] at hn
      exact absurd hn.1 (by decide)
    · exact absurd hn.1 (by decide)
    · exact absurd hn.1 (by decide)

theorem fieldsBy_append_of_head {xs ys : List Char}
    (h : ∀ c ∈ ys.head?, isWordSeparator c = true) :
    fieldsBy isWordSeparator (xs ++ ys) =
      fieldsBy isWordSeparator xs ++ fieldsBy isWordSeparator ys := by
  cases ys with
  | nil => simp [fieldsBy]
  | cons c ys =>
    have hc := h c rfl
    rw [fieldsBy_append_cons hc, fieldsBy_cons_of_sep hc]

theorem TypeExpression.balanced (h : TypeExpression cs) : Balanced cs := by
  induction h with
  | name hn => exact balanced_of_forall (ne_parens_of_isIdentifier hn)
  | payable _ hgap =>
    have hword : ∀ w ∈ ["address", "payable"], Balanced w.toList := fun w hw =>
      balanced_of_forall (by revert w; simp)
    exact (hword _ (by simp)).append ((balanced_of_isBlank hgap).append (hword _ (by simp)))
  | mapping hgap _ _ ihKey ihValue =>
    have hword : Balanced "mapping".toList := balanced_of_forall (by simp)
    exact hword.append ((balanced_of_isBlank hgap).append (.parens (ihKey.arrow ihValue) .nil))
  | array _ hsuffix ih => exact ih.append (balanced_of_forall hsuffix.ne_parens)
  | padded hfront hback _ ih =>
    exact (balanced_of_isBlank hfront).append (ih.append (balanced_of_isBlank hback))

/-- A type is a stem with white space and brackets around it. -/
theorem TypeExpression.exists_stem (h : TypeExpression cs) :
    ∃ front stem tail, cs = front ++ (stem ++ tail) ∧ (∀ c ∈ front, isBlank c = true) ∧
      TypeStem stem ∧ IsTail tail := by
  have hnil : IsTail [] := ⟨by simp, by simp⟩
  induction h with
  | name hn => exact ⟨[], _, [], by simp, by simp, .name hn, hnil⟩
  | payable hne hgap => exact ⟨[], _, [], by simp, by simp, .payable hne hgap, hnil⟩
  | mapping hgap hkey hvalue _ _ =>
    exact ⟨[], _, [], by simp, by simp, .mapping hgap (hkey.balanced.arrow hvalue.balanced), hnil⟩
  | array _ hsuffix ih =>
    obtain ⟨front, stem, tail, rfl, hfront, hstem, htail⟩ := ih
    exact ⟨front, stem, _, by simp only [List.append_assoc], hfront, hstem,
      htail.append hsuffix.isTail⟩
  | @padded blanks _ back hblanks hback _ ih =>
    obtain ⟨front, stem, tail, rfl, hfront, hstem, htail⟩ := ih
    exact ⟨blanks ++ front, stem, tail ++ back, by simp only [List.append_assoc],
      List.forall_mem_append.mpr ⟨hblanks, hfront⟩, hstem,
      htail.append (isTail_of_isBlank hback)⟩

/-- The identifiers of a type are those of its stem. -/
theorem mem_words_stem (hfront : ∀ c ∈ front, isBlank c = true) (htail : IsTail tail) {n : String}
    (hn : n ∈ identifiers (String.ofList (front ++ (stem ++ tail)))) :
    isIdentifier n = true ∧ n.toList ∈ fieldsBy isWordSeparator stem := by
  obtain ⟨hid, hword⟩ := mem_identifiers.mp hn
  have hpadded : fieldsBy isWordSeparator (front ++ ((stem ++ tail) ++ [])) =
      fieldsBy isWordSeparator (stem ++ tail) :=
    fieldsBy_padded (fun c hc => isWordSeparator_of_isBlank (hfront c hc)) (by simp) _
  rw [List.append_nil] at hpadded
  rw [String.toList_ofList, hpadded, fieldsBy_append_of_head htail.isWordSeparator_head] at hword
  exact ⟨hid, (List.mem_append.mp hword).resolve_right (htail.notMem_words hid)⟩

/-! ### Types that are read -/

variable {s : String} {kept : List Char}

/-- A mapping is read up to its last parenthesis at least. -/
theorem exists_type_read_mapping {inner : List Char} (hinner : Balanced inner)
    (hs : trimChars s.toList = "mapping(".toList ++ (inner ++ ')' :: kept)) :
    ∃ brackets, (Parameter.read s).type =
      String.ofList ("mapping(".toList ++ (inner ++ ')' :: brackets)) := by
  have hbegins : "mapping(".toList.isPrefixOf
      ("mapping(".toList ++ (inner ++ ')' :: kept)) = true :=
    List.isPrefixOf_iff_prefix.mpr (List.prefix_append _ _)
  have hdrop : ("mapping(".toList ++ (inner ++ ')' :: kept)).drop 8 = inner ++ ')' :: kept :=
    List.drop_left' rfl
  have htake : ("mapping(".toList ++ (inner ++ ')' :: kept)).take 8 = "mapping(".toList :=
    List.take_left' rfl
  rw [Parameter.read, hs]
  dsimp only
  rw [if_pos hbegins, hdrop, closeParens_balanced hinner]
  refine ⟨(leadingBrackets kept).1, ?_⟩
  dsimp only
  rw [type_foldl_addWord, htake]
  simp

/-- Otherwise the first word of a declaration is its type, but for `address payable`. -/
theorem type_read_of_fields {first : List Char} {more : List (List Char)}
    (hmapping : ¬"mapping(".toList <+: trimChars s.toList)
    (hfields : fieldsBy isBlank (trimChars s.toList) = first :: more) :
    (Parameter.read s).type = "address payable" ∧ first = "address".toList ∨
      (Parameter.read s).type = String.ofList first ∧
        ¬(first = "address".toList ∧ ∃ w ∈ more.head?, "payable".toList <+: w) := by
  have hwords : fields (String.ofList (trimChars s.toList)) =
      String.ofList first :: more.map String.ofList := by
    rw [fields, String.toList_ofList, hfields, List.map_cons]
  rw [Parameter.read]
  dsimp only
  rw [if_neg (by rwa [List.isPrefixOf_iff_prefix]), hwords]
  dsimp only
  by_cases haddress : first = "address".toList
  · have hpayable : hasPrefix (" ".intercalate (more.map String.ofList)) "payable" = true ↔
        ∃ w ∈ more.head?, "payable".toList <+: w := by
      cases more with
      | nil => simp [String.intercalate, hasPrefix]
      | cons w more =>
        rw [List.map_cons, hasPrefix_intercalate (by simp [isBlank]), hasPrefix,
          List.isPrefixOf_iff_prefix, String.toList_ofList]
        simp
    rw [if_pos (by simp [haddress]), dropPrefix?]
    by_cases hnext : hasPrefix (" ".intercalate (more.map String.ofList)) "payable" = true
    · rw [if_pos hnext]
      exact .inl ⟨type_foldl_addWord _ _, haddress⟩
    · rw [if_neg hnext]
      exact .inr ⟨type_foldl_addWord _ _, fun h => hnext (hpayable.mpr h.2)⟩
  · have hfirst : ¬(String.ofList first == "address") = true := by
      rw [beq_iff_eq, ← String.toList_inj, String.toList_ofList]
      exact haddress
    rw [if_neg hfirst]
    exact .inr ⟨type_foldl_addWord _ _, fun h => haddress h.1⟩

/-- The first field goes on to the first white space. -/
theorem fieldsBy_isBlank_append {w : List Char} (hw : IsWord w) (kept : List Char) :
    ∃ more, fieldsBy isBlank (w ++ kept) = (w ++ kept.takeWhile (!isBlank ·)) :: more := by
  have hrest : ∀ c ∈ (kept.dropWhile (!isBlank ·)).head?, isBlank c = true := by
    intro c hc
    have hhead := List.head?_dropWhile_not (!isBlank ·) kept
    rw [hc] at hhead
    simpa using hhead
  refine ⟨fieldsBy isBlank (kept.dropWhile (!isBlank ·)), ?_⟩
  conv_lhs => rw [← List.takeWhile_append_dropWhile (p := (!isBlank ·)) (l := kept)]
  rw [← List.append_assoc]
  refine fieldsBy_append (by simp [hw.1]) (List.forall_mem_append.mpr ⟨hw.2, fun c hc => ?_⟩) hrest
  simpa using List.mem_takeWhile_imp hc

/-- A name is read with the brackets after it, unless it is the first word of
`address payable`. -/
theorem type_read_name {n : String} (hn : isIdentifier n = true)
    (hkept : ∀ c ∈ kept.head?, isBlank c = true ∨ c = '[')
    (hs : trimChars s.toList = n.toList ++ kept) :
    (Parameter.read s).type = "address payable" ∧ n = "address" ∨
      (Parameter.read s).type = String.ofList (n.toList ++ kept.takeWhile (!isBlank ·)) := by
  have hmapping : ¬"mapping(".toList <+: trimChars s.toList := by
    rw [hs, prefix_append_iff fun c hc => ?_]
    · exact fun h => notMem_of_isIdentifier hn rfl (h.subset (by decide : '(' ∈ "mapping(".toList))
    · rcases hkept c hc with hblank | rfl
      · exact fun hmem => ne_of_isBlank hblank
          ((by simp [isBlank] : ∀ d ∈ "mapping(".toList, isBlank d = false) c hmem) rfl
      · decide
  obtain ⟨more, hfields⟩ := fieldsBy_isBlank_append (isWord_of_isIdentifier hn) kept
  refine (type_read_of_fields hmapping (hs ▸ hfields)).imp (And.imp_right fun h => ?_) (·.1)
  -- brackets after the name would stand in the word
  cases kept with
  | nil => exact String.toList_inj.mp (by simpa using h)
  | cons c kept =>
    rcases hkept c rfl with hblank | rfl
    · exact String.toList_inj.mp (by simpa [hblank] using h)
    · exact absurd (h ▸ by simp [isBlank] : '[' ∈ "address".toList) (by decide)

/-- The two words of `address payable` are read, whatever white space is between them. -/
theorem type_read_payable {gap : List Char} (hne : gap ≠ []) (hgap : ∀ c ∈ gap, isBlank c = true)
    (hs : trimChars s.toList = "address".toList ++ (gap ++ ("payable".toList ++ kept))) :
    (Parameter.read s).type = "address payable" := by
  have hgaphead : ∀ c ∈ (gap ++ ("payable".toList ++ kept)).head?, isBlank c = true := by
    obtain ⟨c, gap, rfl⟩ := List.exists_cons_of_ne_nil hne
    exact fun d hd => Option.some.inj hd ▸ hgap c List.mem_cons_self
  obtain ⟨more, hsecond⟩ := fieldsBy_isBlank_append (w := "payable".toList) (by decide) kept
  have hfields : fieldsBy isBlank (trimChars s.toList) =
      "address".toList :: ("payable".toList ++ kept.takeWhile (!isBlank ·)) :: more := by
    have hpadded : fieldsBy isBlank (gap ++ (("payable".toList ++ kept) ++ [])) =
        fieldsBy isBlank ("payable".toList ++ kept) := fieldsBy_padded hgap (by simp) _
    rw [List.append_nil] at hpadded
    rw [hs, fieldsBy_append (by simp) (by simp [isBlank]) hgaphead, hpadded, hsecond]
  have hmapping : ¬"mapping(".toList <+: trimChars s.toList := by
    rw [hs]
    rintro ⟨rest, h⟩
    cases h
  rcases type_read_of_fields hmapping hfields with ⟨h, -⟩ | ⟨-, h⟩
  · exact h
  · exact absurd ⟨rfl, _, rfl, List.prefix_append _ _⟩ h

/-- Neither end of a stem is white space. -/
theorem TypeStem.isTrimmed (h : TypeStem stem) : stem ≠ [] ∧
    (∀ c ∈ stem.head?, isBlank c = false) ∧ ∀ c ∈ stem.getLast?, isBlank c = false := by
  cases h with
  | name hn =>
    obtain ⟨hne, hword⟩ := isWord_of_isIdentifier hn
    exact ⟨hne, fun c hc => hword c (List.mem_of_mem_head? hc),
      fun c hc => hword c (List.mem_of_getLast? hc)⟩
  | @payable gap _ _ =>
    have hlast : ("address".toList ++ (gap ++ "payable".toList)).getLast? = some 'e' := by
      rw [← List.append_assoc, List.getLast?_append_of_ne_nil _ (by decide)]
      rfl
    exact ⟨by simp, by simp [isBlank], by rw [hlast]; simp [isBlank]⟩
  | @mapping gap inner _ _ =>
    have hlast : ("mapping".toList ++ (gap ++ '(' :: (inner ++ [')']))).getLast? = some ')' := by
      rw [← List.cons_append, ← List.append_assoc, ← List.append_assoc, List.getLast?_concat]
    exact ⟨by simp, by simp [isBlank], by rw [hlast]; simp [isBlank]⟩

section

variable {name : String}

/-- A name stands in the type that is read of a declaration that starts with it. -/
theorem mem_identifiers_read_name (hid : isIdentifier name = true)
    (hkept : ∀ c ∈ kept.head?, isBlank c = true ∨ c = '[')
    (hs : trimChars s.toList = name.toList ++ kept) :
    name ∈ identifiers (Parameter.read s).type := by
  rcases type_read_name hid hkept hs with ⟨hread, rfl⟩ | hread
  · rw [hread]
    decide +kernel
  · -- what comes after the name is a bracket, if anything is
    have hbrackets : ∀ c ∈ (kept.takeWhile (!isBlank ·)).head?, isWordSeparator c = true := by
      intro c hc
      have hblank := List.mem_takeWhile_imp (List.mem_of_mem_head? hc)
      rw [List.head?_takeWhile] at hc
      rcases hkept c (Option.mem_filter_iff.mp hc).1 with hb | rfl
      · simp [hb] at hblank
      · decide
    rw [hread, mem_identifiers, String.toList_ofList, fieldsBy_append_of_head hbrackets,
      fieldsBy_identifier hid]
    exact ⟨hid, by simp⟩

/-- So do the two words of `address payable`. -/
theorem mem_identifiers_read_payable {gap : List Char} (hne : gap ≠ [])
    (hgap : ∀ c ∈ gap, isBlank c = true)
    (hs : trimChars s.toList = "address".toList ++ (gap ++ ("payable".toList ++ kept)))
    (hword : name.toList ∈
      fieldsBy isWordSeparator ("address".toList ++ (gap ++ "payable".toList))) :
    name ∈ identifiers (Parameter.read s).type := by
  obtain ⟨c, gap, rfl⟩ := List.exists_cons_of_ne_nil hne
  have hseparates : ∀ d ∈ c :: gap, isWordSeparator d = true :=
    fun d hd => isWordSeparator_of_isBlank (hgap d hd)
  have hpadded : fieldsBy isWordSeparator (gap ++ ("payable".toList ++ [])) =
      fieldsBy isWordSeparator "payable".toList :=
    fieldsBy_padded (fun d hd => hseparates d (List.mem_cons_of_mem c hd)) (by simp) _
  rw [List.append_nil] at hpadded
  rw [List.cons_append, fieldsBy_append_cons (hseparates c List.mem_cons_self), hpadded,
    fieldsBy_identifier (by decide), fieldsBy_identifier (by decide), List.mem_append,
    List.mem_singleton, List.mem_singleton, String.toList_inj, String.toList_inj] at hword
  rw [type_read_payable hne hgap hs]
  rcases hword with rfl | rfl
  · decide +kernel
  · decide +kernel

/-- So do the names between the parentheses of a mapping. -/
theorem mem_identifiers_read_mapping {inner : List Char} (hinner : Balanced inner)
    (hs : trimChars s.toList = "mapping(".toList ++ (inner ++ ')' :: kept))
    (hid : isIdentifier name = true)
    (hword : name.toList ∈ fieldsBy isWordSeparator ("mapping(".toList ++ (inner ++ [')']))) :
    name ∈ identifiers (Parameter.read s).type := by
  have hparts : ∀ after, fieldsBy isWordSeparator ("mapping(".toList ++ (inner ++ ')' :: after)) =
      fieldsBy isWordSeparator ("mapping(".toList ++ inner) ++ fieldsBy isWordSeparator after := by
    intro after
    rw [← List.append_assoc, fieldsBy_append_cons (by decide)]
  obtain ⟨brackets, hread⟩ := exists_type_read_mapping hinner hs
  rw [hparts, List.mem_append, or_iff_left (by simp [fieldsBy])] at hword
  rw [hread, mem_identifiers, String.toList_ofList, hparts]
  exact ⟨hid, List.mem_append_left _ hword⟩

/-- **The names in the type of a declaration stand in the type that is read**, unless there is
white space before the parenthesis of a mapping. -/
theorem mem_identifiers_read (h : MentionsInType s name) (hloose : ¬StartsWithLooseMapping s) :
    name ∈ identifiers (Parameter.read s).type := by
  obtain ⟨_, rest, htype, hs, hrest, hname⟩ := h
  obtain ⟨front, stem, tail, rfl, hfront, hstem, htail⟩ := htype.exists_stem
  obtain ⟨hid, hword⟩ := mem_words_stem hfront htail hname
  obtain ⟨hne, hhead, hlast⟩ := hstem.isTrimmed
  obtain ⟨kept, ⟨more, hmore⟩, htrim⟩ :=
    exists_trimChars_append (tail ++ rest) hfront hne hhead hlast
  have hparts : s.toList = front ++ (stem ++ (tail ++ rest)) := by
    rw [hs]
    simp only [List.append_assoc]
  rw [← hparts] at htrim
  cases hstem with
  | @name n hn =>
    rw [fieldsBy_identifier hn, List.mem_singleton, String.toList_inj] at hword
    subst hword
    refine mem_identifiers_read_name hn (fun c hc => ?_) htrim
    have hc : c ∈ (tail ++ rest).head? := by
      rw [← hmore, List.head?_append, Option.mem_def.mp hc]
      rfl
    cases tail with
    | cons d tail => exact htail.head c hc
    | nil =>
      -- the name ends the type, so that white space comes after it
      rcases hrest with hblank | ⟨d, hd, hbracket⟩
      · exact .inl (hblank c hc)
      · rw [List.append_nil, List.getLast?_append_of_ne_nil _ hne] at hd
        have hmem : d ∈ name.toList := List.mem_of_getLast? hd
        rcases hbracket with rfl | rfl
        · exact absurd hmem (notMem_of_isIdentifier hn rfl)
        · exact absurd hmem (notMem_of_isIdentifier hn rfl)
  | @payable gap hgapne hgap =>
    have htrim : trimChars s.toList = "address".toList ++ (gap ++ ("payable".toList ++ kept)) := by
      rw [htrim]
      simp only [List.append_assoc]
    exact mem_identifiers_read_payable hgapne hgap htrim hword
  | @mapping gap inner hgap hinner =>
    have hempty : gap = [] := by
      by_contra hgapne
      rw [List.append_assoc, List.append_assoc] at hparts
      exact hloose ⟨front, gap, _, hparts, hfront, hgapne, hgap⟩
    subst hempty
    have htrim : trimChars s.toList = "mapping(".toList ++ (inner ++ ')' :: kept) := by
      rw [htrim]
      simp
    exact mem_identifiers_read_mapping hinner htrim hid hword

end

/-- **Of a mapping with white space before its parenthesis only the word is read.** -/
theorem type_read_of_loose (h : StartsWithLooseMapping s) : (Parameter.read s).type = "mapping" := by
  obtain ⟨front, gap, rest, hs, hfront, hne, hgap⟩ := h
  obtain ⟨c, gap, rfl⟩ := List.exists_cons_of_ne_nil hne
  have hc : isBlank c = true := hgap c List.mem_cons_self
  have hword : "mapping".toList ≠ [] := by simp
  obtain ⟨kept, hkept, htrim⟩ := exists_trimChars_append ((c :: gap) ++ '(' :: rest) hfront hword
    (by simp [isBlank]) (by simp [isBlank])
  have hhead : ∀ d ∈ kept.head?, d = c := by
    obtain ⟨more, hmore⟩ := hkept
    cases kept with
    | nil => simp
    | cons d kept =>
      obtain ⟨rfl, -⟩ := List.cons.inj hmore
      simp
  rw [← hs] at htrim
  rcases type_read_name (n := "mapping") (by decide) (fun d hd => .inl (hhead d hd ▸ hc)) htrim with
    ⟨-, h⟩ | h
  · exact absurd h (by decide)
  · rw [h]
    cases kept with
    | nil => rfl
    | cons d kept =>
      obtain rfl := hhead d rfl
      simp [hc]

end

end Solidity

end SolidityCanvas
