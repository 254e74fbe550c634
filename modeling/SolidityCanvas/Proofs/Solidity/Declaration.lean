/-
Declarations that are written and read back.

`declaration` writes a type with the word `indexed`, a location and a name, and
`Parameter.read` cuts such a text into these parts again.

* `typeForm_of_isType`: a type is a mapping, `address payable` or one word, each
  with array brackets after it;
* `Balanced.closeParens`: the parentheses of a mapping are matched, so that the
  reader finds where it ends;
* `read_declaration_iff`: reading gives back what was written, unless the reader
  takes the start of a name or of a word with brackets for the second word of
  `address payable`.
-/
import SolidityCanvas.Proofs.Text.Words
import SolidityCanvas.Proofs.Validation.Verdict
import SolidityCanvas.Solidity.TypeName

namespace SolidityCanvas.Solidity

open Text

/-! ### Identifiers -/

theorem toNat_of_isIdentifierContinue {c : Char} (h : isIdentifierContinue c = true) :
    c.toNat = 36 ∨ c.toNat = 95 ∨ (48 ≤ c.toNat ∧ c.toNat ≤ 57) ∨ (65 ≤ c.toNat ∧ c.toNat ≤ 90) ∨
      (97 ≤ c.toNat ∧ c.toNat ≤ 122) := by
  have hle : ∀ {a b : Char}, a ≤ b → a.toNat ≤ b.toNat := fun hab => hab
  simp only [isIdentifierContinue, isIdentifierStart, isAsciiLetter, isAsciiDigit, Bool.or_eq_true,
    Bool.and_eq_true, decide_eq_true_eq, beq_iff_eq] at h
  rcases h with (((⟨h1, h2⟩ | ⟨h1, h2⟩) | rfl) | rfl) | ⟨h1, h2⟩
  · exact .inr (.inr (.inr (.inr ⟨hle h1, hle h2⟩)))
  · exact .inr (.inr (.inr (.inl ⟨hle h1, hle h2⟩)))
  · exact .inr (.inl rfl)
  · exact .inl rfl
  · exact .inr (.inr (.inl ⟨hle h1, hle h2⟩))

theorem isBlank_of_isIdentifierContinue {c : Char} (h : isIdentifierContinue c = true) :
    isBlank c = false := by
  have hc := toNat_of_isIdentifierContinue h
  simp only [isBlank, Bool.or_eq_false_iff, Bool.and_eq_false_iff, decide_eq_false_iff_not,
    beq_eq_false_iff_ne]
  omega

theorem isIdentifierContinue_of_mem {s : String} (h : isIdentifier s = true) :
    ∀ c ∈ s.toList, isIdentifierContinue c = true := by
  rw [isIdentifier] at h
  cases hs : s.toList with
  | nil => simp
  | cons c cs =>
    rw [hs, isIdentifierChars, Bool.and_eq_true, List.all_eq_true] at h
    exact List.forall_mem_cons.mpr ⟨by simp [isIdentifierContinue, h.1], h.2⟩

theorem isWord_of_isIdentifier {s : String} (h : isIdentifier s = true) : IsWord s.toList := by
  refine ⟨fun hnil => ?_, fun c hc => isBlank_of_isIdentifierContinue
    (isIdentifierContinue_of_mem h c hc)⟩
  rw [isIdentifier, hnil] at h
  cases h

/-- No character of an identifier is a bracket, a parenthesis or white space. -/
theorem notMem_of_isIdentifier {s : String} (h : isIdentifier s = true) {c : Char}
    (hc : isIdentifierContinue c = false) : c ∉ s.toList := fun hmem => by
  rw [isIdentifierContinue_of_mem h c hmem] at hc
  cases hc

/-! ### Array brackets -/

/-- Pairs of brackets, each empty or with a number, and white space between all
of these. -/
inductive ArraySuffix : List Char → Prop
  | nil : ArraySuffix []
  | cons {gap size rest : List Char} (hgap : ∀ c ∈ gap, isBlank c = true)
      (hsize : ∀ c ∈ size, isBlank c = true ∨ isAsciiDigit c = true) (h : ArraySuffix rest) :
      ArraySuffix (gap ++ '[' :: (size ++ ']' :: rest))

theorem ArraySuffix.append {xs ys : List Char} (h : ArraySuffix xs) (h' : ArraySuffix ys) :
    ArraySuffix (xs ++ ys) := by
  induction h with
  | nil => exact h'
  | cons hgap hsize _ ih =>
    simp only [List.append_assoc, List.cons_append]
    exact .cons hgap hsize ih

theorem splitLastBracket?_eq {cs before size : List Char} (hlast : cs.getLast? = some ']')
    (h : splitLastBracket? cs = some (before, size)) : cs = before ++ '[' :: (size ++ [']']) := by
  obtain ⟨front, rfl⟩ := List.getLast?_eq_some_iff.mp hlast
  rw [splitLastBracket?, List.reverse_append] at h
  simp only [List.reverse_cons, List.reverse_nil, List.nil_append, List.singleton_append] at h
  rw [List.dropWhile_cons_of_pos (by decide), List.takeWhile_cons_of_pos (by decide)] at h
  split at h
  · cases h
  rename_i d rest hd
  obtain ⟨rfl, rfl⟩ := Prod.mk.inj (Option.some.inj h)
  have hbracket : d = '[' := by
    have hhead := List.head?_dropWhile_not (· != '[') front.reverse
    rw [hd] at hhead
    simpa using hhead
  have hparts : front.reverse.takeWhile (· != '[') ++ front.reverse.dropWhile (· != '[') =
      front.reverse := List.takeWhile_append_dropWhile
  rw [hd, hbracket] at hparts
  have hfront := congrArg List.reverse hparts
  simp only [List.reverse_append, List.reverse_reverse, List.reverse_cons] at hfront
  conv_lhs => rw [← hfront]
  simp

/-- Stripping arrays takes brackets away from the end. -/
theorem arraySuffix_of_stripArrays {cs base : List Char}
    (hhead : ∀ c ∈ cs.head?, isBlank c = false) (h : stripArrays cs = some base) :
    ∃ suffix, cs = base ++ suffix ∧ ArraySuffix suffix := by
  fun_induction stripArrays cs generalizing base with
  | case1 => cases h
  | case2 cs hlast before size hsplit =>
    rename_i hsize ih
    obtain ⟨suffix, hbefore, hsuffix⟩ := ih (head?_trimChars before) h
    obtain ⟨front, back, hparts, hfront, hback⟩ := exists_trimChars before
    have hcs := splitLastBracket?_eq (by simpa using hlast) hsplit
    -- the text does not begin with white space
    have hempty : front = [] := by
      cases front with
      | nil => rfl
      | cons c front =>
        rw [hcs, hparts] at hhead
        have hc := hfront c List.mem_cons_self
        rw [hhead c (by simp)] at hc
        cases hc
    have hsizes : ∀ c ∈ size, isBlank c = true ∨ isAsciiDigit c = true := by
      obtain ⟨front, back, hparts, hfront, hback⟩ := exists_trimChars size
      rw [hparts]
      simp only [List.mem_append]
      rintro c (hc | hc | hc)
      · exact .inl (hfront c hc)
      · rcases Bool.or_eq_true_iff.mp hsize with hnil | hdigits
        · have hnil : trimChars size = [] := List.isEmpty_iff.mp hnil
          rw [hnil] at hc
          cases hc
        · rw [isDigits, Bool.and_eq_true, List.all_eq_true] at hdigits
          exact .inr (hdigits.2 c hc)
      · exact .inl (hback c hc)
    refine ⟨suffix ++ (back ++ '[' :: (size ++ [']'])), ?_, hsuffix.append (.cons hback hsizes .nil)⟩
    rw [hcs, hparts, hbefore, hempty]
    simp
  | case3 => cases h
  | case4 cs =>
    obtain rfl := Option.some.inj h
    exact ⟨[], (List.append_nil _).symm, .nil⟩

theorem ne_of_isBlank {c d : Char} (h : isBlank c = true) (hd : isBlank d = false) : c ≠ d := by
  rintro rfl
  rw [hd] at h
  cases h

theorem ne_of_isAsciiDigit {c d : Char} (h : isAsciiDigit c = true) (hd : isAsciiDigit d = false) :
    c ≠ d := by
  rintro rfl
  rw [hd] at h
  cases h

/-! ### Parentheses -/

/-- Each parenthesis that is opened is closed, and none is closed that is not
open. -/
inductive Balanced : List Char → Prop
  | nil : Balanced []
  | cons {c : Char} {cs : List Char} (hopen : c ≠ '(') (hclose : c ≠ ')') (h : Balanced cs) :
      Balanced (c :: cs)
  | parens {inner rest : List Char} (hinner : Balanced inner) (hrest : Balanced rest) :
      Balanced ('(' :: (inner ++ ')' :: rest))

theorem Balanced.append {xs ys : List Char} (h : Balanced xs) (h' : Balanced ys) :
    Balanced (xs ++ ys) := by
  induction h with
  | nil => exact h'
  | cons hopen hclose _ ih => exact .cons hopen hclose ih
  | parens hinner _ _ ih =>
    simp only [List.cons_append, List.append_assoc]
    exact .parens hinner ih

theorem Balanced.arrow {key value : List Char} (h : Balanced key) (h' : Balanced value) :
    Balanced (key ++ (['=', '>'] ++ value)) :=
  h.append (.cons (by decide) (by decide) (.cons (by decide) (by decide) h'))

theorem balanced_of_forall {cs : List Char} (h : ∀ c ∈ cs, c ≠ '(' ∧ c ≠ ')') : Balanced cs := by
  induction cs with
  | nil => exact .nil
  | cons c cs ih =>
    obtain ⟨hc, hcs⟩ := List.forall_mem_cons.mp h
    exact .cons hc.1 hc.2 (ih hcs)

theorem balanced_of_isBlank {cs : List Char} (h : ∀ c ∈ cs, isBlank c = true) : Balanced cs :=
  balanced_of_forall fun c hc => ⟨ne_of_isBlank (h c hc) rfl, ne_of_isBlank (h c hc) rfl⟩

/-- Brackets hold no letters and no parentheses. -/
theorem ArraySuffix.of_mem {cs : List Char} (h : ArraySuffix cs) :
    ∀ c ∈ cs, isBlank c = true ∨ isAsciiDigit c = true ∨ c = '[' ∨ c = ']' := by
  induction h with
  | nil => simp
  | cons hgap hsize _ ih =>
    simp only [List.mem_append, List.mem_cons]
    rintro c (hc | rfl | hc | rfl | hc)
    · exact .inl (hgap c hc)
    · simp
    · exact (hsize c hc).imp_right .inl
    · simp
    · exact ih c hc

theorem ArraySuffix.notMem {cs : List Char} (h : ArraySuffix cs) {d : Char}
    (hblank : isBlank d = false) (hdigit : isAsciiDigit d = false) (hd : d ≠ '[' ∧ d ≠ ']') :
    d ∉ cs := fun hmem => by
  rcases h.of_mem d hmem with hc | hc | hc
  · exact ne_of_isBlank hc hblank rfl
  · exact ne_of_isAsciiDigit hc hdigit rfl
  · exact hc.elim hd.1 hd.2

theorem ne_of_notMem {cs : List Char} {d : Char} (h : d ∉ cs) : ∀ c ∈ cs, c ≠ d := by
  rintro c hc rfl
  exact h hc

theorem ArraySuffix.ne_parens {cs : List Char} (h : ArraySuffix cs) :
    ∀ c ∈ cs, c ≠ '(' ∧ c ≠ ')' := fun c hc =>
  ⟨ne_of_notMem (h.notMem rfl rfl (by decide)) c hc,
    ne_of_notMem (h.notMem rfl rfl (by decide)) c hc⟩

theorem ne_parens_of_isIdentifier {s : String} (h : isIdentifier s = true) :
    ∀ c ∈ s.toList, c ≠ '(' ∧ c ≠ ')' := fun c hc =>
  ⟨ne_of_notMem (notMem_of_isIdentifier h rfl) c hc,
    ne_of_notMem (notMem_of_isIdentifier h rfl) c hc⟩

/-- Balanced text does not close parentheses that are open before it. -/
theorem Balanced.closeParens {cs : List Char} (h : Balanced cs) {depth : Nat} (hdepth : 1 ≤ depth)
    (rest : List Char) : closeParens depth (cs ++ rest) =
      (closeParens depth rest).map fun (inside, after) => (cs ++ inside, after) := by
  induction h generalizing depth rest with
  | nil => simp
  | cons hopen hclose _ ih =>
    simp [Solidity.closeParens, hopen, hclose, ih hdepth, Function.comp_def]
  | @parens inner more _ _ ihInner ih =>
    have hinside : ¬(depth + 1 ≤ 1) := by omega
    have hopen : Solidity.closeParens depth ('(' :: (inner ++ ')' :: (more ++ rest))) =
        (Solidity.closeParens (depth + 1) (inner ++ ')' :: (more ++ rest))).map
          fun (inside, after) => ('(' :: inside, after) := by
      rw [Solidity.closeParens]
      rfl
    have hclose : Solidity.closeParens (depth + 1) (')' :: (more ++ rest)) =
        (Solidity.closeParens depth (more ++ rest)).map
          fun (inside, after) => (')' :: inside, after) := by
      rw [Solidity.closeParens]
      simp [hinside]
    simp only [List.cons_append, List.append_assoc]
    rw [hopen, ihInner (Nat.le_succ_of_le hdepth), hclose, ih hdepth]
    simp [Function.comp_def]

/-- The characters that stand in no parentheses; `depth` counts those that are
open. -/
def outside : Nat → List Char → List Char
  | _, [] => []
  | depth, c :: cs =>
    if c == '(' then outside (depth + 1) cs
    else if c == ')' then outside (depth - 1) cs
    else if depth == 0 then c :: outside depth cs
    else outside depth cs

/-- What stands inside open parentheses is left out. -/
theorem Balanced.outside_inside {cs : List Char} (h : Balanced cs) {depth : Nat}
    (hdepth : 1 ≤ depth) (rest : List Char) : outside depth (cs ++ rest) = outside depth rest := by
  induction h generalizing depth rest with
  | nil => rfl
  | cons hopen hclose _ ih => simp [outside, hopen, hclose, Nat.ne_of_gt hdepth, ih hdepth]
  | parens _ _ ihInner ih =>
    simp [outside, ihInner (Nat.le_succ_of_le hdepth), ih hdepth]

theorem Balanced.outside_append {cs : List Char} (h : Balanced cs) (rest : List Char) :
    outside 0 (cs ++ rest) = outside 0 cs ++ outside 0 rest := by
  induction h with
  | nil => rfl
  | cons hopen hclose _ ih => simp [outside, hopen, hclose, ih]
  | parens hinner _ _ ih => simp [outside, hinner.outside_inside (Nat.le_refl 1), ih]

theorem outside_of_forall {cs : List Char} (h : ∀ c ∈ cs, c ≠ '(' ∧ c ≠ ')') :
    outside 0 cs = cs := by
  induction cs with
  | nil => rfl
  | cons c cs ih =>
    obtain ⟨hc, hcs⟩ := List.forall_mem_cons.mp h
    simp [outside, hc.1, hc.2, ih hcs]

/-! ### Types -/

theorem cut_eq {pat cs before after : List Char} (h : cut pat cs = some (before, after)) :
    cs = before ++ (pat ++ after) := by
  induction cs generalizing before with
  | nil =>
    rw [cut] at h
    split at h
    · rename_i hpat
      obtain ⟨rfl, rfl⟩ := Prod.mk.inj (Option.some.inj h)
      rw [List.isEmpty_iff.mp hpat]
      rfl
    · cases h
  | cons c cs ih =>
    rw [cut] at h
    split at h
    · rename_i hpat
      obtain ⟨rfl, rfl⟩ := Prod.mk.inj (Option.some.inj h)
      exact (List.prefix_iff_eq_append.mp (List.isPrefixOf_iff_prefix.mp hpat)).symm
    · obtain ⟨⟨b, a⟩, hb, heq⟩ := Option.map_eq_some_iff.mp h
      obtain ⟨rfl, rfl⟩ := Prod.mk.inj heq
      rw [ih hb, List.cons_append]

/-- The first occurrence of a character is that after a text without it. -/
theorem cut_append {c : Char} {cs : List Char} (h : c ∉ cs) (rest : List Char) :
    cut [c] (cs ++ c :: rest) = some (cs, rest) := by
  induction cs with
  | nil => simp [cut]
  | cons d cs ih =>
    rw [List.mem_cons, not_or] at h
    rw [List.cons_append, cut, if_neg (by simp [List.isPrefixOf, h.1]), ih h.2]
    rfl

theorem mappingInner?_eq {cs inner : List Char} (h : mappingInner? cs = some inner) :
    cs = "mapping(".toList ++ (inner ++ [')']) := by
  rw [mappingInner?] at h
  split at h
  case isFalse => cases h
  rename_i hc
  obtain rfl := Option.some.inj h
  obtain ⟨hbegins, hlast⟩ := Bool.and_eq_true_iff.mp hc
  obtain ⟨rest, rfl⟩ := List.isPrefixOf_iff_prefix.mp hbegins
  rcases List.eq_nil_or_concat' rest with rfl | ⟨front, d, rfl⟩
  · exact absurd hlast (by decide)
  · have hd : d = ')' := by
      rw [← List.append_assoc, List.getLast?_concat] at hlast
      simpa using hlast
    have hdrop : ("mapping(".toList ++ (front ++ [d])).drop 8 = front ++ [d] := List.drop_left' rfl
    rw [hdrop, List.dropLast_concat, hd]

section

variable {declared : String → Bool}

/-- A type that is neither an array nor a mapping is `address payable` or an
identifier. -/
theorem eq_or_isIdentifier_of_isPlainType
    (hdeclared : ∀ n, declared n = true → isIdentifier n = true) {s : String} (h : isPlainType s declared = true) :
    s = "address payable" ∨ isIdentifier s = true := by
  have hfull : isIdentifier (fullName s) = true → isIdentifier s = true := by
    rw [fullName.eq_def]
    split <;> intro hid
    · decide
    · decide
    · decide
    · exact hid
  rw [isPlainType] at h
  split at h
  · rename_i hlisted
    simp only [List.contains_cons, List.contains_nil, Bool.or_eq_true, beq_iff_eq, Bool.or_false]
      at hlisted
    rcases hlisted with rfl | rfl | rfl | rfl | rfl
    · exact .inl rfl
    all_goals exact .inr (by decide)
  dsimp only at h
  split at h
  · rename_i hname
    exact .inr (hfull (hdeclared _ hname))
  split at h
  · cases h
  · rename_i hnot
    refine .inr (hfull ?_)
    simp only [Bool.or_eq_true, Bool.not_eq_true', beq_iff_eq, not_or] at hnot
    simpa using hnot.1.1

/-- A type is a plain one or a mapping of types, with array brackets. -/
theorem isTypeChars_cases {cs : List Char} (h : isTypeChars cs declared = true) :
    ∃ base suffix, trimChars cs = base ++ suffix ∧ ArraySuffix suffix ∧
      (isPlainType (String.ofList base) declared = true ∨ ∃ key value,
        base = "mapping(".toList ++ ((key ++ (['=', '>'] ++ value)) ++ [')']) ∧
        isTypeChars key declared = true ∧ isTypeChars value declared = true) := by
  rw [isTypeChars] at h
  dsimp only at h
  split at h
  · cases h
  split at h
  · cases h
  rename_i base hstrip
  obtain ⟨suffix, htrim, hsuffix⟩ := arraySuffix_of_stripArrays (head?_trimChars cs) hstrip
  refine ⟨base, suffix, htrim, hsuffix, ?_⟩
  split at h
  · rename_i inner hinner
    split at h
    · cases h
    · rename_i key value hcut
      obtain ⟨hkey, hvalue⟩ := Bool.and_eq_true_iff.mp h
      exact .inr ⟨key, value, by rw [mappingInner?_eq hinner, cut_eq hcut], hkey, hvalue⟩
  · exact .inl h

variable (hdeclared : ∀ n, declared n = true → isIdentifier n = true)
include hdeclared

theorem balanced_base {base : List Char} (h : isPlainType (String.ofList base) declared = true ∨
    ∃ key value, base = "mapping(".toList ++ ((key ++ (['=', '>'] ++ value)) ++ [')']) ∧
      Balanced key ∧ Balanced value) : Balanced base := by
  rcases h with hplain | ⟨key, value, rfl, hkey, hvalue⟩
  · rw [← String.toList_ofList (l := base)]
    rcases eq_or_isIdentifier_of_isPlainType hdeclared hplain with heq | hid
    · rw [heq]
      exact balanced_of_forall (by simp)
    · exact balanced_of_forall (ne_parens_of_isIdentifier hid)
  · have hword : Balanced "mapping".toList := balanced_of_forall (by simp)
    exact hword.append (.parens (hkey.arrow hvalue) .nil)

/-- The parentheses of a type are those of its mappings. -/
theorem balanced_of_isTypeChars {cs : List Char} (h : isTypeChars cs declared = true) :
    Balanced cs := by
  induction hlength : cs.length using Nat.strong_induction_on generalizing cs with
  | _ n ih =>
  obtain ⟨base, suffix, htrim, hsuffix, hbase⟩ := isTypeChars_cases h
  obtain ⟨front, back, hcs, hfront, hback⟩ := exists_trimChars cs
  rw [htrim] at hcs
  have hbase : Balanced base := by
    refine balanced_base hdeclared (hbase.imp_right ?_)
    rintro ⟨key, value, hmapping, hkey, hvalue⟩
    -- the parts of a mapping are shorter
    rw [hcs, hmapping] at hlength
    simp only [List.length_append, List.length_cons] at hlength
    exact ⟨key, value, hmapping, ih key.length (by omega) hkey rfl,
      ih value.length (by omega) hvalue rfl⟩
  rw [hcs]
  exact (balanced_of_isBlank hfront).append
    ((hbase.append (balanced_of_forall hsuffix.ne_parens)).append (balanced_of_isBlank hback))

/-! ### Types without superfluous white space -/

end

/-- White space stands only in the parentheses of a mapping, or is the one space of
`address payable`. -/
def IsTight (type : String) : Prop :=
  (∀ c ∈ outside 0 type.toList, isBlank c = false) ∨
    ∃ rest, type.toList = "address payable".toList ++ rest ∧ ∀ c ∈ rest, isBlank c = false

/-- Array brackets without white space. -/
def Brackets (cs : List Char) : Prop := ArraySuffix cs ∧ ∀ c ∈ cs, isBlank c = false

/-- A type as a declaration holds it: a mapping or `address payable` with array
brackets, or one word. -/
inductive TypeForm : List Char → Prop
  | mapping {inner suffix : List Char} (hinner : Balanced inner) (hsuffix : Brackets suffix) :
      TypeForm ("mapping(".toList ++ (inner ++ ')' :: suffix))
  | payable {suffix : List Char} (hsuffix : Brackets suffix) :
      TypeForm ("address payable".toList ++ suffix)
  | word {cs : List Char} (hword : IsWord cs) (hopen : '(' ∉ cs) : TypeForm cs

theorem outside_of_isBlank {cs : List Char} (h : ∀ c ∈ cs, isBlank c = true) :
    outside 0 cs = cs :=
  outside_of_forall fun c hc => ⟨ne_of_isBlank (h c hc) rfl, ne_of_isBlank (h c hc) rfl⟩

theorem eq_nil_of_blank {cs : List Char} (h : ∀ c ∈ cs, isBlank c = true)
    (h' : ∀ c ∈ cs, isBlank c = false) : cs = [] := by
  cases cs with
  | nil => rfl
  | cons c cs =>
    have hc := h c List.mem_cons_self
    rw [h' c List.mem_cons_self] at hc
    cases hc

/-- `address payable` is not the start of an identifier with brackets after it. -/
theorem not_payable_of_isIdentifier {s : String} (h : isIdentifier s = true) {tail rest : List Char}
    (htail : 'e' ∉ tail) : s.toList ++ tail ≠ "address payable".toList ++ rest := by
  intro heq
  have hspace : ' ' ∉ s.toList := notMem_of_isIdentifier h rfl
  rcases List.append_eq_append_iff.mp heq.symm with ⟨more, hs, -⟩ | ⟨more, hpayable, htail'⟩
  · exact hspace (by rw [hs]; simp)
  · rcases List.eq_nil_or_concat' more with rfl | ⟨front, d, rfl⟩
    · rw [List.append_nil] at hpayable
      exact hspace (by rw [← hpayable]; simp)
    · -- the last letter stands after the identifier
      have hd : "address payable".toList.getLast? = some d := by
        rw [hpayable, ← List.append_assoc, List.getLast?_concat]
      obtain rfl : 'e' = d := Option.some.inj hd
      exact htail (by rw [htail']; simp)

section

variable {declared : String → Bool} (hdeclared : ∀ n, declared n = true → isIdentifier n = true)
include hdeclared

/-- A plain type or a mapping, with brackets after it. -/
theorem typeForm_append {base suffix : List Char}
    (hbase : isPlainType (String.ofList base) declared = true ∨ ∃ key value,
      base = "mapping(".toList ++ ((key ++ (['=', '>'] ++ value)) ++ [')']) ∧
      isTypeChars key declared = true ∧ isTypeChars value declared = true)
    (hsuffix : Brackets suffix) : TypeForm (base ++ suffix) := by
  rcases hbase with hplain | ⟨key, value, rfl, hkey, hvalue⟩
  · rcases eq_or_isIdentifier_of_isPlainType hdeclared hplain with heq | hid
    · rw [← String.toList_ofList (l := base), heq]
      exact .payable hsuffix
    · have hword := isWord_of_isIdentifier hid
      have hopen := notMem_of_isIdentifier hid (c := '(') rfl
      rw [String.toList_ofList] at hword hopen
      refine .word ⟨by simp [hword.1], List.forall_mem_append.mpr ⟨hword.2, hsuffix.2⟩⟩ ?_
      rw [List.mem_append, not_or]
      exact ⟨hopen, hsuffix.1.notMem rfl rfl (by decide)⟩
  · have hinner := (balanced_of_isTypeChars hdeclared hkey).arrow
      (balanced_of_isTypeChars hdeclared hvalue)
    rw [List.append_assoc, List.append_assoc, List.singleton_append]
    exact .mapping hinner hsuffix

/-- What begins as `address payable` does is this type. -/
theorem base_eq_payable {base suffix back rest : List Char}
    (hbase : isPlainType (String.ofList base) declared = true ∨ ∃ key value,
      base = "mapping(".toList ++ ((key ++ (['=', '>'] ++ value)) ++ [')']) ∧
      isTypeChars key declared = true ∧ isTypeChars value declared = true)
    (hsuffix : ArraySuffix suffix) (hback : ∀ c ∈ back, isBlank c = true)
    (h : base ++ (suffix ++ back) = "address payable".toList ++ rest) :
    base = "address payable".toList := by
  rcases hbase with hplain | ⟨key, value, rfl, -, -⟩
  · rcases eq_or_isIdentifier_of_isPlainType hdeclared hplain with heq | hid
    · rw [← heq, String.toList_ofList]
    · have htail : 'e' ∉ suffix ++ back := by
        rw [List.mem_append, not_or]
        exact ⟨hsuffix.notMem rfl rfl (by decide), fun he => ne_of_isBlank (hback _ he) rfl rfl⟩
      have hne : (String.ofList base).toList ++ (suffix ++ back) ≠
          "address payable".toList ++ rest := not_payable_of_isIdentifier hid htail
      rw [String.toList_ofList] at hne
      exact absurd h hne
  · cases h

/-- **The forms of a type.** -/
theorem typeForm_of_isType {type : String} (h : isType type declared = true)
    (htight : IsTight type) : TypeForm type.toList := by
  obtain ⟨base, suffix, htrim, hsuffix, hbase⟩ := isTypeChars_cases h
  obtain ⟨front, back, htype, hfront, hback⟩ := exists_trimChars type.toList
  rw [htrim] at htype
  -- nothing stands around the base and its brackets
  suffices hparts : front = [] ∧ back = [] ∧ ∀ c ∈ suffix, isBlank c = false by
    obtain ⟨rfl, rfl, hsuffix'⟩ := hparts
    rw [htype, List.nil_append, List.append_nil]
    exact typeForm_append hdeclared hbase ⟨hsuffix, hsuffix'⟩
  rcases htight with htight | ⟨rest, hpayable, hrest⟩
  · have hbalanced : Balanced base := balanced_base hdeclared <| hbase.imp_right
      fun ⟨key, value, hmapping, hkey, hvalue⟩ => ⟨key, value, hmapping,
        balanced_of_isTypeChars hdeclared hkey, balanced_of_isTypeChars hdeclared hvalue⟩
    rw [htype, (balanced_of_isBlank hfront).outside_append, List.append_assoc,
      hbalanced.outside_append, (balanced_of_forall hsuffix.ne_parens).outside_append,
      outside_of_isBlank hfront, outside_of_forall hsuffix.ne_parens, outside_of_isBlank hback]
      at htight
    simp only [List.forall_mem_append] at htight
    obtain ⟨hfront', -, hsuffix', hback'⟩ := htight
    exact ⟨eq_nil_of_blank hfront hfront', eq_nil_of_blank hback hback', hsuffix'⟩
  · have hempty : front = [] := by
      cases front with
      | nil => rfl
      | cons c front =>
        -- the text begins with a letter
        have hc := hfront c List.mem_cons_self
        rw [hpayable] at htype
        obtain ⟨rfl, -⟩ := List.cons.inj htype
        exact absurd hc (by decide)
    rw [hpayable, hempty, List.nil_append, List.append_assoc] at htype
    rw [base_eq_payable hdeclared hbase hsuffix hback htype.symm] at htype
    rw [List.append_cancel_left htype] at hrest
    obtain ⟨hsuffix', hback'⟩ := List.forall_mem_append.mp hrest
    exact ⟨hempty, eq_nil_of_blank hback hback', hsuffix'⟩

end

/-! ### Reading a type -/

/-- Brackets stand in front of what follows them. -/
theorem Brackets.leadingBrackets {suffix : List Char} (h : Brackets suffix) {rest : List Char}
    (hrest : ∀ c ∈ rest.head?, c ≠ '[') : leadingBrackets (suffix ++ rest) = (suffix, rest) := by
  obtain ⟨hsuffix, hblank⟩ := h
  induction hsuffix with
  | nil =>
    cases rest with
    | nil => simp [Solidity.leadingBrackets]
    | cons c rest => simp [Solidity.leadingBrackets, hrest c (by simp)]
  | @cons gap size more hgap hsize _ ih =>
    simp only [List.forall_mem_append, List.forall_mem_cons] at hblank
    obtain ⟨hgap', -, hsize', -, hmore⟩ := hblank
    have hclose : ']' ∉ size := fun hmem => by
      rcases hsize _ hmem with hc | hc
      · exact ne_of_isBlank hc rfl rfl
      · exact ne_of_isAsciiDigit hc rfl rfl
    have hcut := cut_append hclose (more ++ rest)
    rw [eq_nil_of_blank hgap hgap']
    simp only [List.nil_append, List.cons_append, List.append_assoc]
    rw [Solidity.leadingBrackets, if_pos (beq_self_eq_true _)]
    split
    · rename_i hnone
      rw [hcut] at hnone
      cases hnone
    · rename_i inside after hsome
      rw [hcut] at hsome
      obtain ⟨rfl, rfl⟩ := Prod.mk.inj (Option.some.inj hsome)
      rw [ih hmore]
      rfl

theorem closeParens_balanced {inner : List Char} (h : Balanced inner) (rest : List Char) :
    closeParens 1 (inner ++ ')' :: rest) = some (inner ++ [')'], rest) := by
  rw [h.closeParens (Nat.le_refl 1), Solidity.closeParens]
  rfl

theorem Brackets.exists_cons {suffix : List Char} (h : Brackets suffix) (hne : suffix ≠ []) :
    ∃ rest, suffix = '[' :: rest := by
  obtain ⟨hsuffix, hblank⟩ := h
  cases hsuffix with
  | nil => exact absurd rfl hne
  | cons hgap _ _ =>
    rw [eq_nil_of_blank hgap (List.forall_mem_append.mp hblank).1]
    exact ⟨_, rfl⟩

/-- What is written after a type. -/
abbrev Words (words : List String) : Prop := ∀ w ∈ words, IsWord w.toList

section

variable {words : List String} {s : String}

/-- A mapping with words after it. -/
theorem read_mapping {inner suffix : List Char} (hinner : Balanced inner)
    (hsuffix : Brackets suffix) (hwords : Words words)
    (hs : s.toList = "mapping(".toList ++ (inner ++ ')' :: suffix) ++
      spaced (words.map (·.toList))) :
    Parameter.read s = words.foldl .addWord
      { type := String.ofList ("mapping(".toList ++ (inner ++ ')' :: suffix)) } := by
  let tail := spaced (words.map (·.toList))
  have htrim : trimChars s.toList = "mapping(".toList ++ (inner ++ ')' :: (suffix ++ tail)) := by
    rw [hs, trimChars_append_spaced (fun c hc => ?_) (fun c hc => ?_) (by simp)
      (List.forall_mem_map.mpr hwords)]
    · simp [tail]
    · obtain rfl : 'm' = c := by simpa using hc
      rfl
    · -- the last character is the parenthesis or stands in the brackets
      rw [← List.append_assoc, List.getLast?_append, List.getLast?_cons] at hc
      cases hlast : suffix.getLast? with
      | none =>
        obtain rfl : ')' = c := by simpa [hlast] using hc
        rfl
      | some d =>
        obtain rfl : d = c := by simpa [hlast] using hc
        exact hsuffix.2 d (List.mem_of_getLast? hlast)
  have htail : leadingBrackets (suffix ++ tail) = (suffix, tail) :=
    hsuffix.leadingBrackets fun c hc => ne_of_isBlank (head?_spaced _ c hc) rfl
  have hbegins : "mapping(".toList.isPrefixOf
      ("mapping(".toList ++ (inner ++ ')' :: (suffix ++ tail))) = true :=
    List.isPrefixOf_iff_prefix.mpr (List.prefix_append _ _)
  have hdrop : ("mapping(".toList ++ (inner ++ ')' :: (suffix ++ tail))).drop 8 =
      inner ++ ')' :: (suffix ++ tail) := List.drop_left' rfl
  have htake : ("mapping(".toList ++ (inner ++ ')' :: (suffix ++ tail))).take 8 =
      "mapping(".toList := List.take_left' rfl
  rw [Parameter.read, htrim]
  dsimp only
  rw [if_pos hbegins, hdrop, closeParens_balanced hinner]
  dsimp only
  rw [htail]
  dsimp only
  rw [fields_spaced hwords, htake]
  simp

/-- The first field of a text and the fields after it. -/
theorem read_of_fields {cs : List Char} (hword : IsWord cs) (hopen : '(' ∉ cs)
    (hwords : Words words) (hs : s.toList = cs ++ spaced (words.map (·.toList))) :
    Parameter.read s =
      match if String.ofList cs == "address" then dropPrefix? (" ".intercalate words) "payable"
        else none with
      | some rest => (fields rest).foldl .addWord { type := "address payable" }
      | none => words.foldl .addWord { type := String.ofList cs } := by
  have hchars : ∀ w ∈ words.map (·.toList), IsWord w := List.forall_mem_map.mpr hwords
  have htrim : trimChars s.toList = cs ++ spaced (words.map (·.toList)) := by
    rw [hs, trimChars_append_spaced (fun c hc => hword.2 c (List.mem_of_head? hc))
      (fun c hc => hword.2 c (List.mem_of_getLast? hc)) hword.1 hchars]
  have hmapping : ¬"mapping(".toList.isPrefixOf (cs ++ spaced (words.map (·.toList))) = true := by
    rw [List.isPrefixOf_iff_prefix, prefix_append_spaced (by simp [isBlank])]
    exact fun h => hopen (h.subset (by decide))
  have hfields : fields (String.ofList (cs ++ spaced (words.map (·.toList)))) =
      String.ofList cs :: words := by
    rw [fields, String.toList_ofList, fieldsBy_append_spaced hword hchars]
    simp [Function.comp_def]
  rw [Parameter.read, htrim]
  dsimp only
  rw [if_neg hmapping]
  exact hfields ▸ rfl

/-- A word at the start of several words with spaces between them stands in the first. -/
theorem hasPrefix_intercalate {pat : String} (hpat : ∀ c ∈ pat.toList, isBlank c = false)
    (w : String) (words : List String) :
    hasPrefix (" ".intercalate (w :: words)) pat = hasPrefix w pat := by
  rw [hasPrefix, hasPrefix, toList_intercalate_space, Bool.eq_iff_iff, List.isPrefixOf_iff_prefix,
    List.isPrefixOf_iff_prefix, prefix_append_spaced hpat]

theorem type_foldl_addWord (p : Parameter) (words : List String) :
    (words.foldl Parameter.addWord p).type = p.type := by
  induction words generalizing p with
  | nil => rfl
  | cons w words ih =>
    rw [List.foldl_cons, ih, Parameter.addWord]
    split
    · rfl
    split
    · rfl
    split <;> rfl

/-- One word with words after it, unless these make it the first word of `address payable`. -/
theorem read_word {type : String} (hword : IsWord type.toList) (hopen : '(' ∉ type.toList)
    (hwords : Words words) (hs : s.toList = type.toList ++ spaced (words.map (·.toList))) :
    Parameter.read s = words.foldl Parameter.addWord { type } ↔
      ¬(type = "address" ∧ ∃ w ∈ words.head?, hasPrefix w "payable" = true) := by
  rw [read_of_fields hword hopen hwords hs, String.ofList_toList]
  by_cases haddress : type = "address"
  · rw [if_pos (beq_iff_eq.mpr haddress), dropPrefix?]
    cases words with
    | nil => simp [String.intercalate, hasPrefix]
    | cons w words =>
      rw [hasPrefix_intercalate (by simp [isBlank])]
      by_cases hw : hasPrefix w "payable" = true
      · -- the type is a different one, whatever comes after it
        rw [if_pos hw]
        refine iff_of_false (fun h => ?_) (not_not_intro ⟨haddress, w, rfl, hw⟩)
        have htype := congrArg Parameter.type h
        rw [type_foldl_addWord, type_foldl_addWord, haddress] at htype
        exact absurd htype (by decide)
      · rw [if_neg hw]
        exact iff_of_true rfl fun ⟨_, v, hv, hbegins⟩ => hw (Option.some.inj hv ▸ hbegins)
  · rw [if_neg (by simpa using haddress)]
    exact iff_of_true rfl fun h => haddress h.1

/-- Brackets after `address payable` are read as a word of their own. -/
theorem read_payable {suffix : List Char} (hsuffix : Brackets suffix) (hwords : Words words)
    (hs : s.toList = "address payable".toList ++ suffix ++ spaced (words.map (·.toList))) :
    Parameter.read s = (if suffix = [] then words else String.ofList suffix :: words).foldl
      Parameter.addWord { type := "address payable" } := by
  let second := String.ofList ("payable".toList ++ suffix)
  have hsecond : IsWord second.toList := by
    rw [String.toList_ofList]
    exact ⟨by simp, List.forall_mem_append.mpr ⟨by simp [isBlank], hsuffix.2⟩⟩
  have hparts : s.toList = "address".toList ++ spaced ((second :: words).map (·.toList)) := by
    rw [hs]
    simp [second, spaced]
  have hjoined : (" ".intercalate (second :: words)).toList =
      "payable".toList ++ (suffix ++ spaced (words.map (·.toList))) := by
    rw [toList_intercalate_space, String.toList_ofList, List.append_assoc]
  have hbegins : hasPrefix (" ".intercalate (second :: words)) "payable" = true := by
    rw [hasPrefix, hjoined]
    exact List.isPrefixOf_iff_prefix.mpr (List.prefix_append _ _)
  have hdrop : ("payable".toList ++ (suffix ++ spaced (words.map (·.toList)))).drop
      "payable".toList.length = suffix ++ spaced (words.map (·.toList)) := List.drop_left' rfl
  have haddress : String.ofList "address".toList = "address" := rfl
  rw [read_of_fields (by decide) (by decide)
      (List.forall_mem_cons.mpr ⟨hsecond, hwords⟩) hparts,
    haddress, if_pos (beq_self_eq_true _), dropPrefix?, if_pos hbegins, hjoined, hdrop]
  dsimp only
  by_cases hempty : suffix = []
  · rw [if_pos hempty, hempty, List.nil_append, fields_spaced hwords]
  · rw [if_neg hempty, fields, String.toList_ofList,
      fieldsBy_append_spaced ⟨hempty, hsuffix.2⟩ (List.forall_mem_map.mpr hwords)]
    simp [Function.comp_def]

end

/-! ### Reading a declaration -/

/-- The words after the type of a declaration. -/
def qualifiers (indexed : Bool) (location name : Option String) : List String :=
  (if indexed then ["indexed"] else []) ++ (location.toList ++ name.toList)

/-- A type and the words after it, with single spaces between them. -/
def declaration (type : String) (indexed : Bool) (location name : Option String) : String :=
  " ".intercalate (type :: qualifiers indexed location name)

/-- The parts of a declaration. -/
def Parameter.parts (type : String) (indexed : Bool) (location name : Option String) : Parameter :=
  { type, location := location.getD "", indexed, name := name.getD "" }

section

variable {type : String} {indexed : Bool} {location name : Option String}

/-- The words of a declaration are told apart. -/
theorem foldl_addWord (type : String) (indexed : Bool)
    (hlocation : ∀ l ∈ location, isLocation l = true)
    (hname : ∀ n ∈ name, n ≠ "" ∧ n ≠ "indexed" ∧ isLocation n = false) :
    (qualifiers indexed location name).foldl Parameter.addWord { type } =
      Parameter.parts type indexed location name := by
  have hne : ∀ l ∈ location, l ≠ "" ∧ l ≠ "indexed" := by
    rintro l hl
    constructor <;> (rintro rfl; exact absurd (hlocation _ hl) (by decide))
  cases indexed <;> cases location <;> cases name <;>
    simp_all [qualifiers, Parameter.addWord, Parameter.parts, String.isEmpty_iff]

theorem isWord_of_isLocation {w : String} (h : isLocation w = true) : IsWord w.toList := by
  rw [isLocation, List.contains_iff_mem] at h
  exact (by decide : ∀ w ∈ ["memory", "storage", "calldata"], IsWord w.toList) w h

/-- A name that is no reserved word is none of the words before it. -/
theorem distinct_of_not_isReserved {n : String} (h : isIdentifier n = true)
    (hreserved : isReserved n = false) : n ≠ "" ∧ n ≠ "indexed" ∧ isLocation n = false := by
  refine ⟨?_, ?_, ?_⟩
  · rintro rfl
    exact absurd h (by decide)
  · rintro rfl
    exact absurd (isReserved_of_mem_qualifiers "indexed" (by decide)) (by simp [hreserved])
  · rw [Bool.eq_false_iff, isLocation, Ne, List.contains_iff_mem]
    intro hmem
    exact absurd (isReserved_of_mem_qualifiers n (List.mem_cons_of_mem _ hmem)) (by simp [hreserved])

theorem words_qualifiers (hlocation : ∀ l ∈ location, isLocation l = true)
    (hname : ∀ n ∈ name, isIdentifier n = true) : Words (qualifiers indexed location name) := by
  intro w hw
  simp only [qualifiers, List.mem_append, Option.mem_toList] at hw
  rcases hw with hw | hw | hw
  · have hmem : w ∈ ["indexed"] := by
      cases indexed
      · cases hw
      · exact hw
    obtain rfl := List.mem_singleton.mp hmem
    decide
  · exact isWord_of_isLocation (hlocation w hw)
  · exact isWord_of_isIdentifier (hname w hw)

/-- The word `payable` can only be the start of a name. -/
theorem exists_payable_iff (hlocation : ∀ l ∈ location, isLocation l = true) :
    (∃ w ∈ (qualifiers indexed location name).head?, hasPrefix w "payable" = true) ↔
      indexed = false ∧ location = none ∧ ∃ n ∈ name, hasPrefix n "payable" = true := by
  have hnot : ∀ w, isLocation w = true → hasPrefix w "payable" = false := by
    intro w hw
    rw [isLocation, List.contains_iff_mem] at hw
    revert w
    decide
  cases indexed
  · cases location with
    | none => simp [qualifiers]
    | some l => simp [qualifiers, hnot l (hlocation l rfl)]
  · simp [qualifiers, hasPrefix]

variable {declared : String → Bool}

/-- **Reading a declaration.**  The parts come back unless the name of an `address` begins as
the word `payable` does, or `address payable` has brackets after it. -/
theorem read_declaration_iff
    (hdeclared : ∀ n, declared n = true → isIdentifier n = true)
    (htype : isType type declared = true) (htight : IsTight type)
    (hlocation : ∀ l ∈ location, isLocation l = true)
    (hname : ∀ n ∈ name, isIdentifier n = true ∧ isReserved n = false) :
    Parameter.read (declaration type indexed location name) =
        Parameter.parts type indexed location name ↔
      ¬(type = "address" ∧ indexed = false ∧ location = none ∧
          ∃ n ∈ name, hasPrefix n "payable" = true) ∧
        ¬hasPrefix type "address payable[" = true := by
  have hwords : Words (qualifiers indexed location name) :=
    words_qualifiers hlocation fun n hn => (hname n hn).1
  have hfold := foldl_addWord type indexed hlocation fun n hn =>
    distinct_of_not_isReserved (hname n hn).1 (hname n hn).2
  have htext : (declaration type indexed location name).toList =
      type.toList ++ spaced ((qualifiers indexed location name).map (·.toList)) :=
    toList_intercalate_space _ _
  have hform := typeForm_of_isType hdeclared htype htight
  generalize hcs : type.toList = cs at hform
  cases hform with
  | mapping hinner hsuffix =>
    have hread := read_mapping hinner hsuffix hwords (by rw [htext, hcs])
    rw [← hcs, String.ofList_toList, hfold] at hread
    refine iff_of_true hread ⟨?_, ?_⟩
    · rintro ⟨rfl, -⟩
      cases hcs
    · rw [hasPrefix, hcs]
      simp
  | word hword hopen =>
    rw [← hcs] at hword hopen
    rw [← hfold, read_word hword hopen hwords htext, exists_payable_iff hlocation]
    refine (and_iff_left fun hbegins => ?_).symm
    -- a word has no space
    have hspace : ' ' ∈ type.toList :=
      (List.isPrefixOf_iff_prefix.mp hbegins).subset (by decide)
    exact absurd (hword.2 ' ' hspace) (by decide)
  | @payable suffix hsuffix =>
    have hread := read_payable hsuffix hwords (by rw [htext, hcs])
    have htype : type = String.ofList ("address payable".toList ++ suffix) := by
      rw [← hcs, String.ofList_toList]
    have haddress : ¬(type = "address" ∧ indexed = false ∧ location = none ∧
        ∃ n ∈ name, hasPrefix n "payable" = true) := by
      rintro ⟨rfl, -⟩
      cases hcs
    by_cases hempty : suffix = []
    · subst hempty
      rw [if_pos rfl, ← (show type = "address payable" from htype), hfold] at hread
      exact iff_of_true hread ⟨haddress, by rw [htype]; decide⟩
    · -- the brackets are not in the type that is read
      refine iff_of_false (fun h => hempty ?_) fun h => h.2 ?_
      · have hread := congrArg (fun p => p.type.toList) (hread.symm.trans h)
        simpa [type_foldl_addWord, Parameter.parts, hcs] using hread
      · obtain ⟨rest, rfl⟩ := hsuffix.exists_cons hempty
        rw [hasPrefix, hcs]
        exact List.isPrefixOf_iff_prefix.mpr ⟨rest, by simp⟩

theorem read_declaration_book :
    declaration "mapping(address => uint256[2])[]" true (some "storage") (some "book") =
      "mapping(address => uint256[2])[] indexed storage book" ∧
    Parameter.read (declaration "mapping(address => uint256[2])[]" true (some "storage")
      (some "book")) = ⟨"mapping(address => uint256[2])[]", "storage", true, "book", []⟩ :=
  have htype : isType "mapping(address => uint256[2])[]" (fun _ => false) = true := by
    decide +kernel
  have htight : (outside 0 "mapping(address => uint256[2])[]".toList).all (!isBlank ·) = true := by
    decide
  ⟨by decide, (read_declaration_iff (by simp) htype
    (.inl fun c hc => by simpa using List.all_eq_true.mp htight c hc)
    (by decide) (by rintro n ⟨⟩; exact ⟨by decide, isReserved_of_mem_plainNames _ (by decide)⟩)).mpr
    (by decide)⟩

/-- The two declarations that are read as something else: an `address` with a name that begins
as `payable` does, and an array of `address payable`. -/
theorem read_declaration_payable :
    (isType "address" (fun _ => false) = true ∧ isIdentifier "payableTo" = true ∧
      isReserved "payableTo" = false ∧
      Parameter.read (declaration "address" false none (some "payableTo")) =
        ⟨"address payable", "", false, "To", []⟩) ∧
    isType "address payable[]" (fun _ => false) = true ∧ isIdentifier "to" = true ∧
      isReserved "to" = false ∧
      Parameter.read (declaration "address payable[]" false none (some "to")) =
        ⟨"address payable", "", false, "[]", ["to"]⟩ :=
  ⟨⟨by decide +kernel, by decide, isReserved_of_mem_plainNames _ (by decide), by decide⟩,
    by decide +kernel, by decide, isReserved_of_mem_plainNames _ (by decide), by decide⟩

end

end SolidityCanvas.Solidity
