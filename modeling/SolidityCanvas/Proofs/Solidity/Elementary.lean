/-
Types without brackets and parentheses.

The reader of interface types looks for the first run of letters in a text, with
the digits after it and a second run of digits after an `x` (`Parts`), and these
alone decide (`exists_typeText_iff`).  A plain type is therefore an elementary type,
a declared name, or an identifier that is none but holds what such a type begins
with (`IsStray`), which `isPlainType_iff` says of all texts.

* `IsElementary`: the elementary types, with the sizes that they come in;
* `IsInterfaceWord`: the words that the reader of interface types takes;
* `isReadable_sized`: a size that is written without leading zeros is read as itself.
-/
import SolidityCanvas.Proofs.Number.Expansion
import SolidityCanvas.Proofs.Solidity.Identifiers
import SolidityCanvas.Proofs.Text.PrefixFree

namespace SolidityCanvas.Solidity

open Text

/-! ### What decides about a word -/

/-- The first run of letters in a text, the digits after it, and the rest. -/
structure Parts (cs stem digits rest : List Char) : Prop where
  eq : ∃ front, (∀ c ∈ front, isAsciiLetter c = false) ∧ cs = front ++ (stem ++ (digits ++ rest))
  ne : stem ≠ []
  letters : ∀ c ∈ stem, isAsciiLetter c = true
  numerals : ∀ c ∈ digits, isAsciiDigit c = true
  stopsStem : ∀ c ∈ (digits ++ rest).head?, isAsciiLetter c = false
  stopsDigits : ∀ c ∈ rest.head?, isAsciiDigit c = false

theorem takeWhile_append {p : Char → Bool} {l rest : List Char} (hl : ∀ c ∈ l, p c = true)
    (hrest : ∀ c ∈ rest.head?, p c = false) : (l ++ rest).takeWhile p = l := by
  rw [List.takeWhile_append_of_pos hl]
  cases rest with
  | nil => simp
  | cons c rest => rw [List.takeWhile_cons_of_neg (by simp [hrest c (by simp)]), List.append_nil]

theorem dropWhile_append {p : Char → Bool} {l rest : List Char} (hl : ∀ c ∈ l, p c = true)
    (hrest : ∀ c ∈ rest.head?, p c = false) : (l ++ rest).dropWhile p = rest := by
  rw [List.dropWhile_append_of_pos hl, dropWhile_eq_self hrest]

theorem head?_dropWhile {p : Char → Bool} (cs : List Char) :
    ∀ c ∈ (cs.dropWhile p).head?, p c = false := by
  intro c hc
  have hhead := List.head?_dropWhile_not p cs
  rw [hc] at hhead
  exact hhead

/-- A text with a letter has these parts. -/
theorem exists_parts {cs : List Char} (h : ∃ c ∈ cs, isAsciiLetter c = true) :
    ∃ stem digits rest, Parts cs stem digits rest := by
  let start := cs.dropWhile (!isAsciiLetter ·)
  let after := start.dropWhile isAsciiLetter
  have hcs : cs.takeWhile (!isAsciiLetter ·) ++ start = cs := List.takeWhile_append_dropWhile
  have hstart : start.takeWhile isAsciiLetter ++ after = start := List.takeWhile_append_dropWhile
  have hafter : after.takeWhile isAsciiDigit ++ after.dropWhile isAsciiDigit = after :=
    List.takeWhile_append_dropWhile
  refine ⟨start.takeWhile isAsciiLetter, after.takeWhile isAsciiDigit,
    after.dropWhile isAsciiDigit, ⟨cs.takeWhile (!isAsciiLetter ·), fun c hc => ?_, ?_⟩, ?_, ?_,
    ?_, ?_, ?_⟩
  · simpa using List.mem_takeWhile_imp hc
  · rw [hafter, hstart, hcs]
  · obtain ⟨c, hc, hletter⟩ := h
    -- The first letter starts the run.
    have hne : start ≠ [] := by
      intro hnil
      have hall := List.dropWhile_eq_nil_iff.mp hnil c hc
      simp [hletter] at hall
    obtain ⟨d, rest, hd⟩ := List.exists_cons_of_ne_nil hne
    have hletter := head?_dropWhile (p := (!isAsciiLetter ·)) cs d (by
      change d ∈ start.head?
      rw [hd]
      rfl)
    rw [hd, List.takeWhile_cons_of_pos (by simpa using hletter)]
    exact List.cons_ne_nil _ _
  · exact fun c hc => List.mem_takeWhile_imp hc
  · exact fun c hc => List.mem_takeWhile_imp hc
  · rw [hafter]
    exact head?_dropWhile start
  · exact head?_dropWhile after

/-- Whether the digits, with what follows them, are read as a size. -/
def IsSize (digits rest : List Char) : Prop :=
  digits = [] ∨ (digitsValue digits ≤ maxInt64 ∧
    ∀ d more, rest = 'x' :: d :: more → isAsciiDigit d = false)

/-- The places after an `x`. -/
def placesOf (digits rest : List Char) : List Char :=
  match rest with
  | 'x' :: rest => if digits.isEmpty then [] else rest.takeWhile isAsciiDigit
  | _ => []

theorem Parts.first?_eq {cs stem digits rest : List Char} (h : Parts cs stem digits rest) :
    TypeName.first? cs = some ⟨stem, digits,
      if (placesOf digits rest).isEmpty then none else some (placesOf digits rest)⟩ := by
  obtain ⟨front, hfront, rfl⟩ := h.eq
  have hhead : ∀ c ∈ (stem ++ (digits ++ rest)).head?, (!isAsciiLetter c) = false := by
    intro c hc
    rw [List.head?_append_of_ne_nil _ h.ne] at hc
    simp [h.letters c (List.mem_of_mem_head? hc)]
  have hstart : (front ++ (stem ++ (digits ++ rest))).dropWhile (!isAsciiLetter ·) =
      stem ++ (digits ++ rest) := dropWhile_append (by simpa using hfront) hhead
  have hempty : stem.isEmpty = false := by simpa using h.ne
  rw [TypeName.first?]
  rw [hstart, takeWhile_append h.letters h.stopsStem, dropWhile_append h.letters h.stopsStem,
    takeWhile_append h.numerals h.stopsDigits, dropWhile_append h.numerals h.stopsDigits, hempty]
  rfl

theorem first?_eq_none {cs : List Char} (h : ∀ c ∈ cs, isAsciiLetter c = false) :
    TypeName.first? cs = none := by
  have hnil : cs.dropWhile (!isAsciiLetter ·) = [] :=
    List.dropWhile_eq_nil_iff.mpr fun c hc => by simp [h c hc]
  rw [TypeName.first?]
  rw [hnil]
  rfl

theorem splitOnChar_of_notMem {sep : Char} {cs : List Char} (h : sep ∉ cs) :
    splitOnChar sep cs = [cs] := by
  induction cs with
  | nil => rfl
  | cons c cs ih =>
    obtain ⟨hc, hcs⟩ := not_or.mp (List.mem_cons.not.mp h)
    rw [splitOnChar, if_neg (by simpa using Ne.symm hc), ih hcs]

theorem placesOf_ne_nil {digits rest : List Char} (hne : digits ≠ []) :
    placesOf digits rest ≠ [] ↔ ∃ d more, rest = 'x' :: d :: more ∧ isAsciiDigit d = true := by
  have hempty : digits.isEmpty = false := by simpa using hne
  rw [placesOf.eq_def]
  split
  next more =>
    rw [hempty]
    cases more with
    | nil => simp
    | cons d more => by_cases hd : isAsciiDigit d = true <;> simp [hd]
  next hother =>
    refine iff_of_false (by simp) ?_
    rintro ⟨d, more, hrest, -⟩
    exact hother _ hrest

/-- The size part of a name is read if it has digits and no places. -/
theorem readSize_eq_ok {cs stem digits rest : List Char} (h : Parts cs stem digits rest)
    (hne : digits ≠ []) {n : Nat} : readSize (TypeName.sizeText ⟨stem, digits,
      if (placesOf digits rest).isEmpty then none else some (placesOf digits rest)⟩) = .ok n ↔
      IsSize digits rest ∧ n = digitsValue digits := by
  have hdigits : isDigits digits = true := by
    simpa [isDigits, hne] using h.numerals
  rw [IsSize, or_iff_right hne]
  by_cases hplaces : placesOf digits rest = []
  · have hrest : ∀ d more, rest = 'x' :: d :: more → isAsciiDigit d = false := by
      intro d more hrest
      by_contra hd
      exact (placesOf_ne_nil hne).mpr ⟨d, more, hrest, Bool.eq_true_of_not_eq_false hd⟩ hplaces
    rw [hplaces, and_iff_left hrest, TypeName.sizeText]
    dsimp only [List.isEmpty_nil]
    rw [if_pos rfl, List.append_nil, readSize, if_pos hdigits]
    dsimp only
    split
    next hle => simp [hle, eq_comm]
    next hlt => simp [hlt]
  · obtain ⟨d, more, hrest, hd⟩ := (placesOf_ne_nil hne).mp hplaces
    have hnot : isDigits (digits ++ 'x' :: placesOf digits rest) = false := by
      rw [isDigits, List.all_append, List.all_cons]
      simp [isAsciiDigit]
    rw [if_neg (by simpa using hplaces), TypeName.sizeText, readSize, hnot]
    refine iff_of_false (by simp) fun hsize => ?_
    rw [hsize.1.2 d more hrest] at hd
    cases hd

/-- What a word that is read as a type begins with, after characters that are no
letters. -/
def Fits (stem : String) (digits rest : List Char) : Prop :=
  IsSize digits rest ∧ (stem ∈ ["bool", "address", "string", "function", "tuple"] ∨
    (stem ∈ ["uint", "int"] ∧ digits ≠ []) ∨ (stem = "bytes" ∧ digitsValue digits ≤ 32))

theorem exists_elementaryType_iff {text stem : String} {cs digits rest : List Char}
    (h : Parts cs stem.toList digits rest) (hstem : stem ≠ "tuple") :
    (∃ t, elementaryType text "" ⟨stem.toList, digits,
      if (placesOf digits rest).isEmpty then none else some (placesOf digits rest)⟩ = .ok t) ↔
      Fits stem digits rest := by
  have hcontract : hasPrefix "" "contract " = false := by decide
  have hinteger : (stem.toList == "uint".toList || stem.toList == "int".toList) = true ↔
      stem = "uint" ∨ stem = "int" := by
    rw [Bool.or_eq_true, beq_iff_eq, beq_iff_eq, String.toList_inj, String.toList_inj]
  have hbytes : ∀ {size : Nat} {f : AbiTypeFault} {t : NativeType},
      (∃ x, (if 32 < size then .error f else .ok t : Except AbiTypeFault NativeType) = .ok x) ↔
        size ≤ 32 := by
    intro size f t
    split <;> simp <;> omega
  rw [elementaryType, Fits]
  dsimp only
  rw [String.ofList_toList, if_congr hinteger rfl rfl, hcontract]
  by_cases hd : digits = []
  · have hsize : IsSize digits rest := .inl hd
    have hvalue : digitsValue digits ≤ 32 := by simp [hd, digitsValue]
    rw [if_pos (by simpa using hd), and_iff_right hsize]
    by_cases hint : stem = "uint" ∨ stem = "int"
    · rw [if_pos hint]
      refine iff_of_false (fun ⟨_, h⟩ => by cases h) ?_
      rcases hint with rfl | rfl <;> simp [hd]
    · rw [if_neg hint, pure_bind]
      split <;> simp_all [pure, Except.pure]
  · rw [if_neg (by simpa using hd)]
    simp only [except_bind_eq_ok, readSize_eq_ok h hd, and_assoc, exists_and_left,
      exists_eq_left]
    refine and_congr_right fun _ => ?_
    split <;> simp_all [pure, Except.pure]

theorem bracketsBalanced_word {cs : List Char} (hopen : '[' ∉ cs) (hclose : ']' ∉ cs) :
    bracketsBalanced cs = true := by
  rw [bracketsBalanced, splitOnChar_of_notMem hopen]
  simp [List.count_eq_zero.mpr hclose]

theorem arrayParts_word {cs : List Char} (hopen : '[' ∉ cs) : arrayParts cs = (cs, []) := by
  rw [arrayParts, splitOnChar_of_notMem hopen]
  rfl

theorem exists_typeText_iff_abiType {a : AbiArgument} :
    (∃ t, a.typeText = .ok t) ↔ ∃ t, a.abiType = .ok t := by
  rw [AbiArgument.typeText]
  cases a.abiType <;> simp [Except.map]

theorem exists_typeText_iff {n stem : String} {digits rest : List Char}
    (hopen : '[' ∉ n.toList) (hclose : ']' ∉ n.toList)
    (h : Parts n.toList stem.toList digits rest) :
    (∃ t, (AbiArgument.mk "" n "" [] false).typeText = .ok t) ↔ Fits stem digits rest := by
  rw [exists_typeText_iff_abiType, AbiArgument.abiType, bracketsBalanced_word hopen hclose,
    arrayParts_word hopen]
  simp only [Bool.not_true, Bool.false_eq_true, if_false, List.isEmpty_nil, if_true, h.first?_eq]
  have hcontinue : ∀ {α β : Type} {x : Except AbiTypeFault α} {f : α → Except AbiTypeFault β},
      (∀ a, ∃ b, f a = .ok b) → ((∃ b, (x >>= f) = .ok b) ↔ ∃ a, x = .ok a) := by
    intro α β x f hf
    cases x with
    | error e => exact iff_of_false (fun ⟨_, h⟩ => by cases h) fun ⟨_, h⟩ => by cases h
    | ok a => exact iff_of_true (hf a) ⟨a, rfl⟩
  by_cases htuple : stem = "tuple"
  · have hfits : Fits stem digits rest ↔ IsSize digits rest := by simp [Fits, htuple]
    rw [if_pos (by simp [htuple]), hfits]
    by_cases hd : digits = []
    · rw [if_neg (by simp [hd])]
      exact iff_of_true ⟨_, rfl⟩ (.inl hd)
    · rw [if_pos (by simp [hd])]
      refine (hcontinue fun _ => ?_).trans ?_
      · exact ⟨_, rfl⟩
      · simp only [readSize_eq_ok h hd, exists_and_left, exists_eq, and_true]
  · rw [if_neg (by rw [beq_iff_eq, String.toList_inj]; exact htuple)]
    refine (hcontinue fun _ => ?_).trans ?_
    · exact ⟨_, rfl⟩
    · exact exists_elementaryType_iff h htuple

/-- The words that the reader of interface types takes for a type. -/
def IsInterfaceWord (n : String) : Prop :=
  ∃ (stem : String) (digits rest : List Char), Parts n.toList stem.toList digits rest ∧
    Fits stem digits rest

theorem isInterfaceWord_iff {n : String} (hopen : '[' ∉ n.toList) (hclose : ']' ∉ n.toList) :
    IsInterfaceWord n ↔ ∃ t, (AbiArgument.mk "" n "" [] false).typeText = .ok t := by
  constructor
  · rintro ⟨stem, digits, rest, hparts, hfits⟩
    exact (exists_typeText_iff hopen hclose hparts).mpr hfits
  · intro htext
    by_cases hletter : ∃ c ∈ n.toList, isAsciiLetter c = true
    · obtain ⟨stem, digits, rest, hparts⟩ := exists_parts hletter
      rw [← String.toList_ofList (l := stem)] at hparts
      exact ⟨_, digits, rest, hparts, (exists_typeText_iff hopen hclose hparts).mp htext⟩
    · obtain ⟨t, ht⟩ := htext
      have hnone : TypeName.first? n.toList = none :=
        first?_eq_none fun c hc => Bool.eq_false_iff.mpr fun hl => hletter ⟨c, hc, hl⟩
      obtain ⟨_, ht⟩ := exists_typeText_iff_abiType.mp ⟨t, ht⟩
      rw [AbiArgument.abiType, bracketsBalanced_word hopen hclose, arrayParts_word hopen] at ht
      simp only [hnone] at ht
      cases ht

/-! ### Elementary types -/

/-- The elementary types; sizes have no leading zeros. -/
def IsElementary (n : String) : Prop :=
  n ∈ ["bool", "string", "bytes", "byte", "address", "address payable", "uint", "int"] ∨
  (∃ bits, 8 ∣ bits ∧ 8 ≤ bits ∧ bits ≤ 256 ∧
    (n = "uint" ++ toString bits ∨ n = "int" ++ toString bits)) ∨
  ∃ size, 1 ≤ size ∧ size ≤ 32 ∧ n = "bytes" ++ toString size

/-- The integer types have a multiple of eight from 8 to 256 for a size. -/
def HasIntSize (n : String) : Prop :=
  ∀ stem ∈ ["int", "uint"], ∀ digits, isDigits digits = true → n.toList = stem.toList ++ digits →
    8 ∣ digitsValue digits ∧ 8 ≤ digitsValue digits ∧ digitsValue digits ≤ 256

/-- The words that are taken for types although they are none. -/
def IsStray (n : String) : Prop :=
  ¬ IsElementary n ∧ isIdentifier n = true ∧ n ≠ "tuple" ∧ n ≠ "function" ∧ HasIntSize n ∧
    IsInterfaceWord n

theorem sizeAfter?_eq_some {stem n : String} {digits : List Char} :
    sizeAfter? stem n = some digits ↔ isDigits digits = true ∧ n.toList = stem.toList ++ digits := by
  rw [sizeAfter?, dropPrefix?, hasPrefix]
  by_cases h : stem.toList.isPrefixOf n.toList = true
  · rw [if_pos h, Option.bind_some, String.toList_ofList]
    obtain ⟨rest, hrest⟩ := List.isPrefixOf_iff_prefix.mp h
    have hdrop : n.toList.drop stem.toList.length = rest := by rw [← hrest, List.drop_left]
    rw [hdrop, ← hrest, List.append_cancel_left_eq]
    split
    next hdigits =>
      rw [Option.some_inj]
      constructor
      · rintro rfl
        exact ⟨hdigits, rfl⟩
      · exact fun h => h.2
    next hnot =>
      refine iff_of_false (by simp) ?_
      rintro ⟨hdigits, rfl⟩
      exact hnot hdigits
  · rw [if_neg h]
    refine iff_of_false (by simp) ?_
    rintro ⟨-, heq⟩
    exact h (List.isPrefixOf_iff_prefix.mpr ⟨digits, heq.symm⟩)

theorem hasBadIntSize_eq_false {n : String} : hasBadIntSize n = false ↔ HasIntSize n := by
  have hsize : ∀ digits, (!(8 ≤ digitsValue digits && digitsValue digits ≤ 256 &&
      digitsValue digits % 8 == 0)) = false ↔
        8 ∣ digitsValue digits ∧ 8 ≤ digitsValue digits ∧ digitsValue digits ≤ 256 := by
    intro digits
    simp only [Bool.not_eq_false', Bool.and_eq_true, decide_eq_true_eq, beq_iff_eq,
      Nat.dvd_iff_mod_eq_zero]
    tauto
  rw [hasBadIntSize, HasIntSize]
  cases hint : sizeAfter? "int" n with
  | some digits =>
    obtain ⟨hdigits, heq⟩ := sizeAfter?_eq_some.mp hint
    refine (hsize digits).trans ⟨fun hbits stem hstem ds _ hds => ?_, fun h => h "int" (by simp)
      digits hdigits heq⟩
    rw [heq] at hds
    rcases (by simpa using hstem : stem = "int" ∨ stem = "uint") with rfl | rfl
    · rw [← List.append_cancel_left hds]
      exact hbits
    · simp at hds
  | none =>
    have hnot : ∀ ds, isDigits ds = true → n.toList ≠ "int".toList ++ ds := by
      intro ds hds heq
      rw [sizeAfter?_eq_some.mpr ⟨hds, heq⟩] at hint
      cases hint
    cases huint : sizeAfter? "uint" n with
    | some digits =>
      obtain ⟨hdigits, heq⟩ := sizeAfter?_eq_some.mp huint
      refine (hsize digits).trans ⟨fun hbits stem hstem ds hds heq' => ?_, fun h => h "uint"
        (by simp) digits hdigits heq⟩
      rcases (by simpa using hstem : stem = "int" ∨ stem = "uint") with rfl | rfl
      · exact absurd heq' (hnot ds hds)
      · rw [heq] at heq'
        rw [← List.append_cancel_left heq']
        exact hbits
    | none =>
      refine iff_of_true rfl fun stem hstem ds hds heq => ?_
      rcases (by simpa using hstem : stem = "int" ∨ stem = "uint") with rfl | rfl
      · exact absurd heq (hnot ds hds)
      · rw [sizeAfter?_eq_some.mpr ⟨hds, heq⟩] at huint
        cases huint

section

variable {declared : String → Bool}

/-- A full name is a type if it is an identifier that is read as one, apart from
tuples and functions and integers of other sizes. -/
def isReadable (n : String) : Bool :=
  isIdentifier n && n != "tuple" && n != "function" && !hasBadIntSize n &&
    match (AbiArgument.mk "" n "" [] false).typeText with
    | .ok _ => true
    | .error _ => false

theorem isPlainType_eq (n : String) (declared : String → Bool) : isPlainType n declared =
    (["address payable", "string", "bytes", "bool", "address"].contains n ||
      (declared (fullName n) || isReadable (fullName n))) := by
  rw [isPlainType]
  dsimp only
  split
  next h => rw [h, Bool.true_or]
  next h =>
    rw [Bool.eq_false_iff.mpr h, Bool.false_or]
    split
    next hd => rw [hd, Bool.true_or]
    next hd =>
      rw [Bool.eq_false_iff.mpr hd, Bool.false_or, isReadable]
      split
      next hnot =>
        simp only [Bool.or_eq_true, Bool.not_eq_true', beq_iff_eq] at hnot
        rcases hnot with (hnot | hnot) | hnot <;> simp [hnot]
      next hid =>
        simp only [Bool.or_eq_true, Bool.not_eq_true', beq_iff_eq, not_or, Bool.not_eq_false] at hid
        obtain ⟨⟨hid, htuple⟩, hfunction⟩ := hid
        rw [hid, bne_iff_ne.mpr htuple, bne_iff_ne.mpr hfunction]
        cases hasBadIntSize (fullName n) with
        | true => rfl
        | false => rfl

theorem isReadable_iff {n : String} : isReadable n = true ↔ isIdentifier n = true ∧ n ≠ "tuple" ∧
    n ≠ "function" ∧ HasIntSize n ∧ IsInterfaceWord n := by
  rw [isReadable]
  simp only [Bool.and_eq_true, bne_iff_ne, ne_eq, Bool.not_eq_true', hasBadIntSize_eq_false,
    and_assoc]
  refine and_congr_right fun hid => and_congr_right fun _ => and_congr_right fun _ =>
    and_congr_right fun _ => ?_
  rw [isInterfaceWord_iff (notMem_of_isIdentifier hid rfl) (notMem_of_isIdentifier hid rfl)]
  cases (AbiArgument.mk "" n "" [] false).typeText <;> simp

theorem ne_of_digit {n m : String} (h : ∃ c ∈ n.toList, isAsciiDigit c = true)
    (hm : m.toList.all (!isAsciiDigit ·) = true) : n ≠ m := by
  rintro rfl
  obtain ⟨c, hc, hdigit⟩ := h
  have hnot := List.all_eq_true.mp hm c hc
  rw [hdigit] at hnot
  cases hnot

theorem toList_toString (k : Nat) : (toString k).toList = Nat.toDigits 10 k := by
  rw [Nat.toString_eq_ofList_toDigits, String.toList_ofList]

theorem isAsciiDigit_of_mem_toDigits {k : Nat} : ∀ c ∈ Nat.toDigits 10 k, isAsciiDigit c = true :=
  fun c hc => by
    have hdigit := isDigit_of_mem_toDigits c hc
    simp only [Char.isDigit, Bool.and_eq_true, decide_eq_true_eq] at hdigit
    simp only [isAsciiDigit, Bool.and_eq_true, decide_eq_true_eq]
    exact hdigit

theorem digitsValue_toDigits (k : Nat) : digitsValue (Nat.toDigits 10 k) = k :=
  Decimal.decimalValue_toDigits k

theorem isAsciiLetter_of_isAsciiDigit {c : Char} (h : isAsciiDigit c = true) :
    isAsciiLetter c = false := by
  simp only [isAsciiDigit, Bool.and_eq_true, decide_eq_true_eq, Char.le_def,
    UInt32.le_iff_toNat_le] at h
  simp only [isAsciiLetter, Bool.or_eq_false_iff, Bool.and_eq_false_iff, decide_eq_false_iff_not,
    Char.le_def, UInt32.le_iff_toNat_le]
  have h9 : ('9' : Char).val.toNat = 57 := rfl
  have ha : ('a' : Char).val.toNat = 97 := rfl
  have hA : ('A' : Char).val.toNat = 65 := rfl
  omega

theorem isIdentifierChars_append {xs ys : List Char} (hne : xs ≠ [])
    (hxs : ∀ c ∈ xs, isAsciiLetter c = true) (hys : ∀ c ∈ ys, isAsciiDigit c = true) :
    isIdentifierChars (xs ++ ys) = true := by
  obtain ⟨c, xs, rfl⟩ := List.exists_cons_of_ne_nil hne
  rw [List.cons_append, isIdentifierChars, Bool.and_eq_true, List.all_append, Bool.and_eq_true,
    List.all_eq_true, List.all_eq_true]
  refine ⟨?_, fun d hd => ?_, fun d hd => ?_⟩
  · simp [isIdentifierStart, hxs c (by simp)]
  · simp [isIdentifierContinue, isIdentifierStart, hxs d (by simp [hd])]
  · simp [isIdentifierContinue, hys d hd]

theorem fullName_eq_self {n : String} (huint : n ≠ "uint") (hint : n ≠ "int") (hbyte : n ≠ "byte") :
    fullName n = n := by
  rw [fullName.eq_def]
  split <;> simp_all

section

variable {stem : String} {k : Nat}

theorem toList_sized (stem : String) (k : Nat) :
    (stem ++ toString k).toList = stem.toList ++ Nat.toDigits 10 k := by
  rw [String.toList_append, toList_toString]

theorem exists_digit_sized (stem : String) (k : Nat) :
    ∃ c ∈ (stem ++ toString k).toList, isAsciiDigit c = true := by
  obtain ⟨d, rest, hd⟩ := List.exists_cons_of_ne_nil (Nat.toDigits_ne_nil (n := k) (b := 10))
  have hmem : d ∈ Nat.toDigits 10 k := hd ▸ List.mem_cons_self
  rw [toList_sized]
  exact ⟨d, List.mem_append_right _ hmem, isAsciiDigit_of_mem_toDigits d hmem⟩

theorem parts_sized (hne : stem.toList ≠ []) (hletters : ∀ c ∈ stem.toList, isAsciiLetter c = true)
    (k : Nat) : Parts (stem ++ toString k).toList stem.toList (Nat.toDigits 10 k) [] where
  eq := ⟨[], by simp, by rw [toList_sized, List.append_nil, List.nil_append]⟩
  ne := hne
  letters := hletters
  numerals := isAsciiDigit_of_mem_toDigits
  stopsStem := by
    rw [List.append_nil]
    exact fun c hc => isAsciiLetter_of_isAsciiDigit (isAsciiDigit_of_mem_toDigits c
      (List.mem_of_mem_head? hc))
  stopsDigits := by simp

/-- The size of an integer type is the number that was written. -/
theorem hasIntSize_sized (hstem : stem ∈ ["uint", "int", "bytes"])
    (hbits : stem ≠ "bytes" → 8 ∣ k ∧ 8 ≤ k ∧ k ≤ 256) : HasIntSize (stem ++ toString k) := by
  intro stem' hstem' digits _ heq
  rw [toList_sized] at heq
  have hbound : stem = stem' → stem' ≠ "bytes" → 8 ∣ digitsValue digits ∧
      8 ≤ digitsValue digits ∧ digitsValue digits ≤ 256 := by
    rintro rfl hne
    rw [← List.append_cancel_left heq, digitsValue_toDigits]
    exact hbits hne
  have hcases : stem = "uint" ∨ stem = "int" ∨ stem = "bytes" := by simpa using hstem
  rcases (by simpa using hstem' : stem' = "int" ∨ stem' = "uint") with rfl | rfl
  · rcases hcases with rfl | rfl | rfl
    · simp at heq
    · exact hbound rfl (by decide)
    · simp at heq
  · rcases hcases with rfl | rfl | rfl
    · exact hbound rfl (by decide)
    · simp at heq
    · simp at heq

/-- Names with sizes are read as types. -/
theorem isReadable_sized (stem : String) (k : Nat) (hstem : stem ∈ ["uint", "int", "bytes"])
    (hbits : stem ≠ "bytes" → 8 ∣ k ∧ 8 ≤ k ∧ k ≤ 256) (hbytes : stem = "bytes" → k ≤ 32) :
    fullName (stem ++ toString k) = stem ++ toString k ∧ isReadable (stem ++ toString k) = true := by
  have hdigit := exists_digit_sized stem k
  have hcases : stem = "uint" ∨ stem = "int" ∨ stem = "bytes" := by simpa using hstem
  have hletters : ∀ c ∈ stem.toList, isAsciiLetter c = true := by
    rw [← List.all_eq_true]
    rcases hcases with rfl | rfl | rfl <;> decide
  have hne : stem.toList ≠ [] := by
    rcases hcases with rfl | rfl | rfl <;> decide
  have hid : isIdentifier (stem ++ toString k) = true := by
    rw [isIdentifier, toList_sized]
    exact isIdentifierChars_append hne hletters isAsciiDigit_of_mem_toDigits
  have hsize : k ≤ maxInt64 := by
    have hbound : k ≤ 256 := by
      by_cases h : stem = "bytes"
      · exact (hbytes h).trans (by decide)
      · exact (hbits h).2.2
    exact hbound.trans (by decide)
  have hfits : Fits stem (Nat.toDigits 10 k) [] := by
    rw [Fits, IsSize, digitsValue_toDigits]
    refine ⟨.inr ⟨hsize, by simp⟩, ?_⟩
    rcases hcases with rfl | rfl | rfl
    · exact .inr (.inl ⟨by simp, Nat.toDigits_ne_nil⟩)
    · exact .inr (.inl ⟨by simp, Nat.toDigits_ne_nil⟩)
    · exact .inr (.inr ⟨rfl, hbytes rfl⟩)
  exact ⟨fullName_eq_self (ne_of_digit hdigit (by decide)) (ne_of_digit hdigit (by decide))
      (ne_of_digit hdigit (by decide)),
    isReadable_iff.mpr ⟨hid, ne_of_digit hdigit (by decide), ne_of_digit hdigit (by decide),
      hasIntSize_sized hstem hbits, stem, _, [], parts_sized hne hletters k, hfits⟩⟩

end

theorem isPlainType_of_isElementary {n : String} (h : IsElementary n) :
    isPlainType n declared = true := by
  rw [isPlainType_eq]
  rcases h with hlist | ⟨bits, hdvd, hmin, hmax, hn⟩ | ⟨size, -, hmax, rfl⟩
  · have huint : isReadable "uint256" = true :=
      (isReadable_sized "uint" 256 (by simp) (by simp) (by simp)).2
    have hint : isReadable "int256" = true :=
      (isReadable_sized "int" 256 (by simp) (by simp) (by simp)).2
    have hbyte : isReadable "bytes1" = true :=
      (isReadable_sized "bytes" 1 (by simp) (by simp) (by simp)).2
    simp only [List.mem_cons, List.not_mem_nil, or_false] at hlist
    rcases hlist with rfl | rfl | rfl | rfl | rfl | rfl | rfl | rfl
    all_goals simp [fullName, huint, hint, hbyte]
  · have hreadable : ∀ stem ∈ ["uint", "int"], fullName (stem ++ toString bits) = stem ++ toString bits ∧
        isReadable (stem ++ toString bits) = true := by
      intro stem hstem
      refine isReadable_sized stem bits (by simp at hstem ⊢; tauto) (fun _ => ⟨hdvd, hmin, hmax⟩) ?_
      rintro rfl
      simp at hstem
    rcases hn with rfl | rfl
    · obtain ⟨hfull, hread⟩ := hreadable "uint" (by simp)
      rw [hfull, hread, Bool.or_true, Bool.or_true]
    · obtain ⟨hfull, hread⟩ := hreadable "int" (by simp)
      rw [hfull, hread, Bool.or_true, Bool.or_true]
  · obtain ⟨hfull, hread⟩ := isReadable_sized "bytes" size (by simp) (by simp) fun _ => hmax
    rw [hfull, hread, Bool.or_true, Bool.or_true]

/-- **What a type without brackets and parentheses can be.** -/
theorem isPlainType_iff {n : String} : isPlainType n declared = true ↔
    IsElementary n ∨ declared n = true ∨ IsStray n := by
  by_cases helementary : IsElementary n
  · exact iff_of_true (isPlainType_of_isElementary helementary) (.inl helementary)
  · have hfull : fullName n = n := by
      rw [fullName.eq_def]
      split
      · exact absurd (.inl (by simp)) helementary
      · exact absurd (.inl (by simp)) helementary
      · exact absurd (.inl (by simp)) helementary
      · rfl
    have hlist : ["address payable", "string", "bytes", "bool", "address"].contains n = false := by
      rw [Bool.eq_false_iff, Ne, List.contains_iff_mem]
      intro hmem
      refine helementary (.inl ?_)
      simp only [List.mem_cons, List.not_mem_nil, or_false] at hmem ⊢
      tauto
    rw [isPlainType_eq, hfull, hlist, Bool.false_or, Bool.or_eq_true, or_iff_right helementary,
      IsStray, and_iff_right helementary, isReadable_iff]

end

end SolidityCanvas.Solidity
