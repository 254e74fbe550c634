/-
The grammar of type texts.

A type text is made of plain types by brackets and mappings, with white space
around each part (`HasForm`).  The reader strips brackets from the right and cuts a
mapping at its first arrow, so that a key holds no mapping.

* What is read has a form, by the recursion of the reader
  (`exists_form_of_isTypeChars`), and a text that has a form is read, by induction on
  the form (`isTypeChars_of_form`).
* The atoms of a form are words of the text (`HasForm.imp_of_words`), so two sets of
  plain types that agree on the words of a text have the same forms there.
* `isType_iff_hasForm` puts the elementary types and the declared names in for the
  atoms.  The words of `IsStray` are read as well, and nothing else.
-/
import SolidityCanvas.Proofs.Solidity.Elementary

namespace SolidityCanvas.Solidity

open Text

/-! ### Forms -/

/-- A number in digits, or nothing, with white space around it. -/
def IsLength (cs : List Char) : Prop :=
  ∃ front digits back, cs = front ++ (digits ++ back) ∧ (∀ c ∈ front, isBlank c = true) ∧
    (∀ c ∈ digits, isAsciiDigit c = true) ∧ ∀ c ∈ back, isBlank c = true

/-- The texts of types that are made of atoms, with white space around each part.
Whether a mapping occurs in a type is told apart, since a key has none. -/
inductive HasForm (IsAtom : String → Prop) : Bool → List Char → Prop
  | atom {n : String} (h : IsAtom n) : HasForm IsAtom false n.toList
  | array {m : Bool} {cs length : List Char} (h : HasForm IsAtom m cs) (hlength : IsLength length) :
      HasForm IsAtom m (cs ++ '[' :: (length ++ [']']))
  | mapping {m : Bool} {key value : List Char} (hkey : HasForm IsAtom false key)
      (hvalue : HasForm IsAtom m value) :
      HasForm IsAtom true ("mapping(".toList ++ ((key ++ (['=', '>'] ++ value)) ++ [')']))
  | padded {m : Bool} {front cs back : List Char} (hfront : ∀ c ∈ front, isBlank c = true)
      (hback : ∀ c ∈ back, isBlank c = true) (h : HasForm IsAtom m cs) :
      HasForm IsAtom m (front ++ (cs ++ back))

variable {A B : String → Prop} {m : Bool} {cs : List Char}

/-- The atoms of a form are words of the text if they are identifiers. -/
theorem HasForm.imp_of_words (h : HasForm A m cs)
    (hAB : ∀ n, A n → (isIdentifier n = true → n.toList ∈ fieldsBy isWordSeparator cs) → B n) :
    HasForm B m cs := by
  have hseparates : ∀ {c}, c ∈ ['[', '(', '=', '>', ')'] → isWordSeparator c = true := by
    have hall : ['[', '(', '=', '>', ')'].all isWordSeparator = true := by decide
    exact fun {c} hc => List.all_eq_true.mp hall c hc
  induction h with
  | @atom n hn =>
    refine .atom (hAB n hn fun hid => ?_)
    rw [fieldsBy_identifier hid]
    exact List.mem_singleton_self _
  | array _ hlength ih =>
    refine .array (ih fun n hn hword => hAB n hn fun hid => ?_) hlength
    rw [fieldsBy_append_cons (hseparates (by simp))]
    exact List.mem_append_left _ (hword hid)
  | @mapping _ key value _ _ ihKey ihValue =>
    have hparts : fieldsBy isWordSeparator
        ("mapping(".toList ++ ((key ++ (['=', '>'] ++ value)) ++ [')'])) =
          fieldsBy isWordSeparator "mapping".toList ++
            (fieldsBy isWordSeparator key ++ fieldsBy isWordSeparator value) := by
      have hopen : "mapping(".toList ++ ((key ++ (['=', '>'] ++ value)) ++ [')']) =
          "mapping".toList ++ '(' :: (key ++ '=' :: '>' :: (value ++ ')' :: [])) := by simp
      rw [hopen, fieldsBy_append_cons (hseparates (by simp)),
        fieldsBy_append_cons (hseparates (by simp)), fieldsBy_cons_of_sep (hseparates (by simp)),
        fieldsBy_append_cons (hseparates (by simp)), fieldsBy.eq_def isWordSeparator [],
        List.append_nil]
    refine .mapping (ihKey fun n hn hword => hAB n hn fun hid => ?_)
      (ihValue fun n hn hword => hAB n hn fun hid => ?_)
    · rw [hparts]
      exact List.mem_append_right _ (List.mem_append_left _ (hword hid))
    · rw [hparts]
      exact List.mem_append_right _ (List.mem_append_right _ (hword hid))
  | padded hfront hback _ ih =>
    refine .padded hfront hback (ih fun n hn hword => hAB n hn fun hid => ?_)
    rw [fieldsBy_padded (fun c hc => isWordSeparator_of_isBlank (hfront c hc))
      fun c hc => isWordSeparator_of_isBlank (hback c hc)]
    exact hword hid

theorem HasForm.imp (h : HasForm A m cs) (hAB : ∀ n, A n → B n) : HasForm B m cs :=
  h.imp_of_words fun n hn _ => hAB n hn

/-- A mapping has an arrow. -/
theorem HasForm.has_arrow (h : HasForm A true cs) : ['=', '>'] <:+: cs := by
  generalize hm : true = m at h
  induction h with
  | atom => cases hm
  | array _ _ ih => exact (ih hm).trans (List.prefix_append _ _).isInfix
  | @mapping _ key value _ _ _ _ => exact ⟨"mapping(".toList ++ key, value ++ [')'], by simp⟩
  | padded _ _ _ ih =>
    exact (ih hm).trans ((List.prefix_append _ _).isInfix.trans (List.suffix_append _ _).isInfix)

/-- Without a mapping there is no equals sign. -/
theorem HasForm.notMem_equals (h : HasForm A false cs) (hA : ∀ n, A n → '=' ∉ n.toList) :
    '=' ∉ cs := by
  have hblank : ∀ {cs : List Char}, (∀ c ∈ cs, isBlank c = true) → '=' ∉ cs :=
    fun h hmem => ne_of_isBlank (h _ hmem) rfl rfl
  generalize hm : false = m at h
  induction h with
  | atom hn => exact hA _ hn
  | @array _ _ length _ hlength ih =>
    obtain ⟨front, digits, back, rfl, hfront, hdigits, hback⟩ := hlength
    have hdigit : '=' ∉ digits := fun hmem => ne_of_isAsciiDigit (hdigits _ hmem) rfl rfl
    simp [ih hm, hblank hfront, hblank hback, hdigit]
  | mapping => cases hm
  | padded hfront hback _ ih => simp [ih hm, hblank hfront, hblank hback]

/-! ### Texts that are read have a form -/

theorem isLength_of_trimChars {size : List Char}
    (h : ((trimChars size).isEmpty || isDigits (trimChars size)) = true) : IsLength size := by
  obtain ⟨front, back, hsize, hfront, hback⟩ := exists_trimChars size
  refine ⟨front, trimChars size, back, hsize, hfront, ?_, hback⟩
  rcases Bool.or_eq_true_iff.mp h with hempty | hdigits
  · simp [List.isEmpty_iff.mp hempty]
  · rw [isDigits, Bool.and_eq_true, List.all_eq_true] at hdigits
    exact hdigits.2

/-- A text has the form of what trimming leaves of it. -/
theorem HasForm.of_trimChars (h : HasForm A m (trimChars cs)) : HasForm A m cs := by
  obtain ⟨front, back, hcs, hfront, hback⟩ := exists_trimChars cs
  rw [hcs]
  exact .padded hfront hback h

theorem hasForm_of_stripArrays {base : List Char} (h : stripArrays cs = some base)
    (hbase : HasForm A m base) : HasForm A m cs := by
  fun_induction stripArrays cs with
  | case1 => cases h
  | case2 cs hlast before size hsplit =>
    rename_i hsize ih
    rw [splitLastBracket?_eq (by simpa using hlast) hsplit]
    exact .array (ih h).of_trimChars (isLength_of_trimChars hsize)
  | case3 => cases h
  | case4 =>
    obtain rfl := Option.some.inj h
    exact hbase

/-- What comes before the first occurrence of a text does not hold it. -/
theorem not_infix_of_cut {pat before after : List Char} (hne : pat ≠ [])
    (h : cut pat cs = some (before, after)) : ¬ pat <:+: before := by
  induction cs generalizing before with
  | nil =>
    rw [cut, if_neg (by simpa using hne)] at h
    cases h
  | cons c cs ih =>
    rw [cut] at h
    split at h
    · obtain ⟨rfl, -⟩ := Prod.mk.inj (Option.some.inj h)
      rwa [List.infix_nil]
    next hprefix =>
      obtain ⟨⟨b, a⟩, hb, heq⟩ := Option.map_eq_some_iff.mp h
      obtain ⟨rfl, rfl⟩ := Prod.mk.inj heq
      intro hinfix
      rcases List.infix_cons_iff.mp hinfix with hstart | hrest
      · refine hprefix (List.isPrefixOf_iff_prefix.mpr (hstart.trans ?_))
        rw [cut_eq hb]
        exact List.cons_prefix_cons.mpr ⟨rfl, List.prefix_append _ _⟩
      · exact ih hb hrest

/-! ### Reading types -/

section

variable {declared : String → Bool}

/-- What is looked at of a text that may be a type. -/
theorem isTypeChars_iff : isTypeChars cs declared = true ↔ trimChars cs ≠ [] ∧
    ∃ base, stripArrays (trimChars cs) = some base ∧
      ((∃ inner key value, mappingInner? base = some inner ∧ cut ['=', '>'] inner = some (key, value) ∧
        isTypeChars key declared = true ∧ isTypeChars value declared = true) ∨
      (mappingInner? base = none ∧ isPlainType (String.ofList base) declared = true)) := by
  rw [isTypeChars]
  dsimp only
  split
  next hempty => simp [List.isEmpty_iff.mp hempty]
  next hne =>
    rw [and_iff_right (by simpa using hne)]
    split
    next hstrip => simp [hstrip]
    next base hstrip =>
      simp only [hstrip, Option.some_inj, exists_eq_left']
      split
      next inner hinner =>
        split
        next hcut => simp [hinner, hcut]
        next key value hcut => simp [hinner, hcut]
      next hinner => simp [hinner]

/-- **A text that is read as a type has a form.** -/
theorem exists_form_of_isTypeChars (h : isTypeChars cs declared = true) :
    ∃ m, HasForm (fun n => isPlainType n declared = true) m cs := by
  induction hlength : cs.length using Nat.strong_induction_on generalizing cs with
  | _ k ih =>
  obtain ⟨-, base, hstrip, hbase⟩ := isTypeChars_iff.mp h
  have hle : base.length ≤ cs.length := (stripArrays_length hstrip).trans (trimChars_length cs)
  obtain ⟨m, hform⟩ : ∃ m, HasForm (fun n => isPlainType n declared = true) m base := by
    rcases hbase with ⟨inner, key, value, hinner, hcut, hkey, hvalue⟩ | ⟨-, hplain⟩
    · -- The parts of a mapping are shorter, and the key ends at the first arrow.
      have hshorter := mappingInner?_length hinner
      have hparts := cut_length hcut
      obtain ⟨mKey, hkey⟩ := ih key.length (by omega) hkey rfl
      obtain ⟨mValue, hvalue⟩ := ih value.length (by omega) hvalue rfl
      obtain rfl : mKey = false := by
        by_contra hm
        rw [Bool.not_eq_false] at hm
        exact not_infix_of_cut (by simp) hcut (hm ▸ hkey).has_arrow
      rw [mappingInner?_eq hinner, cut_eq hcut]
      exact ⟨true, .mapping hkey hvalue⟩
    · rw [← String.toList_ofList (l := base)]
      exact ⟨false, .atom hplain⟩
  exact ⟨m, (hasForm_of_stripArrays hstrip hform).of_trimChars⟩

/-! ### Forms are read -/

theorem trimChars_padded {front back : List Char} (hfront : ∀ c ∈ front, isBlank c = true)
    (hback : ∀ c ∈ back, isBlank c = true) (cs : List Char) :
    trimChars (front ++ (cs ++ back)) = trimChars cs := by
  rw [trimChars, List.dropWhile_append_of_pos hfront, List.dropWhile_append, trimChars]
  split
  next hempty =>
    rw [List.isEmpty_iff.mp hempty, List.dropWhile_eq_nil_iff.mpr hback]
  next =>
    rw [dropRightWhile, List.reverse_append, List.dropWhile_append_of_pos (by simpa using hback)]
    rfl

theorem isTypeChars_padded {front back : List Char} (hfront : ∀ c ∈ front, isBlank c = true)
    (hback : ∀ c ∈ back, isBlank c = true) (h : isTypeChars cs declared = true) :
    isTypeChars (front ++ (cs ++ back)) declared = true := by
  rw [isTypeChars_iff, trimChars_padded hfront hback]
  exact isTypeChars_iff.mp h

theorem IsLength.trimChars {size : List Char} (h : IsLength size) :
    ((trimChars size).isEmpty || isDigits (trimChars size)) = true := by
  obtain ⟨front, digits, back, rfl, hfront, hdigits, hback⟩ := h
  have hblank : ∀ c ∈ digits, isBlank c = false := by
    intro c hc
    exact isBlank_of_isIdentifierContinue (by simp [isIdentifierContinue, hdigits c hc])
  rw [trimChars_padded hfront hback, trimChars_eq_self (fun c hc => hblank c (List.mem_of_mem_head? hc))
    fun c hc => hblank c (List.mem_of_getLast? hc)]
  cases digits with
  | nil => rfl
  | cons d digits => simpa [isDigits] using hdigits

theorem splitLastBracket?_append {size : List Char} (h : '[' ∉ size) (cs : List Char) :
    splitLastBracket? (cs ++ '[' :: (size ++ [']'])) = some (cs, size) := by
  have hreverse : (cs ++ '[' :: (size ++ [']'])).reverse =
      (']' :: size.reverse) ++ '[' :: cs.reverse := by simp
  have hbefore : ∀ c ∈ ']' :: size.reverse, (c != '[') = true := by
    intro c hc
    rw [bne_iff_ne]
    rintro rfl
    simp [h] at hc
  rw [splitLastBracket?, hreverse, List.dropWhile_append_of_pos hbefore,
    List.takeWhile_append_of_pos hbefore, List.dropWhile_cons_of_neg (by simp),
    List.takeWhile_cons_of_neg (by simp)]
  simp

theorem IsLength.notMem_bracket {size : List Char} (h : IsLength size) : '[' ∉ size := by
  obtain ⟨front, digits, back, rfl, hfront, hdigits, hback⟩ := h
  simp only [List.mem_append, not_or]
  exact ⟨fun hmem => ne_of_isBlank (hfront _ hmem) rfl rfl,
    fun hmem => ne_of_isAsciiDigit (hdigits _ hmem) rfl rfl,
    fun hmem => ne_of_isBlank (hback _ hmem) rfl rfl⟩

/-- Brackets at the end are stripped. -/
theorem stripArrays_append {size : List Char} (h : IsLength size) (cs : List Char) :
    stripArrays (cs ++ '[' :: (size ++ [']'])) = stripArrays (Text.trimChars cs) := by
  have hlast : (cs ++ '[' :: (size ++ [']'])).getLast? = some ']' := by
    rw [← List.cons_append, ← List.append_assoc, List.getLast?_concat]
  rw [stripArrays, if_pos (by rw [hlast]; rfl)]
  split
  next hnone =>
    rw [splitLastBracket?_append h.notMem_bracket] at hnone
    cases hnone
  next before size' hsome =>
    rw [splitLastBracket?_append h.notMem_bracket] at hsome
    obtain ⟨rfl, rfl⟩ := Prod.mk.inj (Option.some.inj hsome)
    exact if_pos h.trimChars

theorem stripArrays_of_getLast? (h : cs.getLast? ≠ some ']') : stripArrays cs = some cs := by
  rw [stripArrays, if_neg (by simpa using h)]

theorem isTypeChars_array {length : List Char} (hlength : IsLength length)
    (h : isTypeChars cs declared = true) :
    isTypeChars (cs ++ '[' :: (length ++ [']'])) declared = true := by
  obtain ⟨hne, hbase⟩ := isTypeChars_iff.mp h
  obtain ⟨front, back, hcs, hfront, hback⟩ := exists_trimChars cs
  have hinner : cs ++ '[' :: (length ++ [']']) =
      front ++ (((trimChars cs ++ back) ++ '[' :: (length ++ [']'])) ++ []) := by
    conv_lhs => rw [hcs]
    simp
  have htrim : trimChars (cs ++ '[' :: (length ++ [']'])) =
      (trimChars cs ++ back) ++ '[' :: (length ++ [']']) := by
    rw [hinner, trimChars_padded hfront (by simp)]
    refine trimChars_eq_self (fun c hc => ?_) fun c hc => ?_
    · rw [List.append_assoc, List.head?_append_of_ne_nil _ hne] at hc
      exact head?_trimChars cs c hc
    · rw [← List.cons_append, ← List.append_assoc, List.getLast?_concat] at hc
      obtain rfl := Option.some.inj hc
      rfl
  have hback : trimChars (trimChars cs ++ back) = trimChars cs := by
    have hpadded : trimChars ([] ++ (trimChars cs ++ back)) = trimChars (trimChars cs) :=
      trimChars_padded (by simp) hback (trimChars cs)
    rwa [List.nil_append, trimChars_trimChars] at hpadded
  rw [isTypeChars_iff, htrim, stripArrays_append hlength, hback]
  exact ⟨by simp, hbase⟩

/-- The first occurrence of a text is that after a text without its first character. -/
theorem cut_cons_append {c : Char} {before : List Char} (h : c ∉ before) (pat after : List Char) :
    cut (c :: pat) (before ++ ((c :: pat) ++ after)) = some (before, after) := by
  induction before with
  | nil =>
    rw [List.nil_append, List.cons_append, cut, if_pos (by simp)]
    simp
  | cons d before ih =>
    rw [List.mem_cons, not_or] at h
    rw [List.cons_append, cut, if_neg (by simp [List.isPrefixOf, h.1]), ih h.2]
    rfl

theorem mappingInner?_append (inner : List Char) :
    mappingInner? ("mapping(".toList ++ (inner ++ [')'])) = some inner := by
  have hlast : ("mapping(".toList ++ (inner ++ [')'])).getLast? = some ')' := by
    rw [← List.append_assoc, List.getLast?_concat]
  have hdrop : ("mapping(".toList ++ (inner ++ [')'])).drop 8 = inner ++ [')'] :=
    List.drop_left' rfl
  rw [mappingInner?, hlast, hdrop, List.dropLast_concat, if_pos]
  rw [Bool.and_eq_true, List.isPrefixOf_iff_prefix]
  exact ⟨List.prefix_append _ _, by decide⟩

theorem isTypeChars_mapping {key value : List Char} (hequals : '=' ∉ key)
    (hkey : isTypeChars key declared = true) (hvalue : isTypeChars value declared = true) :
    isTypeChars ("mapping(".toList ++ ((key ++ (['=', '>'] ++ value)) ++ [')'])) declared = true := by
  have hlast : ∀ inner : List Char,
      ("mapping(".toList ++ (inner ++ [')'])).getLast? = some ')' := by
    intro inner
    rw [← List.append_assoc, List.getLast?_concat]
  have htrim : ∀ inner : List Char, trimChars ("mapping(".toList ++ (inner ++ [')'])) =
      "mapping(".toList ++ (inner ++ [')']) := by
    intro inner
    refine trimChars_eq_self (fun c hc => ?_) fun c hc => ?_
    · obtain rfl : 'm' = c := by simpa using hc
      rfl
    · rw [hlast] at hc
      obtain rfl := Option.some.inj hc
      rfl
  rw [isTypeChars_iff, htrim, stripArrays_of_getLast? (by rw [hlast]; decide)]
  exact ⟨by simp, _, rfl, .inl ⟨_, key, value, mappingInner?_append _,
    cut_cons_append hequals ['>'] value, hkey, hvalue⟩⟩

variable (hdeclared : ∀ n, declared n = true → isIdentifier n = true)
include hdeclared

/-- A plain type is not trimmed, and has only characters of names and one space. -/
theorem isTypeChars_plain {n : String} (h : isPlainType n declared = true) :
    isTypeChars n.toList declared = true ∧ '=' ∉ n.toList := by
  obtain ⟨htrim, hne, hother⟩ : trimChars n.toList = n.toList ∧ n.toList ≠ [] ∧
      ∀ c ∈ [']', ')', '='], c ∉ n.toList := by
    rcases eq_or_isIdentifier_of_isPlainType hdeclared h with rfl | hid
    · exact ⟨by decide, by decide, by simp⟩
    · have hword := isWord_of_isIdentifier hid
      refine ⟨trimChars_eq_self (fun c hc => hword.2 c (List.mem_of_mem_head? hc))
        fun c hc => hword.2 c (List.mem_of_getLast? hc), hword.1, fun c hc =>
        notMem_of_isIdentifier hid ?_⟩
      have hall : [']', ')', '='].all (!isIdentifierContinue ·) = true := by decide
      simpa using List.all_eq_true.mp hall c hc
  have hbracket : n.toList.getLast? ≠ some ']' :=
    fun hlast => hother ']' (by simp) (List.mem_of_getLast? hlast)
  have hmapping : mappingInner? n.toList = none := by
    rw [mappingInner?, if_neg]
    rw [Bool.and_eq_true, beq_iff_eq]
    exact fun hparen => hother ')' (by simp) (List.mem_of_getLast? hparen.2)
  refine ⟨isTypeChars_iff.mpr ⟨by rwa [htrim], n.toList, ?_, .inr ⟨hmapping, ?_⟩⟩,
    hother '=' (by simp)⟩
  · rw [htrim, stripArrays_of_getLast? hbracket]
  · rwa [String.ofList_toList]

/-- **A text that has a form is read as a type.** -/
theorem isTypeChars_of_form (h : HasForm (fun n => isPlainType n declared = true) m cs) :
    isTypeChars cs declared = true := by
  induction h with
  | atom hn => exact (isTypeChars_plain hdeclared hn).1
  | array _ hlength ih => exact isTypeChars_array hlength ih
  | mapping hkey _ ihKey ihValue =>
    exact isTypeChars_mapping (hkey.notMem_equals fun n hn => (isTypeChars_plain hdeclared hn).2)
      ihKey ihValue
  | padded hfront hback _ ih => exact isTypeChars_padded hfront hback ih

end

/-! ### The types of the language -/

/-- A form that is an identifier is an atom. -/
theorem HasForm.isAtom {n : String} (h : HasForm A m n.toList) (hid : isIdentifier n = true) :
    A n := by
  generalize hn : n.toList = cs at h
  have hnone : ∀ c ∈ cs, isIdentifierContinue c = true := hn ▸ isIdentifierContinue_of_mem hid
  -- An identifier has no brackets and no white space, so neither has its form.
  induction h with
  | atom ha => exact String.toList_inj.mp hn ▸ ha
  | array => exact absurd (hnone '[' (by simp)) (by decide)
  | mapping => exact absurd (hnone '(' (by simp)) (by decide)
  | @padded _ front cs back hfront hback _ ih =>
    have hnil : ∀ {blanks : List Char}, (∀ c ∈ blanks, isBlank c = true) →
        (∀ c ∈ blanks, isIdentifierContinue c = true) → blanks = [] := by
      intro blanks hblank hcontinue
      refine List.eq_nil_iff_forall_not_mem.mpr fun c hc => ?_
      have hboth := isBlank_of_isIdentifierContinue (hcontinue c hc)
      rw [hblank c hc] at hboth
      cases hboth
    obtain rfl := hnil hfront fun c hc => hnone c (by simp [hc])
    obtain rfl := hnil hback fun c hc => hnone c (by simp [hc])
    rw [List.nil_append, List.append_nil] at hn hnone
    exact ih hn hnone

/-- A type stays one if the names of its words that were declared are still declared. -/
theorem isType_of_words {s : String} {declared known : String → Bool}
    (hdeclared : ∀ n, declared n = true → isIdentifier n = true)
    (hknown : ∀ n, known n = true → isIdentifier n = true)
    (hwords : ∀ n ∈ identifiers s, declared n = true → known n = true)
    (h : isType s declared = true) : isType s known = true := by
  obtain ⟨m, hform⟩ := exists_form_of_isTypeChars h
  refine isTypeChars_of_form hknown (hform.imp_of_words fun n hn hword => ?_)
  rw [isPlainType_iff] at hn ⊢
  refine hn.imp_right (Or.imp_left fun hname => ?_)
  have hid := hdeclared n hname
  exact hwords n (mem_identifiers.mpr ⟨hid, hword hid⟩) hname

/-- **Which texts are types.** These are the texts of forms whose atoms are elementary
types, declared names or stray words.  All those without stray words are among them,
and a text whose stray words are all declared has no others. -/
theorem isType_iff_hasForm {declared : String → Bool}
    (hdeclared : ∀ n, declared n = true → isIdentifier n = true) (s : String) :
    (isType s declared = true ↔
      ∃ m, HasForm (fun n => IsElementary n ∨ declared n = true ∨ IsStray n) m s.toList) ∧
    (∀ m, HasForm (fun n => IsElementary n ∨ declared n = true) m s.toList →
      isType s declared = true) ∧
    ((∀ n ∈ identifiers s, IsStray n → declared n = true) → (isType s declared = true ↔
      ∃ m, HasForm (fun n => IsElementary n ∨ declared n = true) m s.toList)) := by
  have hstrict : ∀ m, HasForm (fun n => IsElementary n ∨ declared n = true) m s.toList →
      isType s declared = true := by
    intro m h
    refine isTypeChars_of_form hdeclared (h.imp fun n hn => isPlainType_iff.mpr ?_)
    exact hn.imp_right .inl
  refine ⟨⟨fun h => ?_, fun ⟨m, h⟩ => ?_⟩, hstrict,
    fun hstray => ⟨fun h => ?_, fun ⟨m, h⟩ => hstrict m h⟩⟩
  · obtain ⟨m, hform⟩ := exists_form_of_isTypeChars h
    exact ⟨m, hform.imp fun n => isPlainType_iff.mp⟩
  · exact isTypeChars_of_form hdeclared (h.imp fun n => isPlainType_iff.mpr)
  · obtain ⟨m, hform⟩ := exists_form_of_isTypeChars h
    refine ⟨m, hform.imp_of_words fun n hn hword => ?_⟩
    rcases isPlainType_iff.mp hn with helementary | hname | hn
    · exact .inl helementary
    · exact .inr hname
    · have hid : isIdentifier n = true := hn.2.1
      exact .inr (hstray n (mem_identifiers.mpr ⟨hid, hword hid⟩) hn)

/-- A mapping to an array of a declared type. -/
theorem mapping_to_points : isType "mapping(address => Point[2])" (· == "Point") = true := by
  have haddress : IsElementary "address" := .inl (by simp)
  have hlength : IsLength ['2'] := ⟨[], ['2'], [], rfl, by simp, by simp [isAsciiDigit], by simp⟩
  have hblank : ∀ c ∈ [' '], isBlank c = true := by simp [isBlank]
  have hkey : HasForm (fun n => IsElementary n ∨ (n == "Point") = true) false
      ([] ++ ("address".toList ++ [' '])) := .padded (by simp) hblank (.atom (.inl haddress))
  have hvalue : HasForm (fun n => IsElementary n ∨ (n == "Point") = true) false
      ([' '] ++ (("Point".toList ++ '[' :: (['2'] ++ [']'])) ++ [])) :=
    .padded hblank (by simp) (.array (.atom (.inr rfl)) hlength)
  refine (isType_iff_hasForm (fun n hn => ?_) "mapping(address => Point[2])").2.1 true ?_
  · obtain rfl : n = "Point" := by simpa using hn
    decide
  · exact .mapping hkey hvalue

/-- A word that is no type of the language is read as one, since its first letters
are those of a type. -/
theorem underscored_is_type : isType "_uint7" (fun _ => false) = true ∧
    ¬ ∃ m, HasForm (fun n => IsElementary n ∨ (fun _ => false) n = true) m "_uint7".toList := by
  refine ⟨by decide +kernel, ?_⟩
  rintro ⟨m, h⟩
  rcases h.isAtom (by decide) with helementary | hfalse
  · have hhead : ∀ (stem : String) (k : Nat), stem.toList.head? ≠ some '_' → stem.toList ≠ [] →
        "_uint7" ≠ stem ++ toString k := by
      intro stem k hstem hne heq
      refine hstem ?_
      rw [← List.head?_append_of_ne_nil _ hne, ← toList_sized, ← heq]
      rfl
    rcases helementary with hlist | ⟨bits, -, -, -, hbits | hbits⟩ | ⟨size, -, -, hsize⟩
    · simp at hlist
    · exact hhead "uint" bits (by decide) (by decide) hbits
    · exact hhead "int" bits (by decide) (by decide) hbits
    · exact hhead "bytes" size (by decide) (by decide) hsize
  · cases hfalse

end SolidityCanvas.Solidity
