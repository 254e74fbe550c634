/-
Declared types in the interface, written out.

A type that names a record stands for the types of its fields, and so on, down to
types that have a form of their own.

* `marshal_cases`: what one level of a form is;
* `exists_marshal_iff`: a type has a form exactly if no path from it, from a record to a
  field at each step, is too long or ends at a type without a form;
* `isExpansion_of_marshal`: a form has a component for each field, and the words in it
  are no names of declared types and no short names;
* `UserTypes.FieldPath.not_marshal`: so a record that contains itself has no form.
-/
import SolidityCanvas.Proofs.Contract.Interface
import SolidityCanvas.Proofs.Solidity.Declaration

namespace SolidityCanvas

open Solidity Text

/-! ### Array brackets -/

theorem trimChars_splitArray (type : String) :
    trimChars (splitArray type).1.toList = (splitArray type).1.toList := by
  rw [splitArray]
  dsimp only
  split <;> simp [trim]

/-- A type without brackets is cut where they begin. -/
theorem notMem_splitArray {type : String} (h : hasPrefix (splitArray type).1 "mapping(" = false) :
    '[' ∉ (splitArray type).1.toList := by
  intro hmem
  rw [splitArray] at h hmem
  dsimp only at h hmem
  split at h
  · rename_i hcond
    rw [if_pos hcond] at hmem
    rw [Bool.or_eq_true, Bool.not_eq_true', h] at hcond
    simp [hmem] at hcond
  · rename_i hcond
    rw [if_neg hcond] at hmem
    obtain ⟨front, back, hparts, -, -⟩ := exists_trimChars
      ((trim type).toList.takeWhile (· != '['))
    have hbase : '[' ∈ (trim type).toList.takeWhile (· != '[') := by
      rw [hparts]
      simp only [trim, String.toList_ofList] at hmem
      simp [trim, hmem]
    simpa using List.mem_takeWhile_imp hbase

/-- The text from its first bracket on, without spaces. -/
theorem exists_filter_dropWhile {t : List Char} (hmem : '[' ∈ t)
    (hlast : ∀ c ∈ t.getLast?, isBlank c = false) :
    ∃ cs, (t.dropWhile (· != '[')).filter (· != ' ') = '[' :: cs ∧
      (∀ c ∈ '[' :: cs, c ≠ ' ') ∧ ∀ c ∈ ('[' :: cs).getLast?, isBlank c = false := by
  obtain ⟨d, rest, hdrop⟩ : ∃ d rest, t.dropWhile (· != '[') = d :: rest := by
    refine List.exists_cons_of_ne_nil fun hnil => ?_
    have hall := List.dropWhile_eq_nil_iff.mp hnil '[' hmem
    simp at hall
  obtain rfl : d = '[' := by
    have hhead := List.head?_dropWhile_not (· != '[') t
    rw [hdrop] at hhead
    simpa using hhead
  refine ⟨rest.filter (· != ' '), by rw [hdrop]; rfl, by simp, fun c hc => ?_⟩
  -- the last character is no space and stays
  have hparts : t = t.takeWhile (· != '[') ++ '[' :: rest := by
    rw [← hdrop, List.takeWhile_append_dropWhile]
  rw [hparts, List.getLast?_append, List.getLast?_cons] at hlast
  rcases List.eq_nil_or_concat' rest with rfl | ⟨front, e, rfl⟩
  · obtain rfl : '[' = c := by simpa using hc
    rfl
  · have he : isBlank e = false := hlast e (by simp)
    have hspace : (e != ' ') = true := by
      rw [bne_iff_ne]
      rintro rfl
      cases he
    rw [List.filter_append, List.filter_singleton, hspace, cond_true, ← List.cons_append,
      List.getLast?_concat] at hc
    exact Option.some.inj hc ▸ he

/-- Brackets begin with one, hold no spaces and do not end with white space. -/
theorem splitArray_brackets (type : String) : (splitArray type).2 = "" ∨
    ∃ cs, (splitArray type).2.toList = '[' :: cs ∧ (∀ c ∈ '[' :: cs, c ≠ ' ') ∧
      ∀ c ∈ ('[' :: cs).getLast?, isBlank c = false := by
  rw [splitArray]
  dsimp only
  split
  · exact .inl rfl
  rename_i hcond
  simp only [Bool.or_eq_true, Bool.not_eq_true', not_or, List.contains_iff_mem,
    Bool.not_eq_false] at hcond
  refine .inr ?_
  rw [String.toList_ofList]
  exact exists_filter_dropWhile hcond.2 (by
    rw [trim, String.toList_ofList]
    exact getLast?_trimChars _)

/-- A word with the brackets of a type after it is cut at these. -/
theorem splitArray_append {word : String} (h : isIdentifier word = true) (type : String) :
    splitArray (word ++ (splitArray type).2) = (word, (splitArray type).2) := by
  have hword := isWord_of_isIdentifier h
  have hbracket : '[' ∉ word.toList := notMem_of_isIdentifier h rfl
  have hopen : '(' ∉ word.toList := notMem_of_isIdentifier h rfl
  have hself : trimChars word.toList = word.toList :=
    trimChars_eq_self (fun c hc => hword.2 c (List.mem_of_head? hc))
      fun c hc => hword.2 c (List.mem_of_getLast? hc)
  have hbrackets := splitArray_brackets type
  generalize (splitArray type).2 = brackets at hbrackets ⊢
  rcases hbrackets with rfl | ⟨cs, hcs, hspaces, hlast⟩
  · rw [String.append_empty, splitArray]
    simp [trim, hself, hbracket]
  · have htrim : (trim (word ++ brackets)).toList = word.toList ++ '[' :: cs := by
      rw [trim, String.toList_ofList, String.toList_append, hcs]
      refine trimChars_eq_self (fun c hc => ?_) fun c hc => hlast c ?_
      · obtain ⟨d, rest, hd⟩ := List.exists_cons_of_ne_nil hword.1
        rw [hd] at hc
        exact hword.2 c (by rw [hd]; exact List.mem_of_head? hc)
      · rwa [List.getLast?_append_of_ne_nil _ (by simp)] at hc
    have hmapping : ¬hasPrefix (trim (word ++ brackets)) "mapping(" = true := by
      rw [hasPrefix, htrim, List.isPrefixOf_iff_prefix, prefix_append_iff (by simp)]
      exact fun hmapping => hopen (hmapping.subset (by decide))
    have hnot : ∀ c ∈ word.toList, (c != '[') = true := fun c hc =>
      bne_iff_ne.mpr (ne_of_notMem hbracket c hc)
    rw [splitArray]
    dsimp only
    rw [if_neg (by simp [hmapping, htrim]), htrim, List.takeWhile_append_of_pos hnot,
      List.dropWhile_append_of_pos hnot, List.takeWhile_cons_of_neg (by simp),
      List.dropWhile_cons_of_neg (by simp), List.append_nil,
      List.filter_eq_self.mpr fun c hc => bne_iff_ne.mpr (hspaces c hc), ← hcs, trim,
      String.toList_ofList, hself, String.ofList_toList, String.ofList_toList]

/-! ### Words of a form -/

/-- The short names of types. -/
def shortNames : List String := ["uint", "int", "byte", "address payable"]

theorem fullTypeName_notMem (s : String) : fullTypeName s ∉ shortNames := by
  rw [fullTypeName.eq_def]
  split
  · decide
  · decide
  · decide
  · decide
  · simp_all [shortNames]

theorem fullTypeName_of_notMem {s : String} (h : s ∉ shortNames) : fullTypeName s = s := by
  rw [fullTypeName.eq_def]
  split <;> simp_all [shortNames]

/-- The full name of a type that has a form of its own is an identifier. -/
theorem isIdentifier_fullTypeName {type : String}
    (hmapping : hasPrefix (splitArray type).1 "mapping(" = false)
    (h : isType (fullTypeName (splitArray type).1) (fun _ => false) = true) :
    isIdentifier (fullTypeName (splitArray type).1) = true := by
  by_cases hshort : (splitArray type).1 ∈ shortNames
  · exact (by decide : ∀ s ∈ shortNames, isIdentifier (fullTypeName s) = true) _ hshort
  have hfull := fullTypeName_notMem (splitArray type).1
  rw [fullTypeName_of_notMem hshort] at h ⊢
  obtain ⟨base, suffix, htrim, hsuffix, hbase⟩ := isTypeChars_cases h
  rw [trimChars_splitArray] at htrim
  -- no brackets are left
  obtain rfl : suffix = [] := by
    have hbracket := notMem_splitArray hmapping
    cases hsuffix with
    | nil => rfl
    | cons _ _ _ => exact absurd (by rw [htrim]; simp) hbracket
  rw [List.append_nil] at htrim
  rcases hbase with hplain | ⟨key, value, hbase, -, -⟩
  · rw [← htrim, String.ofList_toList] at hplain
    refine (eq_or_isIdentifier_of_isPlainType (fun n hn => by cases hn) hplain).resolve_left ?_
    rintro heq
    exact hshort (by rw [heq]; decide)
  · rw [hasPrefix, htrim, hbase] at hmapping
    simp at hmapping

namespace UserTypes

variable {u : UserTypes} {type name : String}

/-- The fields of the record that a type names, with array brackets or without. A mapping
and an enumeration come first. -/
def record? (u : UserTypes) (type : String) : Option (List String) :=
  let base := (splitArray type).1
  if hasPrefix base "mapping(" || u.isEnum base then none else u.fields? base

/-- Whether a type that names no record has a form: an enumeration, or what is a type
without any declaration. -/
def Encodes (u : UserTypes) (type : String) : Prop :=
  let base := (splitArray type).1
  hasPrefix base "mapping(" = false ∧
    (u.isEnum base = true ∨ isType (fullTypeName base) (fun _ => false) = true)

/-- Whether a name is that of an enumeration or a record. -/
def Declares (u : UserTypes) (name : String) : Prop :=
  u.isEnum name = true ∨ ∃ fields, u.fields? name = some fields

/-- The word stands for a type: the brackets after it are those of the type, it is no short
name, and it is no declared name unless it stands for all records, for all enumerations or
for a short name. -/
structure Stands (u : UserTypes) (type word : String) : Prop where
  parts : splitArray (word ++ (splitArray type).2) = (word, (splitArray type).2)
  full : word ∉ shortNames
  own : u.Declares word → word = "tuple" ∨ word = "uint8" ∨
    ∃ s ∈ shortNames, (splitArray type).1 = s ∧ word = fullTypeName s

/-- One level of a form. -/
theorem marshal_cases (u : UserTypes) (levels : Nat) (name type : String) :
    (∃ fields, u.record? type = some fields ∧ u.Stands type "tuple" ∧
      marshal u (levels + 1) name type = do
        let components ← fields.mapM fun f =>
          marshal u levels (Parameter.read f).name (Parameter.read f).type
        return .mk name ("tuple" ++ (splitArray type).2) ("struct " ++ type) components false) ∨
    (u.record? type = none ∧ u.Encodes type ∧ ∃ word internalType, u.Stands type word ∧
      marshal u (levels + 1) name type =
        .ok (.mk name (word ++ (splitArray type).2) internalType [] false)) ∨
    (u.record? type = none ∧ ¬u.Encodes type ∧ ∃ f, marshal u (levels + 1) name type = .error f) := by
  have hintroduced : ∀ {word}, isIdentifier word = true → word ∉ shortNames →
      (word = "tuple" ∨ word = "uint8") → u.Stands type word := fun hid hnot hword =>
    ⟨splitArray_append hid type, hnot, fun _ => hword.imp_right .inl⟩
  cases hmapping : hasPrefix (splitArray type).1 "mapping(" with
  | true =>
    refine .inr (.inr ⟨by simp [record?, hmapping], fun h => ?_, .mapping, ?_⟩)
    · exact Bool.false_ne_true (h.1.symm.trans hmapping)
    · simp [marshal, hmapping]
  | false =>
    cases henum : u.isEnum (splitArray type).1 with
    | true =>
      exact .inr (.inl ⟨by simp [record?, henum], ⟨hmapping, .inl henum⟩, "uint8", "enum " ++ type,
        hintroduced (by decide) (by decide) (.inr rfl), by simp [marshal, hmapping, henum]⟩)
    | false =>
      cases hfields : u.fields? (splitArray type).1 with
      | some fields =>
        exact .inl ⟨fields, by simp [record?, hmapping, henum, hfields],
          hintroduced (by decide) (by decide) (.inl rfl), by simp [marshal, hmapping, henum, hfields]⟩
      | none =>
        have hrecord : u.record? type = none := by simp [record?, hfields]
        cases htype : isType (fullTypeName (splitArray type).1) fun _ => false with
        | false =>
          refine .inr (.inr ⟨hrecord, ?_, .noEncoding type, ?_⟩)
          · rintro ⟨-, h | h⟩
            · exact Bool.false_ne_true (henum.symm.trans h)
            · exact Bool.false_ne_true (htype.symm.trans h)
          · simp [marshal, hmapping, henum, hfields, htype]
        | true =>
          refine .inr (.inl ⟨hrecord, ⟨hmapping, .inr htype⟩, fullTypeName (splitArray type).1, "",
            ⟨splitArray_append (isIdentifier_fullTypeName hmapping htype) type,
              fullTypeName_notMem _, fun hdeclared => ?_⟩,
            by simp [marshal, hmapping, henum, hfields, htype]⟩)
          -- a declared name would have been found, unless it was short
          by_cases hshort : (splitArray type).1 ∈ shortNames
          · exact .inr (.inr ⟨_, hshort, rfl, rfl⟩)
          · rw [fullTypeName_of_notMem hshort, Declares, henum, hfields] at hdeclared
            simp at hdeclared

/-! ### Paths through the fields -/

/-- The second type is reached from the first by a number of steps, each from a record to
the type of one of its fields. -/
inductive FieldPath (u : UserTypes) : Nat → String → String → Prop
  | refl (t : String) : FieldPath u 0 t t
  | step {n : Nat} {t t' f : String} {fields : List String} (hfields : u.record? t = some fields)
      (hf : f ∈ fields) (h : FieldPath u n (Parameter.read f).type t') : FieldPath u (n + 1) t t'

/-- **Which types have a form.**  By induction on the levels that are left: a record has a
form if its fields do with one level less. -/
theorem exists_marshal_iff {levels : Nat} : (∃ a, marshal u levels name type = .ok a) ↔
    ∀ n t, u.FieldPath n type t → n < levels ∧ (u.record? t = none → u.Encodes t) := by
  induction levels generalizing name type with
  | zero =>
    refine iff_of_false (fun ⟨a, h⟩ => by cases h) fun h => ?_
    exact absurd (h 0 type (.refl type)).1 (Nat.lt_irrefl 0)
  | succ levels ih =>
    rcases marshal_cases u levels name type with ⟨fields, hrecord, -, hmarshal⟩ |
      ⟨hrecord, hencodes, word, internalType, -, hmarshal⟩ | ⟨hrecord, hnot, f, hmarshal⟩
    · have hfields : (∃ a, marshal u (levels + 1) name type = .ok a) ↔ ∀ f ∈ fields, ∃ a,
          marshal u levels (Parameter.read f).name (Parameter.read f).type = .ok a := by
        rw [hmarshal]
        constructor
        · rintro ⟨a, h⟩ f hf
          obtain ⟨components, hcomponents, -⟩ := except_bind_eq_ok.mp h
          obtain ⟨c, -, hc⟩ := exists_mem_of_forall₂ (mapM_eq_ok_iff.mp hcomponents).flip f hf
          exact ⟨c, hc⟩
        · intro h
          obtain ⟨components, hcomponents⟩ := exists_mapM_ok h
          exact ⟨_, except_bind_eq_ok.mpr ⟨components, hcomponents, rfl⟩⟩
      rw [hfields]
      constructor
      · rintro h n t (_ | ⟨hstep, hf, hpath⟩)
        · exact ⟨Nat.succ_pos levels, fun hnone => by rw [hrecord] at hnone; cases hnone⟩
        · obtain rfl := Option.some.inj (hrecord.symm.trans hstep)
          obtain ⟨hn, ht⟩ := ih.mp (h _ hf) _ _ hpath
          exact ⟨Nat.succ_lt_succ hn, ht⟩
      · refine fun h f hf => ih.mpr fun n t hpath => ?_
        obtain ⟨hn, ht⟩ := h (n + 1) t (.step hrecord hf hpath)
        exact ⟨Nat.lt_of_succ_lt_succ hn, ht⟩
    · refine iff_of_true ⟨_, hmarshal⟩ ?_
      rintro n t (_ | ⟨hstep, -, -⟩)
      · exact ⟨Nat.succ_pos levels, fun _ => hencodes⟩
      · rw [hrecord] at hstep
        cases hstep
    · refine iff_of_false ?_ fun h => hnot ((h 0 type (.refl type)).2 hrecord)
      rintro ⟨a, h⟩
      rw [hmarshal] at h
      cases h

namespace FieldPath

variable {n m : Nat} {t t' : String}

theorem trans (h : u.FieldPath n type t) (h' : u.FieldPath m t t') :
    u.FieldPath (m + n) type t' := by
  induction h with
  | refl => exact h'
  | step hfields hf _ ih => exact .step hfields hf (ih h')

/-- Brackets do not matter where a path begins. -/
theorem of_splitArray (h : u.FieldPath (n + 1) t t')
    (hbase : (splitArray type).1 = (splitArray t).1) : u.FieldPath (n + 1) type t' := by
  cases h with
  | step hfields hf h => exact .step (by rw [record?, hbase]; exact hfields) hf h

/-- A path from a type to itself can be taken many times. -/
theorem iterate (h : u.FieldPath n t t) (k : Nat) : u.FieldPath (n * k) t t := by
  induction k with
  | zero => exact .refl t
  | succ k ih => exact h.trans ih

/-- **A record that contains itself has no form**, and neither has a type from which it is
reached: there are paths of any length. -/
theorem not_marshal (h : u.FieldPath n type t) (hcycle : u.FieldPath (m + 1) t t')
    (hbase : (splitArray t').1 = (splitArray t).1) (levels : Nat) (name : String) :
    ¬∃ a, marshal u levels name type = .ok a := by
  rw [exists_marshal_iff]
  intro hall
  have hagain : u.FieldPath (m + 1) t' t' := hcycle.of_splitArray hbase
  have hlong := (hall _ _ ((h.trans hcycle).trans (hagain.iterate levels))).1
  have hle : 1 * levels ≤ (m + 1) * levels := Nat.mul_le_mul_right levels (Nat.le_add_left 1 m)
  omega

end FieldPath

/-! ### Forms -/

/-- The form of a type: the word and the brackets of the type, and of a record the forms of
the types of its fields, in their order. -/
inductive IsExpansion (u : UserTypes) : String → String → AbiArgument → Prop
  | node {name type word internalType : String} {components : List AbiArgument}
      (hword : u.Stands type word)
      (hcomponents : List.Forall₂
        (fun f c => u.IsExpansion (Parameter.read f).name (Parameter.read f).type c)
        ((u.record? type).getD []) components) :
      u.IsExpansion name type
        (.mk name (word ++ (splitArray type).2) internalType components false)

theorem isExpansion_of_marshal {levels : Nat} {a : AbiArgument}
    (h : marshal u levels name type = .ok a) : u.IsExpansion name type a := by
  induction levels generalizing name type a with
  | zero => cases h
  | succ levels ih =>
    rcases marshal_cases u levels name type with ⟨fields, hrecord, hword, hmarshal⟩ |
      ⟨hrecord, -, word, internalType, hword, hmarshal⟩ | ⟨-, -, f, hmarshal⟩
    · rw [hmarshal] at h
      obtain ⟨components, hcomponents, h⟩ := except_bind_eq_ok.mp h
      obtain rfl := Except.ok.inj h
      refine .node hword ?_
      rw [hrecord]
      exact (mapM_eq_ok_iff.mp hcomponents).imp fun f c hc => ih hc
    · obtain rfl := Except.ok.inj (hmarshal.symm.trans h)
      exact .node hword (by rw [hrecord]; exact .nil)
    · cases hmarshal.symm.trans h

/-- **Declared types are written out fully or not at all.** -/
theorem types_expand_fully (u : UserTypes) (name type : String) :
    ((∃ a, marshal u (maxNesting + 1) name type = .ok a) ↔ ∀ n t, u.FieldPath n type t →
      n ≤ maxNesting ∧ (u.record? t = none → u.Encodes t)) ∧
    (∀ a, marshal u (maxNesting + 1) name type = .ok a → u.IsExpansion name type a) ∧
    ∀ n t m t', u.FieldPath n type t → u.FieldPath (m + 1) t t' →
      (splitArray t').1 = (splitArray t).1 →
        ∀ (e : Entry) (d : String), d ∈ e.parameters ++ e.returned →
          (Parameter.read d).type = type → e.isExportable u = false := by
  refine ⟨?_, fun a => isExpansion_of_marshal, ?_⟩
  · simp only [exists_marshal_iff, Nat.lt_succ_iff]
  · rintro n t m t' hpath hcycle hbase e d hd rfl
    rw [Entry.isExportable, Bool.eq_false_iff, Ne, List.all_eq_true]
    intro hexportable
    have hok := hexportable d hd
    cases hp : marshalParameter u e.isEvent d with
    | error f =>
      rw [hp] at hok
      cases hok
    | ok p =>
      obtain ⟨argument, hargument, -⟩ := except_bind_eq_ok.mp hp
      exact hpath.not_marshal hcycle hbase _ _ ⟨argument, hargument⟩

/-- Drawings, in which a shape holds shapes. -/
def drawing : UserTypes where
  enums := ["Color"]
  structs := [("Line", ["Point[2] ends", "Color color"]), ("Point", ["uint x", "int8[] ys"]),
    ("Shape", ["Line[] lines", "Shape[] parts"])]

/-- Something with one parameter. -/
def taking (declaration : String) : Entry where
  component := {
    (default : Component) with
    properties := ⟨[("params", .list .string [.string declaration])]⟩ }

theorem drawing_expands : (∃ a, marshal drawing (maxNesting + 1) "lines" "Line[]" = .ok a ∧
      drawing.IsExpansion "lines" "Line[]" a) ∧
    (taking "Shape[2] shapes").isExportable drawing = false := by
  constructor
  · obtain ⟨hiff, hexpansion, -⟩ := types_expand_fully drawing "lines" "Line[]"
    have hok : (marshal drawing (maxNesting + 1) "lines" "Line[]").isOk = true := by decide +kernel
    cases h : marshal drawing (maxNesting + 1) "lines" "Line[]" with
    | ok a => exact ⟨a, rfl, hexpansion a h⟩
    | error f =>
      rw [h] at hok
      cases hok
  · have hread : (Parameter.read "Shape[] parts").type = "Shape[]" := by decide
    have hfields : drawing.record? "Shape[2]" = some ["Line[] lines", "Shape[] parts"] := by
      decide
    have hpath : drawing.FieldPath 1 "Shape[2]" "Shape[]" := by
      refine .step hfields (f := "Shape[] parts") (by decide) ?_
      rw [hread]
      exact .refl _
    exact (types_expand_fully drawing "shapes" "Shape[2]").2.2 0 _ 0 _ (.refl _) hpath
      (by decide +kernel) _ "Shape[2] shapes" (by decide) (by decide)

/-- An enumeration whose name begins as a mapping does is not found, and the full name of a
type can be a declared name. -/
theorem declared_names_not_found :
    (UserTypes.isEnum ⟨["mapping(x)"], []⟩ "mapping(x)" = true ∧
      marshal ⟨["mapping(x)"], []⟩ (maxNesting + 1) "y" "mapping(x)" = .error .mapping) ∧
    UserTypes.isEnum ⟨["uint256"], []⟩ "uint256" = true ∧
      marshal ⟨["uint256"], []⟩ (maxNesting + 1) "y" "uint" =
        .ok (.mk "y" "uint256" "" [] false) := by
  refine ⟨⟨rfl, rfl⟩, rfl, ?_⟩
  have hparts : splitArray "uint" = ("uint", "") := rfl
  have htype : isType "uint256" (fun _ => false) = true := by decide +kernel
  have henum : UserTypes.isEnum ⟨["uint256"], []⟩ "uint" = false := rfl
  have hmapping : hasPrefix "uint" "mapping(" = false := rfl
  simp [marshal, hparts, hmapping, henum, fields?, fullTypeName, htype]

end UserTypes

end SolidityCanvas
