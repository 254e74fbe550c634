/-
Outcomes of compilations that are written and read back.

For each record of an outcome, what is read from its written form after it was
carried over: the record itself, with the only number in it read anew
(`CompileResult.reread?`).
-/
import SolidityCanvas.Proofs.Json.Carried
import SolidityCanvas.Proofs.Number.Spelling

namespace SolidityCanvas

open Json (Carries CarriesItems CarriesMembers Shows)

open Solidity

variable {f : String → Option String} {P : String → Prop} {j : Json}

/-! ### Headers and findings -/

theorem Header.read_carried (h : Header) (hc : Carries f h.toJson j) : Header.read {} j = some h := by
  obtain ⟨out, hout, rfl⟩ := Json.carries_object.mp hc
  simp only [Header.read,
    Json.readField_text "contractName" h.contractName hout (by simp +decide),
    Json.readField_text "license" h.license hout (by simp +decide),
    Json.readField_text "pragma" h.pragma hout (by simp +decide),
    Option.bind_eq_bind, Option.bind_some, Option.pure_def]

theorem Header.regular_toJson (h : Header) : h.toJson.Regular P := by
  refine .object ?_ ?_
  · have hnames : ["contractName", "license", "pragma"].Nodup := by decide
    refine hnames.sublist ?_
    simp only [List.map_append]
    exact ((Json.sublist_textMember _ _).append (Json.sublist_textMember _ _)).append
      (Json.sublist_textMember _ _)
  · simp only [List.forall_mem_append, Json.forall_mem_textMember, Json.regular_string, implies_true,
      and_self]

theorem Diagnostic.read_carried (d : Diagnostic) (hc : Carries f d.toJson j) :
    Diagnostic.read Diagnostic.blank j = some d := by
  obtain ⟨out, hout, rfl⟩ := Json.carries_object.mp hc
  simp only [Diagnostic.read, Diagnostic.blank,
    Json.readField_string "severity" d.severity.text hout (by simp +decide),
    Json.readField_string "kind" d.kind.text hout (by simp +decide),
    Json.readField_string "code" d.code hout (by simp +decide),
    Json.readField_text "instanceId" d.instanceId hout (by simp +decide),
    Json.readField_text "propertyName" d.property hout (by simp +decide),
    Json.readField_string "message" d.message hout (by simp +decide),
    Json.readField_texts "related" d.related hout (by simp +decide),
    Option.bind_eq_bind, Option.bind_some, Option.pure_def]

theorem regular_ofStrings (ss : List String) : (Json.ofStrings ss).Regular P := by
  simp [Json.ofStrings]

theorem Diagnostic.regular_toJson (d : Diagnostic) : d.toJson.Regular P := by
  refine .object ?_ ?_
  · have hnames : ["severity", "kind", "code", "instanceId", "propertyName", "message",
        "related"].Nodup := by decide
    refine hnames.sublist ?_
    simp only [List.map_append]
    exact ((((List.Sublist.refl _).append (Json.sublist_textMember _ _)).append
      (Json.sublist_textMember _ _)).append (List.Sublist.refl _)).append
        (Json.sublist_textsMember _ _)
  · simp only [List.forall_mem_append, List.forall_mem_cons, Json.forall_mem_textMember,
      Json.forall_mem_textsMember, Json.regular_string, regular_ofStrings, implies_true, and_self,
      List.not_mem_nil, false_implies]

/-! ### Documents -/

theorem bytesOfHex?_digits (bs : List UInt8) :
    bytesOfHex? (bs.flatMap fun b => Text.hexPadded 2 b.toNat) = some bs := by
  have hdigit : ∀ k < 16, Text.isHexDigit (Text.hexDigit k) ∧
      Text.hexDigitValue (Text.hexDigit k) = k := by decide
  induction bs with
  | nil => rfl
  | cons x bs ih =>
    obtain ⟨hhigh, hhighValue⟩ := hdigit (x.toNat / 16 % 16) (Nat.mod_lt _ (by decide))
    obtain ⟨hlow, hlowValue⟩ := hdigit (x.toNat % 16) (Nat.mod_lt _ (by decide))
    have hx := x.toNat_lt
    have hbyte : x.toNat / 16 % 16 * 16 + x.toNat % 16 = x.toNat := by omega
    have hpair : Text.hexPadded 2 x.toNat =
        [Text.hexDigit (x.toNat / 16 % 16), Text.hexDigit (x.toNat % 16)] := rfl
    simp [hpair, bytesOfHex?, hhigh, hhighValue, hlow, hlowValue, hbyte, ih]

theorem digestOfText?_hexText {bs : List UInt8} (h : bs.length = 32) :
    digestOfText? (hexText bs) = some bs := by
  have hlist : (hexText bs).toList = '0' :: 'x' :: bs.flatMap fun b => Text.hexPadded 2 b.toNat := by
    simp [hexText]
  have hlength : (bs.flatMap fun b => Text.hexPadded 2 b.toNat).length = 64 := by
    simp [List.length_flatMap, Text.hexPadded, h]
  simp [digestOfText?, hlist, hlength, bytesOfHex?_digits]

/-- What a signed word is read as, after it was written anew by `f`. -/
def rereadInt? (f : String → Option String) (n : Int64) : Option Int64 :=
  (f (toString n.toInt)).bind fun t => Json.readInt 0 (.number t)

theorem readInt_wholeText (negative : Bool) (n : Nat) (old : Int64) :
    Json.readInt old (.number (wholeText negative n)) =
      if n < Json.signBit || (negative && n == Json.signBit) then
        some (Int64.ofInt (if negative then -n else n))
      else none := by
  have hdigits : Json.wholeNumber? (String.ofList (Nat.toDigits 10 n)) = some n := by
    rw [← Nat.toString_eq_ofList_toDigits, Json.wholeNumber?_toString]
  cases negative with
  | true => simp [Json.readInt, wholeText, hdigits]
  | false =>
    have hminus : ∀ rest, Nat.toDigits 10 n ≠ '-' :: rest := by
      intro rest h
      have hdigit := Text.isDigit_of_mem_toDigits (n := n) '-' (by rw [h]; simp)
      exact absurd hdigit (by decide)
    simp [Json.readInt, wholeText, hdigits]

theorem rereadInt?_some (n : Int64) : rereadInt? some n = some n := by
  have hle := n.le_toInt
  have hlt := n.toInt_lt
  have hsign : Json.signBit = 2 ^ 63 := rfl
  rw [rereadInt?, Option.bind_some, toString_int, readInt_wholeText, if_pos]
  · have habs : (if decide (n.toInt < 0) then -(n.toInt.natAbs : Int) else n.toInt.natAbs) =
        n.toInt := by
      by_cases h : n.toInt < 0 <;> simp only [h, decide_true, decide_false, if_true] <;> grind
    rw [habs, Int64.ofInt_toInt]
  · simp only [Bool.or_eq_true, Bool.and_eq_true, decide_eq_true_eq, beq_iff_eq]
    omega

namespace Document

variable {d : Document}

/-- What a document is read as, after its cost was written anew. -/
def reread? (f : String → Option String) (d : Document) : Option Document :=
  (rereadInt? f d.estimatedCost).map fun estimatedCost => { d with estimatedCost }

theorem read_carried (hhash : d.hash.length = 32) (hc : Carries f d.toJson j) :
    Document.read blank j = d.reread? f := by
  obtain ⟨out, hout, rfl⟩ := Json.carries_object.mp hc
  have hcost : Json.readField out "estimatedCost" Json.readInt 0 = rereadInt? f d.estimatedCost := by
    obtain ⟨k, hk, hfield⟩ := Json.exists_readField_eq hout
      (j := .number (toString d.estimatedCost.toInt))
      (by simp +decide : Json.fieldValues _ "estimatedCost" = _)
    obtain ⟨t, ht, rfl⟩ := Json.carries_number.mp hk
    rw [hfield, rereadInt?, ht, Option.bind_some]
  have hdigest : Json.readField out "hash" readDigest (List.replicate 32 0) = some d.hash := by
    refine Json.readField_of_one hout (j := .string (hexText d.hash)) (by simp +decide) fun k hk => ?_
    rw [Json.carries_string.mp hk, readDigest, digestOfText?_hexText hhash]
  simp only [Document.read, blank, hcost, hdigest,
    Json.readField_string "source" d.source hout (by simp +decide),
    Json.readField_texts "imports" d.imports hout (by simp +decide),
    Json.readField_texts "inherits" d.inherits hout (by simp +decide),
    Option.bind_eq_bind, Option.bind_some, Option.pure_def, reread?]
  cases rereadInt? f d.estimatedCost <;> rfl

theorem reread?_eq_self_iff :
    d.reread? f = some d ↔ rereadInt? f d.estimatedCost = some d.estimatedCost := by
  obtain ⟨source, imports, inherits, estimatedCost, hash⟩ := d
  simp [reread?]

theorem regular_toJson (h : P (toString d.estimatedCost.toInt)) : d.toJson.Regular P := by
  refine .object ?_ ?_
  · have hnames : ["source", "imports", "inherits", "estimatedCost", "hash"].Nodup := by decide
    refine hnames.sublist ?_
    simp only [List.map_append]
    exact (((List.Sublist.refl _).append (Json.sublist_textsMember _ _)).append
      (Json.sublist_textsMember _ _)).append (List.Sublist.refl _)
  · simp only [List.forall_mem_append, List.forall_mem_cons, Json.forall_mem_textsMember,
      Json.regular_string, Json.regular_number, regular_ofStrings, implies_true, and_self,
      List.not_mem_nil, false_implies, h]

end Document

/-! ### Arguments -/

theorem argumentsToJson_eq (as : List AbiArgument) :
    argumentsToJson as = as.map argumentToJson := by
  induction as with
  | nil => rfl
  | cons a as ih => rw [argumentsToJson, ih, List.map_cons]

/-- The members of a written argument. -/
def argumentMembers (a : AbiArgument) : List (String × Json) :=
  [("name", .string a.name), ("type", .string a.type)] ++
    Json.textMember "internalType" a.internalType ++
    (if a.components = [] then []
      else [("components", .array (a.components.map argumentToJson))]) ++
    Json.flagMember "indexed" a.indexed

theorem argumentToJson_eq (a : AbiArgument) : argumentToJson a = .object (argumentMembers a) := by
  obtain ⟨name, type, internalType, components, indexed⟩ := a
  rw [argumentToJson, argumentsToJson_eq]
  cases components <;> rfl

theorem readArgument_carried {n : Nat} : ∀ {a : AbiArgument} {j : Json},
    (argumentToJson a).depth ≤ n → Carries f (argumentToJson a) j →
      readArgument n blankArgument j = some a := by
  simp only [argumentToJson_eq]
  induction n with
  | zero =>
    intro a j hdepth _
    rw [Json.depth] at hdepth
    omega
  | succ n ih =>
    intro a j hdepth hc
    obtain ⟨out, hout, rfl⟩ := Json.carries_object.mp hc
    have hcomponents : Json.readField out "components"
        (Json.readList blankArgument (readArgument n)) [] = some a.components := by
      by_cases hempty : a.components = []
      · rw [Json.readField_of_none hout (by simp +decide [argumentMembers, hempty]), hempty]
      · have hvalues : Json.fieldValues (argumentMembers a) "components" =
            [.array (a.components.map argumentToJson)] := by
          simp +decide [argumentMembers, hempty]
        refine Json.readField_of_one hout hvalues fun k hk => ?_
        refine Json.readList_of_forall (fun b hb j hj => ?_) hk
        have hfield := Json.depth_lt_of_field "components" hvalues
        have hitem := Json.depth_lt_of_mem (List.mem_map_of_mem (f := argumentToJson) hb)
        rw [argumentToJson_eq] at hitem hj
        exact ih (by omega) hj
    rw [blankArgument]
    simp only [readArgument, AbiArgument.name, AbiArgument.type, AbiArgument.internalType,
      AbiArgument.components, AbiArgument.indexed, hcomponents,
      Json.readField_string "name" a.name hout (by simp +decide [argumentMembers]),
      Json.readField_string "type" a.type hout (by simp +decide [argumentMembers]),
      Json.readField_text "internalType" a.internalType hout (by simp +decide [argumentMembers]),
      Json.readField_flag "indexed" a.indexed hout (by simp +decide [argumentMembers]),
      Option.bind_eq_bind, Option.bind_some, Option.pure_def]
    cases a
    rfl

mutual

theorem regular_argumentToJson : ∀ a : AbiArgument, (argumentToJson a).Regular P
  | .mk name type internalType components indexed => by
    rw [argumentToJson_eq, argumentMembers]
    refine .object ?_ ?_
    · have hnames : ["name", "type", "internalType", "components", "indexed"].Nodup := by decide
      refine hnames.sublist ?_
      simp only [List.map_append]
      exact (((List.Sublist.refl _).append (Json.sublist_textMember _ _)).append
        (Json.sublist_ite _ _ _)).append (Json.sublist_flagMember _ _)
    · simp only [List.forall_mem_append, List.forall_mem_cons, Json.forall_mem_textMember,
        Json.forall_mem_ite_singleton, Json.forall_mem_flagMember, Json.regular_string,
        Json.regular_bool, Json.regular_array, List.forall_mem_map, implies_true, and_self,
        List.not_mem_nil, false_implies, and_true, true_and]
      exact fun _ => regular_argumentsToJson components

theorem regular_argumentsToJson : ∀ as : List AbiArgument, ∀ a ∈ as, (argumentToJson a).Regular P
  | [] => by simp
  | a :: as => by
    rw [List.forall_mem_cons]
    exact ⟨regular_argumentToJson a, regular_argumentsToJson as⟩

end

/-! ### Interfaces -/

namespace InterfaceEntry

variable {e : InterfaceEntry}

/-- The members of a written entry. -/
def members (e : InterfaceEntry) : List (String × Json) :=
  [("type", .string e.type)] ++ Json.textMember "name" e.name ++
    [("inputs", e.inputs.elim .null fun as => .array (as.map argumentToJson))] ++
    (if e.outputs = [] then [] else [("outputs", .array (e.outputs.map argumentToJson))]) ++
    Json.textMember "stateMutability" e.mutability ++ Json.flagMember "anonymous" e.anonymous

theorem toJson_eq (e : InterfaceEntry) : e.toJson = .object e.members := by
  rw [toJson, members, argumentsToJson_eq]
  cases e.inputs <;> simp [argumentsToJson_eq]

theorem read_carried (hdepth : e.toJson.depth ≤ Json.maxDepth) (hc : Carries f e.toJson j) :
    InterfaceEntry.read { type := "" } j = some e := by
  rw [toJson_eq] at hdepth hc
  obtain ⟨out, hout, rfl⟩ := Json.carries_object.mp hc
  -- an argument that stands in a field of the entry is read
  have hargument {field : String} {as : List AbiArgument} (hvalues : Json.fieldValues e.members field =
      [.array (as.map argumentToJson)]) : ∀ a ∈ as, ∀ j, Carries f (argumentToJson a) j →
        readArgument Json.maxDepth blankArgument j = some a := by
    intro a ha j hj
    have hfield := Json.depth_lt_of_field field hvalues
    have hitem := Json.depth_lt_of_mem (List.mem_map_of_mem (f := argumentToJson) ha)
    exact readArgument_carried (by omega) hj
  have hinputs : Json.readField out "inputs"
      (Json.readListOption blankArgument (readArgument Json.maxDepth)) none = some e.inputs := by
    have hvalues : Json.fieldValues e.members "inputs" =
        [e.inputs.elim .null fun as => .array (as.map argumentToJson)] := by
      simp +decide [members]
    refine Json.readField_of_one hout hvalues fun k => Json.readListOption_carried ?_
    intro as has
    exact hargument (by rw [hvalues, Option.mem_def.mp has, Option.elim_some])
  have houtputs : Json.readField out "outputs" readArguments [] = some e.outputs := by
    by_cases hempty : e.outputs = []
    · rw [Json.readField_of_none hout (by simp +decide [members, hempty]), hempty]
    · have hvalues : Json.fieldValues e.members "outputs" =
          [.array (e.outputs.map argumentToJson)] := by
        simp +decide [members, hempty]
      exact Json.readField_of_one hout hvalues fun k =>
        Json.readList_of_forall (hargument hvalues)
  simp only [InterfaceEntry.read, hinputs, houtputs,
    Json.readField_string "type" e.type hout (by simp +decide [members]),
    Json.readField_text "name" e.name hout (by simp +decide [members]),
    Json.readField_text "stateMutability" e.mutability hout (by simp +decide [members]),
    Json.readField_flag "anonymous" e.anonymous hout (by simp +decide [members]),
    Option.bind_eq_bind, Option.bind_some, Option.pure_def]

theorem regular_toJson (e : InterfaceEntry) : e.toJson.Regular P := by
  rw [toJson_eq, members]
  refine .object ?_ ?_
  · have hnames : ["type", "name", "inputs", "outputs", "stateMutability", "anonymous"].Nodup := by
      decide
    refine hnames.sublist ?_
    simp only [List.map_append]
    exact (((((List.Sublist.refl _).append (Json.sublist_textMember _ _)).append
      (List.Sublist.refl _)).append (Json.sublist_ite _ _ _)).append
        (Json.sublist_textMember _ _)).append (Json.sublist_flagMember _ _)
  · have hinputs : (e.inputs.elim Json.null fun as =>
        .array (as.map argumentToJson)).Regular P := by
      cases e.inputs with
      | none => exact .null
      | some as =>
        simp only [Option.elim_some, Json.regular_array, List.forall_mem_map]
        exact regular_argumentsToJson as
    simp only [List.forall_mem_append, List.forall_mem_cons, Json.forall_mem_textMember,
      Json.forall_mem_ite_singleton, Json.forall_mem_flagMember, Json.regular_string,
      Json.regular_bool, Json.regular_array, List.forall_mem_map, implies_true, and_self,
      List.not_mem_nil, false_implies, and_true, true_and, hinputs]
    exact fun _ => regular_argumentsToJson e.outputs

end InterfaceEntry

theorem Skipped.read_carried (s : Skipped) (hc : Carries f
    (.object [("instanceId", .string s.instanceId), ("reason", .string s.reason)]) j) :
    Skipped.read {} j = some s := by
  obtain ⟨out, hout, rfl⟩ := Json.carries_object.mp hc
  simp only [Skipped.read,
    Json.readField_string "instanceId" s.instanceId hout (by simp +decide),
    Json.readField_string "reason" s.reason hout (by simp +decide),
    Option.bind_eq_bind, Option.bind_some, Option.pure_def]

namespace Interface

variable {x : Interface}

/-- Identifiers as members of an object. -/
def selectorMembers (selectors : List (String × String)) : List (String × Json) :=
  selectors.map fun s => (s.1, .string s.2)

theorem eq_selectorMembers_of_carries : ∀ {selectors : List (String × String)}
    {members : List (String × Json)}, CarriesMembers f (selectorMembers selectors) members →
      members = selectorMembers selectors := by
  intro selectors
  induction selectors with
  | nil =>
    intro members h
    simpa [selectorMembers, CarriesMembers] using h
  | cons s selectors ih =>
    intro members h
    simp only [selectorMembers, List.map_cons, CarriesMembers, Json.carries_string] at h
    obtain ⟨_, rest, rfl, hrest, rfl⟩ := h
    rw [ih hrest]
    rfl

theorem readSelectors_selectorMembers (selectors old : List (String × String)) :
    readSelectors old (.object (selectorMembers selectors)) =
      some (selectors.foldl (fun sorted s => Value.insertNamed s.1 s.2 sorted) old) := by
  rw [readSelectors, selectorMembers]
  induction selectors generalizing old with
  | nil => rfl
  | cons s selectors ih =>
    rw [List.map_cons, List.foldlM_cons, List.foldl_cons, ← ih]
    rfl

/-- Members that come in any order are members for the identifiers in some
order. -/
theorem exists_selectorMembers {selectors : List (String × String)} {out : List (String × Json)}
    (h : out.Perm (selectorMembers selectors)) :
    ∃ selectors', selectors'.Perm selectors ∧ out = selectorMembers selectors' := by
  let text : Json → String := fun j => (Json.readText "" j).getD ""
  refine ⟨out.map fun m => (m.1, text m.2), ?_, ?_⟩
  · have hback : (selectorMembers selectors).map (fun m => (m.1, text m.2)) = selectors := by
      rw [selectorMembers, List.map_map]
      exact List.map_id selectors
    exact hback ▸ h.map _
  · rw [selectorMembers, List.map_map]
    conv_lhs => rw [← List.map_id out]
    refine List.map_congr_left fun m hm => ?_
    obtain ⟨s, -, rfl⟩ := List.mem_map.mp (h.mem_iff.mp hm)
    rfl

/-- Identifiers are read back in any order. -/
theorem readSelectors_carried {selectors : List (String × String)}
    (hascending : Value.Ascending selectors)
    (hc : Carries f (.object (selectorMembers selectors)) j) :
    readSelectors [] j = some selectors := by
  obtain ⟨out, ⟨members, hmembers, hperm⟩, rfl⟩ := Json.carries_object.mp hc
  rw [eq_selectorMembers_of_carries hmembers] at hperm
  obtain ⟨selectors', hperm', rfl⟩ := exists_selectorMembers hperm
  rw [readSelectors_selectorMembers]
  exact congrArg some (Value.sortNamed_eq_of_perm hascending hperm')

/-- The members of a written interface. -/
def members (x : Interface) : List (String × Json) :=
  [("abi", x.entries.elim .null fun es => .array (es.map (·.toJson)))] ++
    (if x.selectors = [] then [] else [("selectors", .object (selectorMembers x.selectors))]) ++
    if x.skipped = [] then []
    else [("skipped", .array (x.skipped.map fun s =>
      .object [("instanceId", .string s.instanceId), ("reason", .string s.reason)]))]

theorem toJson_eq (x : Interface) : x.toJson = .object x.members := by
  rw [toJson, members]
  cases x.entries <;> simp [selectorMembers]

theorem read_carried (hascending : Value.Ascending x.selectors)
    (hdepth : x.toJson.depth ≤ Json.maxDepth) (hc : Carries f x.toJson j) :
    Interface.read {} j = some x := by
  rw [toJson_eq] at hdepth hc
  obtain ⟨out, hout, rfl⟩ := Json.carries_object.mp hc
  have hentries : Json.readField out "abi"
      (Json.readListOption { type := "" } InterfaceEntry.read) none = some x.entries := by
    have hvalues : Json.fieldValues x.members "abi" =
        [x.entries.elim .null fun es => .array (es.map (·.toJson))] := by
      simp +decide [members]
    refine Json.readField_of_one hout hvalues fun k => Json.readListOption_carried ?_
    intro es hes e he k
    refine InterfaceEntry.read_carried ?_
    rw [Option.mem_def.mp hes, Option.elim_some] at hvalues
    have hfield := Json.depth_lt_of_field "abi" hvalues
    have hitem := Json.depth_lt_of_mem (List.mem_map_of_mem (f := (·.toJson)) he)
    omega
  have hselectors : Json.readField out "selectors" readSelectors [] = some x.selectors := by
    by_cases hempty : x.selectors = []
    · rw [Json.readField_of_none hout (by simp +decide [members, hempty]), hempty]
    · exact Json.readField_of_one hout (j := .object (selectorMembers x.selectors))
        (by simp +decide [members, hempty]) fun _ => readSelectors_carried hascending
  have hskipped : Json.readField out "skipped" (Json.readList {} Skipped.read) [] =
      some x.skipped := by
    by_cases hempty : x.skipped = []
    · rw [Json.readField_of_none hout (by simp +decide [members, hempty]), hempty]
    · exact Json.readField_of_one hout (j := .array (x.skipped.map fun s =>
          .object [("instanceId", .string s.instanceId), ("reason", .string s.reason)]))
        (by simp +decide [members, hempty]) fun _ =>
          Json.readList_of_forall fun s _ _ => s.read_carried
  simp only [Interface.read, hentries, hselectors, hskipped, Option.bind_eq_bind, Option.bind_some,
    Option.pure_def]

theorem regular_toJson (hascending : Value.Ascending x.selectors) : x.toJson.Regular P := by
  rw [toJson_eq, members]
  refine .object ?_ ?_
  · have hnames : ["abi", "selectors", "skipped"].Nodup := by decide
    refine hnames.sublist ?_
    simp only [List.map_append]
    exact ((List.Sublist.refl _).append (Json.sublist_ite _ _ _)).append (Json.sublist_ite _ _ _)
  · have hentries : (x.entries.elim Json.null fun es => .array (es.map (·.toJson))).Regular P := by
      cases x.entries with
      | none => exact .null
      | some es => simp [InterfaceEntry.regular_toJson]
    have hselectors : (Json.object (selectorMembers x.selectors)).Regular P := by
      refine .object ?_ ?_
      · rw [selectorMembers, List.map_map]
        exact hascending.nodup
      · simp only [selectorMembers, List.forall_mem_map, Json.regular_string, implies_true]
    have hskipped (s : Skipped) : (Json.object
        [("instanceId", .string s.instanceId), ("reason", .string s.reason)]).Regular P :=
      .object (by simp) (by simp)
    simp only [List.forall_mem_append, List.forall_mem_cons, Json.forall_mem_ite_singleton,
      Json.regular_array, List.forall_mem_map, implies_true, and_self, List.not_mem_nil,
      false_implies, hentries, hselectors, hskipped]

end Interface

/-! ### Outcomes -/

namespace CompileResult

variable {r : CompileResult}

/-- Digests have 32 bytes, and identifiers are sorted by signature. -/
structure WellFormed (r : CompileResult) : Prop where
  hash : ∀ d ∈ r.document, d.hash.length = 32
  selectors : ∀ x ∈ r.interface, Value.Ascending x.selectors

/-- The members of a written outcome. -/
def members (r : CompileResult) : List (String × Json) :=
  [("status", .string r.status.text)] ++
    r.document.toList.map (fun d => ("document", d.toJson)) ++
    r.interface.toList.map (fun x => ("interface", x.toJson)) ++
    [("diagnostics", r.diagnostics.elim .null fun ds => .array (ds.map Diagnostic.toJson))] ++
    Json.textsMember "order" r.order

theorem toJson_eq (r : CompileResult) : r.toJson = .object r.members := by
  rw [toJson, members]
  cases r.diagnostics <;> rfl

/-- What an outcome is read as, after its numbers were written anew. -/
def reread? (f : String → Option String) (r : CompileResult) : Option CompileResult :=
  match r.document with
  | none => some r
  | some d => (d.reread? f).map fun d => { r with document := some d }

theorem reread?_eq_self_iff : r.reread? f = some r ↔
    ∀ d ∈ r.document, rereadInt? f d.estimatedCost = some d.estimatedCost := by
  obtain ⟨status, document, interface, diagnostics, order⟩ := r
  cases document with
  | none => simp [reread?]
  | some d => simp [reread?, ← Document.reread?_eq_self_iff]

theorem read_carried (hr : r.WellFormed) (hdepth : r.toJson.depth ≤ Json.maxDepth)
    (hc : Carries f r.toJson j) : CompileResult.read {} j = r.reread? f := by
  rw [toJson_eq] at hdepth hc
  obtain ⟨out, hout, rfl⟩ := Json.carries_object.mp hc
  have hdocument : Json.readField out "document" (Json.readOption Document.blank Document.read) none =
      r.document.elim (some none) fun d => (d.reread? f).map some :=
    Json.readField_option "document" Document.toJson hout (by simp +decide [members])
      (fun d => ⟨_, rfl⟩) fun d hd j => Document.read_carried (hr.hash d hd)
  have hinterface : Json.readField out "interface" (Json.readOption {} Interface.read) none =
      some r.interface := by
    have hvalues : Json.fieldValues r.members "interface" = r.interface.toList.map Interface.toJson := by
      simp +decide [members]
    have hfield : Json.readField out "interface" (Json.readOption {} Interface.read) none =
        r.interface.elim (some none) fun x => (some x).map some := by
      refine Json.readField_option "interface" Interface.toJson hout hvalues (fun x => ⟨_, rfl⟩)
        fun x hx j => Interface.read_carried (hr.selectors x hx) ?_
      rw [Option.mem_def.mp hx] at hvalues
      have hlt := Json.depth_lt_of_field "interface" hvalues
      omega
    cases hx : r.interface <;> simpa [hx] using hfield
  have hdiagnostics : Json.readField out "diagnostics"
      (Json.readListOption Diagnostic.blank Diagnostic.read) none = some r.diagnostics :=
    Json.readField_of_one hout
      (j := r.diagnostics.elim .null fun ds => .array (ds.map Diagnostic.toJson))
      (by simp +decide [members]) fun k =>
        Json.readListOption_carried fun ds _ d _ _ => d.read_carried
  simp only [CompileResult.read, hdocument, hinterface, hdiagnostics,
    Json.readField_string "status" r.status.text hout (by simp +decide [members]),
    Json.readField_texts "order" r.order hout (by simp +decide [members]),
    Option.bind_eq_bind, Option.bind_some, Option.pure_def, reread?]
  obtain ⟨status, document, interface, diagnostics, order⟩ := r
  cases document with
  | none => rfl
  | some d => cases hd : d.reread? f <;> simp [hd]

theorem regular_toJson (hr : r.WellFormed)
    (hcost : ∀ d ∈ r.document, P (toString d.estimatedCost.toInt)) : r.toJson.Regular P := by
  rw [toJson_eq, members]
  refine .object ?_ ?_
  · have hnames : ["status", "document", "interface", "diagnostics", "order"].Nodup := by decide
    refine hnames.sublist ?_
    simp only [List.map_append]
    exact ((((List.Sublist.refl _).append (Json.sublist_option _ _ _)).append
      (Json.sublist_option _ _ _)).append (List.Sublist.refl _)).append
        (Json.sublist_textsMember _ _)
  · have hdiagnostics : (r.diagnostics.elim Json.null fun ds =>
        .array (ds.map Diagnostic.toJson)).Regular P := by
      cases r.diagnostics with
      | none => exact .null
      | some ds => simp [Diagnostic.regular_toJson]
    simp only [List.forall_mem_append, List.forall_mem_cons, Json.forall_mem_textsMember,
      Json.regular_string, regular_ofStrings, List.forall_mem_map, Option.mem_toList, implies_true,
      and_self, List.not_mem_nil, false_implies, and_true, true_and, hdiagnostics]
    exact ⟨fun d hd => d.regular_toJson (hcost d hd), fun x hx => x.regular_toJson (hr.selectors x hx)⟩

end CompileResult

end SolidityCanvas
