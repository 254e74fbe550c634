/-
The names in the interface.

The name of an instance is the text of the property that its category says.  The interface
reads the property `name`, whatever the category says.

* `UserTypes.isEnum_ofEntries`, `UserTypes.fields?_ofEntries`: under which names the declared
  types are found;
* `UserTypes.numberNamed_iff`, `UserTypes.tupleNamed_iff`: what these names stand for;
* `Arrangement.usesNames_iff`: so functions, events and types have their own names in the
  interface exactly if the property `name` gives these;
* `Compiler.interface_names_iff`: the same of a canvas that is written, and a rule for catalogs
  under which it always holds.
-/
import SolidityCanvas.Proofs.Contract.Expansion
import SolidityCanvas.Proofs.Contract.Selectors

namespace SolidityCanvas

open Solidity Text

namespace Entry

/-- The text of the property `name`. -/
def givenName (e : Entry) : String := e.component.properties.text "name"

/-- The declarations of the fields of a record. -/
def fields (e : Entry) : List String := e.component.properties.texts "fields"

/-- Whether the category of the entry has names. -/
def isNamed (e : Entry) : Bool := e.component.template.category.nameProperty.isSome

/-- Whether the entry is an enumeration. -/
def isEnumeration (e : Entry) : Bool := e.component.template.kind == .enumeration

/-- Whether the entry is a record. -/
def isRecord (e : Entry) : Bool := e.component.template.kind == .record

end Entry

/-! ### The declared types -/

/-- The last record whose property `name` holds a name. -/
def lastRecord? (es : List Entry) (name : String) : Option Entry :=
  (es.filter fun e => e.isRecord && e.givenName == name).getLast?

/-- The only record with a name is the last one. -/
theorem lastRecord?_eq_some {es : List Entry} {e : Entry} (he : e ∈ es) (hkind : e.isRecord = true)
    (hone : ∀ f ∈ es, f.isRecord = true → f.givenName = e.givenName → f = e) :
    lastRecord? es e.givenName = some e := by
  have hmem : e ∈ es.filter fun f => f.isRecord && f.givenName == e.givenName :=
    List.mem_filter.mpr ⟨he, by simp [hkind]⟩
  obtain ⟨f, hlast⟩ := Option.isSome_iff_exists.mp
    (List.getLast?_isSome.mpr (List.ne_nil_of_mem hmem))
  obtain ⟨hf, hcheck⟩ := List.mem_filter.mp (List.mem_of_getLast? hlast)
  obtain ⟨hkind', hname⟩ := Bool.and_eq_true_iff.mp hcheck
  rw [lastRecord?, hlast, hone f hf hkind' (beq_iff_eq.mp hname)]

namespace UserTypes

theorem isEnum_ofEntries {es : List Entry} {name : String} :
    (ofEntries es).isEnum name = true ↔ ∃ e ∈ es, e.isEnumeration = true ∧ e.givenName = name := by
  simp only [isEnum, ofEntries, List.contains_iff_mem, List.mem_map, List.mem_filter, and_assoc]
  rfl

/-- Of the records with one name the last one counts. -/
theorem fields?_ofEntries (es : List Entry) (name : String) :
    (ofEntries es).fields? name = (lastRecord? es name).map (·.fields) := by
  let name? : Entry → Option String := fun e => if e.isRecord then some e.givenName else none
  have hlookup := Value.lookup_sortNamed_filterMap name? (fun e _ => e.fields) es name
  have hpairs : (es.filter (·.isRecord)).map (fun e => (e.givenName, e.fields)) =
      es.filterMap fun e => (name? e).map fun m => (m, e.fields) := by
    rw [← List.filterMap_eq_map, List.filterMap_filter]
    refine List.filterMap_congr fun e _ => ?_
    cases he : e.isRecord <;> simp [name?, he]
  have hfilter : (es.filter fun e => name? e == some name) =
      es.filter fun e => e.isRecord && e.givenName == name := by
    refine List.filter_congr fun e _ => ?_
    cases he : e.isRecord <;> simp [name?, he]
  rw [Value.lookup_sortNamed, ← hpairs, hfilter] at hlookup
  exact hlookup

variable {u : UserTypes} {name : String}

/-- Types with this name, with array brackets or without, are numbers. -/
def NumberNamed (u : UserTypes) (name : String) : Prop :=
  ∀ type, (splitArray type).1 = name → ∀ levels param, marshal u (levels + 1) param type =
    .ok (.mk param ("uint8" ++ (splitArray type).2) ("enum " ++ type) [] false)

/-- The forms of the fields of a record, or the reason why one has none. -/
def components (u : UserTypes) (levels : Nat) (fields : List String) :
    Except MarshalFault (List AbiArgument) :=
  fields.mapM fun f => marshal u levels (Parameter.read f).name (Parameter.read f).type

/-- Types with this name, with array brackets or without, are tuples of these fields. -/
def TupleNamed (u : UserTypes) (name : String) (fields : List String) : Prop :=
  ∀ type, (splitArray type).1 = name → ∀ levels param, marshal u (levels + 1) param type = do
    let components ← u.components levels fields
    return .mk param ("tuple" ++ (splitArray type).2) ("struct " ++ type) components false

theorem splitArray_of_isIdentifier (h : isIdentifier name = true) :
    splitArray name = (name, "") := by
  have hempty : splitArray "" = ("", "") := rfl
  simpa [hempty] using splitArray_append h ""

theorem not_mapping_of_isIdentifier (h : isIdentifier name = true) :
    hasPrefix name "mapping(" = false := by
  rw [hasPrefix, Bool.eq_false_iff, Ne, List.isPrefixOf_iff_prefix]
  exact fun hmapping => notMem_of_isIdentifier h (c := '(') rfl (hmapping.subset (by decide))

/-- What a name alone stands for. -/
theorem marshal_of_isIdentifier (h : isIdentifier name = true) (levels : Nat) (param : String) :
    marshal u (levels + 1) param name =
      if u.isEnum name then .ok (.mk param "uint8" ("enum " ++ name) [] false)
      else match u.fields? name with
        | some fields => do
          let components ← u.components levels fields
          return .mk param "tuple" ("struct " ++ name) components false
        | none =>
          if isType (fullTypeName name) fun _ => false then
            .ok (.mk param (fullTypeName name) "" [] false)
          else .error (.noEncoding name) := by
  rw [marshal, splitArray_of_isIdentifier h]
  dsimp only
  rw [if_neg (by simp [not_mapping_of_isIdentifier h]), String.append_empty, String.append_empty,
    String.append_empty]
  rfl

/-- **The names of enumerations stand for numbers**, and no others do. -/
theorem numberNamed_iff (h : isIdentifier name = true) :
    u.NumberNamed name ↔ u.isEnum name = true := by
  constructor
  · intro hnumber
    have hname := hnumber name (by rw [splitArray_of_isIdentifier h]) 0 ""
    rw [marshal_of_isIdentifier h, splitArray_of_isIdentifier h] at hname
    by_contra henum
    rw [if_neg henum] at hname
    split at hname
    · obtain ⟨components, -, hform⟩ := except_bind_eq_ok.mp hname
      have htype : "tuple" = "uint8" ++ "" := congrArg AbiArgument.type (Except.ok.inj hform)
      exact absurd htype (by decide)
    · split at hname
      · have hinternal : "" = "enum " ++ name :=
          congrArg AbiArgument.internalType (Except.ok.inj hname)
        simp at hinternal
      · cases hname
  · have hmapping := not_mapping_of_isIdentifier h
    rintro henum type rfl levels param
    simp [marshal, hmapping, henum]

/-- Without room for its fields, a tuple that has fields is too deep. -/
theorem components_zero (u : UserTypes) (fields : List String) :
    u.components 0 fields = .ok [] ∨ ∃ type, u.components 0 fields = .error (.tooDeep type) := by
  cases fields with
  | nil => exact .inl rfl
  | cons d ds => exact .inr ⟨_, rfl⟩

/-- What is a tuple has the name of a record, and of no enumeration. -/
theorem fields?_of_tupleNamed (h : isIdentifier name = true) {fields : List String}
    (htuple : u.TupleNamed name fields) :
    u.isEnum name = false ∧ ∃ found, u.fields? name = some found := by
  have hname := htuple name (by rw [splitArray_of_isIdentifier h]) 0 ""
  rw [splitArray_of_isIdentifier h] at hname
  have hform : marshal u 1 "" name = .ok (.mk "" "tuple" ("struct " ++ name) [] false) ∨
      ∃ type, marshal u 1 "" name = .error (.tooDeep type) := by
    rw [hname]
    obtain hfields | ⟨type, hfields⟩ := u.components_zero fields
    · rw [hfields]
      exact .inl rfl
    · rw [hfields]
      exact .inr ⟨type, rfl⟩
  rw [marshal_of_isIdentifier h] at hform
  cases henum : u.isEnum name with
  | true => simp [henum] at hform
  | false =>
    cases hfound : u.fields? name with
    | some found => exact ⟨rfl, found, rfl⟩
    | none =>
      rw [henum, hfound, if_neg Bool.false_ne_true] at hform
      dsimp only at hform
      -- a plain type has no internal one, and a type without encoding is not too deep
      split at hform <;> simp at hform

/-- **The names of records stand for tuples** of the fields that are found, if no enumeration
has the name. -/
theorem tupleNamed_iff (h : isIdentifier name = true) {fields : List String} :
    u.TupleNamed name fields ↔ u.isEnum name = false ∧ ∃ found, u.fields? name = some found ∧
      ∀ levels, u.components levels found = u.components levels fields := by
  constructor
  · intro htuple
    obtain ⟨henum, found, hfound⟩ := fields?_of_tupleNamed h htuple
    refine ⟨henum, found, hfound, fun levels => ?_⟩
    have hname := htuple name (by rw [splitArray_of_isIdentifier h]) levels ""
    rw [marshal_of_isIdentifier h, splitArray_of_isIdentifier h, henum, hfound] at hname
    exact except_bind_ok_inj (fun _ _ hform => by simpa using hform) hname
  · have hmapping := not_mapping_of_isIdentifier h
    rintro ⟨henum, found, hfound, hsame⟩ type rfl levels param
    rw [← hsame]
    simp [marshal, components, hmapping, henum, hfound]

end UserTypes

/-! ### Names that the interface reads -/

/-- Functions, events and types are named by the property `name`, and the types in one name
space. -/
structure Catalog.NamesByName (catalog : Catalog) : Prop where
  property : ∀ t ∈ catalog.templates,
    t.kind ∈ [InterfaceKind.function, .event, .record, .enumeration] →
      t.category.nameProperty = some "name"
  nameSpace : ∀ t ∈ catalog.templates, ∀ t' ∈ catalog.templates,
    t.kind ∈ [InterfaceKind.record, .enumeration] →
      t'.kind ∈ [InterfaceKind.record, .enumeration] → t.category.nameSpace = t'.category.nameSpace

instance (catalog : Catalog) : Decidable catalog.NamesByName :=
  decidable_of_iff (_ ∧ _) ⟨fun h => ⟨h.1, h.2⟩, fun h => ⟨h.property, h.nameSpace⟩⟩

namespace Arrangement

variable {catalog : Catalog} {canvas : Canvas} {a : Arrangement} {e f : Entry}

theorem holds_component (ha : canvas.arrange catalog = .ok (.ok a)) (he : e ∈ a.entries) :
    canvas.Holds catalog e.component := by
  obtain ⟨i, hi, t, ht, hc⟩ := Canvas.exists_instance_of_mem_entries ha he
  exact ⟨i, hi, Canvas.componentOf?_eq_some.mpr ⟨t, ht, hc.symm⟩⟩

theorem template_mem (ha : canvas.arrange catalog = .ok (.ok a)) (he : e ∈ a.entries) :
    e.component.template ∈ catalog.templates := by
  obtain ⟨i, -, t, ht, hc⟩ := Canvas.exists_instance_of_mem_entries ha he
  rw [hc]
  exact List.mem_of_find?_eq_some ht

/-- Entries with one id are one. -/
theorem eq_of_id (ha : canvas.arrange catalog = .ok (.ok a)) (he : e ∈ a.entries)
    (hf : f ∈ a.entries) (hid : e.id = f.id) : e = f :=
  List.inj_on_of_nodup_map (Canvas.nodup_order_of_arrange ha) he hf hid

/-- Where names are read from the property `name`, it holds the name. -/
theorem givenName_eq (hnames : catalog.NamesByName) (ha : canvas.arrange catalog = .ok (.ok a))
    (he : e ∈ a.entries)
    (hkind : e.component.template.kind ∈ [InterfaceKind.function, .event, .record, .enumeration]) :
    e.givenName = e.component.name := by
  rw [Component.name, hnames.property _ (template_mem ha he) hkind]
  rfl

/-- Where types are named in one name space, no two have one name. -/
theorem eq_of_name (hnames : catalog.NamesByName) (hacceptable : canvas.Acceptable catalog)
    (ha : canvas.arrange catalog = .ok (.ok a)) (he : e ∈ a.entries) (hf : f ∈ a.entries)
    (hkind : e.component.template.kind ∈ [InterfaceKind.record, .enumeration])
    (hkind' : f.component.template.kind ∈ [InterfaceKind.record, .enumeration])
    (hname : e.component.name = f.component.name) : e = f := by
  have hnamed : ∀ {t : Template}, t ∈ catalog.templates →
      t.kind ∈ [InterfaceKind.record, .enumeration] → t.category.nameProperty.isSome = true := by
    intro t ht hkind
    rw [hnames.property t ht (List.mem_cons_of_mem _ (List.mem_cons_of_mem _ hkind))]
    rfl
  refine eq_of_id ha he hf (hacceptable.distinct _ _ (holds_component ha he)
    (holds_component ha hf) e.component.template.category.nameSpace e.component.name
    (.inl ⟨hnamed (template_mem ha he) hkind, rfl, rfl⟩)
    (.inl ⟨hnamed (template_mem ha hf) hkind', ?_, hname.symm⟩))
  exact hnames.nameSpace _ (template_mem ha hf) _ (template_mem ha he) hkind' hkind

/-- The interface of an arrangement uses the names of the instances. -/
structure UsesNames (a : Arrangement) (x : Interface) : Prop where
  /-- Functions and events have their names. -/
  exported : List.Forall₂ (fun e y => e.isNamed = true →
    e.component.template.kind ∈ [InterfaceKind.function, .event] → y.name = e.component.name)
    a.exported (x.entries.getD [])
  /-- Types with the name of an enumeration are numbers. -/
  numbers : ∀ e ∈ a.entries, e.isNamed = true → e.isEnumeration = true →
    a.userTypes.NumberNamed e.component.name
  /-- Types with the name of a record are tuples of its fields. -/
  tuples : ∀ e ∈ a.entries, e.isNamed = true → e.isRecord = true →
    a.userTypes.TupleNamed e.component.name e.fields

/-- The property `name` gives the names of the instances. -/
structure GivesNames (a : Arrangement) : Prop where
  exported : ∀ e ∈ a.exported, e.isNamed = true →
    e.component.template.kind ∈ [InterfaceKind.function, .event] →
      e.givenName = e.component.name
  /-- The name of an enumeration is given to some enumeration. -/
  numbers : ∀ e ∈ a.entries, e.isNamed = true → e.isEnumeration = true →
    ∃ f ∈ a.entries, f.isEnumeration = true ∧ f.givenName = e.component.name
  /-- The name of a record is given to no enumeration, and last to a record whose fields have
  the same forms. -/
  tuples : ∀ e ∈ a.entries, e.isNamed = true → e.isRecord = true →
    (∀ f ∈ a.entries, f.isEnumeration = true → f.givenName ≠ e.component.name) ∧
      ∃ f, lastRecord? a.entries e.component.name = some f ∧
        ∀ levels, a.userTypes.components levels f.fields = a.userTypes.components levels e.fields

variable {x : Interface} (hx : a.interface? = some x)

include hx

/-- The names in the interface, in their order. -/
theorem map_name_interface :
    (x.entries.getD []).map (·.name) = a.exported.map (·.exportedName) := by
  rw [← List.forall₂_eq_eq_eq, List.forall₂_map_left_iff, List.forall₂_map_right_iff]
  exact (exportedAs_interface hx).flip.imp fun _ _ h => h.name

/-- The entries of the interface have the names of the instances if these have them there. -/
theorem forall₂_exported_iff : List.Forall₂ (fun e y => e.isNamed = true →
      e.component.template.kind ∈ [InterfaceKind.function, .event] → y.name = e.component.name)
      a.exported (x.entries.getD []) ↔
    ∀ e ∈ a.exported, e.isNamed = true →
      e.component.template.kind ∈ [InterfaceKind.function, .event] →
        e.exportedName = e.component.name := by
  let p : Entry → String → Prop := fun e n => e.isNamed = true →
    e.component.template.kind ∈ [InterfaceKind.function, .event] → n = e.component.name
  have hmap : List.Forall₂ p a.exported ((x.entries.getD []).map (·.name)) ↔
      List.Forall₂ (fun e y => p e y.name) a.exported (x.entries.getD []) :=
    List.forall₂_map_right_iff
  rw [map_name_interface hx, List.forall₂_map_right_iff, List.forall₂_same] at hmap
  exact hmap.symm

omit hx in
/-- Functions and events have in the interface what the property `name` gives them. -/
theorem exportedName_eq_givenName
    (h : e.component.template.kind ∈ [InterfaceKind.function, .event]) :
    e.exportedName = e.givenName := by
  refine if_neg fun hcreation => ?_
  rw [beq_iff_eq.mp hcreation] at h
  exact absurd h (by decide)

/-- The interface uses the names exactly if the property `name` gives them. -/
theorem usesNames_iff (hnamed : ∀ e ∈ a.entries, e.component.Named) :
    a.UsesNames x ↔ a.GivesNames := by
  have hnumber : ∀ e ∈ a.entries, e.isNamed = true → (a.userTypes.NumberNamed e.component.name ↔
      ∃ f ∈ a.entries, f.isEnumeration = true ∧ f.givenName = e.component.name) :=
    fun e he h => (UserTypes.numberNamed_iff (hnamed e he h).1).trans UserTypes.isEnum_ofEntries
  have htuple : ∀ e ∈ a.entries, e.isNamed = true →
      (a.userTypes.TupleNamed e.component.name e.fields ↔
        (∀ f ∈ a.entries, f.isEnumeration = true → f.givenName ≠ e.component.name) ∧
          ∃ f, lastRecord? a.entries e.component.name = some f ∧ ∀ levels,
            a.userTypes.components levels f.fields = a.userTypes.components levels e.fields) := by
    intro e he h
    rw [UserTypes.tupleNamed_iff (hnamed e he h).1, ← Bool.not_eq_true, userTypes,
      UserTypes.isEnum_ofEntries, UserTypes.fields?_ofEntries]
    simp [Option.map_eq_some_iff]
  have hexported : (∀ e ∈ a.exported, e.isNamed = true →
      e.component.template.kind ∈ [InterfaceKind.function, .event] →
        e.exportedName = e.component.name) ↔ ∀ e ∈ a.exported, e.isNamed = true →
      e.component.template.kind ∈ [InterfaceKind.function, .event] →
        e.givenName = e.component.name :=
    forall₂_congr fun e _ => imp_congr_right fun _ => forall_congr' fun hkind => by
      rw [exportedName_eq_givenName hkind]
  constructor
  · intro h
    exact ⟨hexported.mp ((forall₂_exported_iff hx).mp h.exported),
      fun e he hname hkind => (hnumber e he hname).mp (h.numbers e he hname hkind),
      fun e he hname hkind => (htuple e he hname).mp (h.tuples e he hname hkind)⟩
  · intro h
    exact ⟨(forall₂_exported_iff hx).mpr (hexported.mpr h.exported),
      fun e he hname hkind => (hnumber e he hname).mpr (h.numbers e he hname hkind),
      fun e he hname hkind => (htuple e he hname).mpr (h.tuples e he hname hkind)⟩

omit hx in
/-- Where names are read from the property `name`, and the types named in one name space, the
property gives the names. -/
theorem givesNames (hnames : catalog.NamesByName) (hacceptable : canvas.Acceptable catalog)
    (ha : canvas.arrange catalog = .ok (.ok a)) : a.GivesNames where
  exported e he _ hkind := by
    refine givenName_eq hnames ha (List.mem_filter.mp he).1 ?_
    rcases List.mem_pair.mp hkind with hkind | hkind <;> simp [hkind]
  numbers e he _ hkind := by
    have hkind : e.component.template.kind = .enumeration := beq_iff_eq.mp hkind
    exact ⟨e, he, beq_iff_eq.mpr hkind, givenName_eq hnames ha he (by simp [hkind])⟩
  tuples e he _ hkind := by
    have hkind : e.component.template.kind = .record := beq_iff_eq.mp hkind
    have hown : e.givenName = e.component.name := givenName_eq hnames ha he (by simp [hkind])
    have hone : ∀ f ∈ a.entries, f.component.template.kind ∈ [InterfaceKind.record, .enumeration] →
        f.givenName = e.component.name → f = e := by
      intro f hf hkind' hname
      rw [givenName_eq hnames ha hf (List.mem_cons_of_mem _ (List.mem_cons_of_mem _ hkind'))]
        at hname
      exact eq_of_name hnames hacceptable ha hf he hkind' (by simp [hkind]) hname
    constructor
    · intro f hf hkind' hname
      have hkind' : f.component.template.kind = .enumeration := beq_iff_eq.mp hkind'
      obtain rfl := hone f hf (by simp [hkind']) hname
      rw [hkind] at hkind'
      cases hkind'
    · rw [← hown] at hone ⊢
      refine ⟨e, lastRecord?_eq_some he (beq_iff_eq.mpr hkind) fun f hf hkind' =>
        hone f hf ?_, fun _ => rfl⟩
      simp [show f.component.template.kind = .record from beq_iff_eq.mp hkind']

end Arrangement

namespace Compiler

variable {files : List (String × Definitions)} {catalog : Catalog} {canvas : Canvas}
  {capacity : Nat} {header : Header} {r : CompileResult}

/-- **When the interface uses the names of the instances.** -/
theorem interface_names_iff (hbuild : Catalog.build files = .ok catalog)
    (hr : ((new catalog capacity).compile canvas header false).1 = .ok r)
    (hemitted : r.status = .emitted) :
    ∃ a x, canvas.arrange catalog = .ok (.ok a) ∧ a.interface? = some x ∧ r.interface = some x ∧
      (a.UsesNames x ↔ a.GivesNames) ∧ (catalog.NamesByName → a.UsesNames x) := by
  obtain ⟨a, x, ha, hx, hinterface⟩ := interface_of_emitted hr hemitted
  have hacceptable : canvas.Acceptable catalog := by
    rcases verdict_cases (Catalog.categoriesAgree_of_build hbuild) hr with
      ⟨hacceptable, -, -⟩ | ⟨-, hrejected⟩
    · exact hacceptable
    · rw [hrejected] at hemitted
      exact absurd hemitted (by decide)
  have hiff := Arrangement.usesNames_iff hx fun e he =>
    hacceptable.named _ (Arrangement.holds_component ha he)
  exact ⟨a, x, ha, hx, hinterface, hiff, fun hnames =>
    hiff.mpr (Arrangement.givesNames hnames hacceptable ha)⟩

end Compiler

/-! ### An event that has another name -/

/-- Enumerations, records and events; the name of an event is in the property. -/
def Catalog.noticeFiles (property : String) : List (String × Definitions) :=
  let text (name : String) : PropertyDefinition :=
    ⟨name, .string, true, none, "identifier", [], ""⟩
  let texts (name : String) : PropertyDefinition := ⟨name, .list .string, true, none, "", [], ""⟩
  [("notices", {
    categories := [
      ⟨"enumeration", "definitions", "types", true, "name", false, true⟩,
      ⟨"record", "definitions", "types", true, "name", false, true⟩,
      ⟨"event", "events", "events", true, property, false, false⟩]
    templates := [
      { sampleTemplate "enumeration" [text "name"] with kind := "enum" },
      { sampleTemplate "record" [text "name", texts "fields"] with kind := "struct" },
      { sampleTemplate "event" [text property, texts "params"] with kind := "event" }] })]

/-- The catalog of these definitions. -/
def Catalog.notices (property : String) : Catalog :=
  ((build (noticeFiles property)).toOption).getD {}

/-- An enumeration, a record with a field of it, and an event with a parameter of this. -/
def Canvas.painted (property : String) : Canvas where
  instances := [
    ⟨"c", "enumeration", [("name", .string "Colour")]⟩,
    ⟨"d", "record", [("fields", .tuple [.string "Colour edge"]), ("name", .string "Drawing")]⟩,
    ⟨"p", "event", [("params", .tuple [.string "Drawing it"]), (property, .string "Painted")]⟩]

/-- What is exported: kind, name and the name in the interface, where the category has names. -/
def Arrangement.titles (a : Arrangement) : List (InterfaceKind × Bool × String × String) :=
  a.exported.map fun e =>
    (e.component.template.kind, e.isNamed, e.component.name, e.exportedName)

/-- Whether an enumeration and a record have these names. -/
def Arrangement.declares (a : Arrangement) (enumeration record : String) (fields : List String) :
    Bool :=
  a.entries.any (fun e => e.isNamed && e.isEnumeration && e.component.name == enumeration) &&
    a.entries.any fun e => e.isNamed && e.isRecord && e.component.name == record &&
      e.fields == fields

theorem Catalog.notices_namesByName : (notices "name").NamesByName := by decide

namespace Compiler

/-- An event has its name, and the types of its parameter and its field are found. -/
theorem painted_names :
    Catalog.build (Catalog.noticeFiles "name") = .ok (.notices "name") ∧ ∃ r x, ∃ a : Arrangement,
      ((new (.notices "name") 1).compile (.painted "name") {} false).1 = .ok r ∧
      r.status = .emitted ∧ a.interface? = some x ∧ r.interface = some x ∧
      (Catalog.notices "name").NamesByName ∧
      (x.entries.getD []).map (·.name) = ["Painted"] ∧
      a.userTypes.NumberNamed "Colour" ∧ a.userTypes.TupleNamed "Drawing" ["Colour edge"] := by
  have hbuild : Catalog.build (Catalog.noticeFiles "name") = .ok (.notices "name") := rfl
  obtain ⟨r, hr, hemitted⟩ := exists_emitted_of_isSoundWith (.painted "name") hbuild
    (by decide) (by decide) isReserved_of_mem_plainNames
  obtain ⟨a, x, ha, hx, hinterface, -, hnames⟩ := interface_names_iff hbuild hr hemitted
  have huses := hnames Catalog.notices_namesByName
  have htitles : a.titles = [(.event, true, "Painted", "Painted")] :=
    beq_iff_eq.mp (Canvas.passes_of_arrangesAs (p := fun a => a.titles ==
      [(.event, true, "Painted", "Painted")]) (by decide) ha)
  have hdeclares := Canvas.passes_of_arrangesAs
    (p := (·.declares "Colour" "Drawing" ["Colour edge"])) (by decide) ha
  simp only [Arrangement.declares, Bool.and_eq_true, List.any_eq_true, beq_iff_eq] at hdeclares
  obtain ⟨⟨e, he, ⟨hnamed, hkind⟩, hcolour⟩, d, hd, ⟨⟨hnamed', hkind'⟩, hdrawing⟩, hfields⟩ :=
    hdeclares
  refine ⟨hbuild, r, x, a, hr, hemitted, hx, hinterface, Catalog.notices_namesByName, ?_, ?_, ?_⟩
  · rw [Arrangement.map_name_interface hx]
    simpa [Arrangement.titles] using congrArg (List.map (·.2.2.2)) htitles
  · rw [← hcolour]
    exact huses.numbers e he hnamed hkind
  · rw [← hdrawing, ← hfields]
    exact huses.tuples d hd hnamed' hkind'

/-- **An event has no name**, although the canvas is written and its name can be a name: its
category says that the name is the title. -/
theorem titled_has_no_name :
    Catalog.build (Catalog.noticeFiles "title") = .ok (.notices "title") ∧ ∃ r x, ∃ a : Arrangement,
      ((new (.notices "title") 1).compile (.painted "title") {} false).1 = .ok r ∧
      r.status = .emitted ∧ (Canvas.painted "title").arrange (.notices "title") = .ok (.ok a) ∧
      a.interface? = some x ∧ r.interface = some x ∧
      a.titles = [(.event, true, "Painted", "")] ∧
      (x.entries.getD []).map (·.name) = [""] ∧ ¬ a.UsesNames x := by
  have hbuild : Catalog.build (Catalog.noticeFiles "title") = .ok (.notices "title") := rfl
  obtain ⟨r, hr, hemitted⟩ := exists_emitted_of_isSoundWith (.painted "title") hbuild
    (by decide) (by decide) isReserved_of_mem_plainNames
  obtain ⟨a, x, ha, hx, hinterface⟩ := interface_of_emitted hr hemitted
  have htitles : a.titles = [(.event, true, "Painted", "")] :=
    beq_iff_eq.mp (Canvas.passes_of_arrangesAs (p := fun a => a.titles ==
      [(.event, true, "Painted", "")]) (by decide) ha)
  refine ⟨hbuild, r, x, a, hr, hemitted, ha, hx, hinterface, htitles, ?_, fun huses => ?_⟩
  · rw [Arrangement.map_name_interface hx]
    simpa [Arrangement.titles] using congrArg (List.map (·.2.2.2)) htitles
  · obtain ⟨e, hexported, he⟩ := List.map_eq_singleton_iff.mp htitles
    simp only [Prod.mk.injEq] at he
    obtain ⟨hkind, hnamed, hname, hgiven⟩ := he
    have hpainted := (Arrangement.forall₂_exported_iff hx).mp huses.exported e (by simp [hexported])
      hnamed (by simp [hkind])
    rw [hname, hgiven] at hpainted
    exact absurd hpainted (by decide)

end Compiler

end SolidityCanvas
