/-
What building a catalog checks.

The checks are spread over the reading of the files and the building of the
catalog, and a check that fails makes others be left out.  Together they come to
this: the definitions of the files fit together (`Catalog.Coherent`).

* `Catalog.categoryFaults_eq_nil`, `Catalog.ruleFaults_eq_nil`,
  `Catalog.templateFaults_eq_nil`: what the checks of one item say;
* `Catalog.addAll_faults`: what they say together, where items must not come
  twice;
* `Catalog.coherent_of_build`: files that make a catalog are coherent;
* `Catalog.exists_build`: coherent files whose expressions read what is in scope
  and call functions that exist make a catalog.
-/
import SolidityCanvas.Proofs.Catalog.Functions
import SolidityCanvas.Proofs.Catalog.Schema
import SolidityCanvas.Proofs.Value.Coercion

namespace SolidityCanvas

open Config

/-- The types that properties can have. -/
def ValueType.supported : List ValueType :=
  [.string, .number, .bool, .list .string, .list .number, .list .bool]

theorem ValueType.isPropertyType_iff {t : ValueType} :
    t.isPropertyType = true ↔ t ∈ ValueType.supported := by
  cases t with
  | list e => cases e <;> simp [isPropertyType, isPrimitive, supported]
  | _ => simp [isPropertyType, supported]

/-- What was accepted for a type conforms to it. -/
theorem Value.conforms_of_coerce? {v w : Value} {t : ValueType} (h : v.coerce? t = some w) :
    w.conforms t = true := by
  rw [conforms, coerce?_coerce? h]
  rfl

theorem PropertyDefinition.Accepted.conforms {p : PropertyDefinition} (h : p.Accepted) :
    p.type ∈ ValueType.supported ∧ ∀ v, p.default = some v → v.conforms p.type = true := by
  refine ⟨ValueType.isPropertyType_iff.mp h.type, fun v hv => ?_⟩
  obtain ⟨u, hu⟩ := h.default v hv
  exact Value.conforms_of_coerce? hu

/-! ### Definitions that fit together -/

/-- The section of a category is known, a named category has a name space, and
only a named category has a property for the name. -/
structure CategoryDefinition.Valid (d : CategoryDefinition) : Prop where
  zone : (Section.ofText? d.zone).isSome
  nameSpace : d.named = true → d.nameSpace ≠ ""
  nameProperty : d.named = false → d.nameProperty = ""

/-- A rule joins two categories, in an order that is known. -/
structure RuleDefinition.Valid (names : List String) (d : RuleDefinition) : Prop where
  source : d.source ∈ names
  target : d.target ∈ names
  order : (Order.ofText? d.order).isSome

/-- A property has a supported type, is required or else has a default that
conforms to the type, and has no name that is in scope already. -/
structure PropertyDefinition.Valid (links : List String) (p : PropertyDefinition) : Prop where
  type : p.type ∈ ValueType.supported
  default : p.required = p.default.isNone
  conforms : ∀ v, p.default = some v → v.conforms p.type = true
  check : (Check.ofText? p.check).isSome
  oneOf : p.oneOf ≠ [] → p.type = .string
  name : p.name ∉ links ∧ p.name ≠ "id"

/-- A template is of one of the categories.  If that is a named one, the template
declares the property for the name. -/
structure TemplateDefinition.Valid (categories : List CategoryDefinition) (links : List String)
    (d : TemplateDefinition) : Prop where
  category : d.category ∈ categories.map (·.name)
  cost : 0 ≤ d.cost
  kind : (InterfaceKind.ofText? d.kind).isSome
  names : (d.properties.map (·.name)).Nodup
  properties : ∀ p ∈ d.properties, p.Valid links
  named : ∀ k ∈ categories, k.name = d.category → k.named = true →
    ∃ p ∈ d.properties, p.name = k.nameProperty ∧ p.type = .string

namespace Catalog

/-- The categories and rules of some files, without the templates. -/
def declared (files : List (String × Definitions)) : Catalog where
  categories := (itemsOf files (·.categories)).map (·.2.category)
  rules := (itemsOf files (·.rules)).map (·.2.rule)

/-- The definitions of some files fit together. -/
structure Coherent (files : List (String × Definitions)) : Prop where
  categoryNames : ((itemsOf files (·.categories)).map (·.2.name)).Nodup
  categories : ∀ i ∈ itemsOf files (·.categories), i.2.Valid
  ruleEnds : ((itemsOf files (·.rules)).map fun i => (i.2.source, i.2.target)).Nodup
  rules : ∀ i ∈ itemsOf files (·.rules),
    i.2.Valid ((itemsOf files (·.categories)).map (·.2.name))
  templateIds : ((itemsOf files (·.templates)).map (·.2.id)).Nodup
  templates : ∀ i ∈ itemsOf files (·.templates),
    i.2.Valid ((itemsOf files (·.categories)).map (·.2)) ((declared files).linkNames i.2.category)

/-- The expressions of the templates read only properties, links and the id, and
call only functions that exist. -/
def InScope (files : List (String × Definitions)) : Prop :=
  ∀ i ∈ itemsOf files (·.templates), ∀ e ∈ [i.2.emit, i.2.imports, i.2.inherits, i.2.declares],
    (∀ r ∈ e.references, r.root ∈ i.2.properties.map (·.name) ∨
      r.root ∈ (declared files).linkNames i.2.category ∨ r.root = "id") ∧
    ∀ n, e.Calls n → n ∈ libraryNames

/-! ### The checks of one item -/

section items

variable {c : Catalog} {file : String}

@[simp] theorem faultIf_eq_nil {condition : Bool} {f : Fault} :
    faultIf condition f = [] ↔ condition = false := by
  cases condition <;> simp [faultIf]

theorem isSome_category?_iff {name : String} :
    (c.category? name).isSome = true ↔ name ∈ c.categories.map (·.name) := by
  rw [category?, List.find?_isSome, List.mem_map]
  simp

theorem categoryFaults_eq_nil {d : CategoryDefinition} : categoryFaults file d = [] ↔ d.Valid := by
  have hzone : (Section.ofText? d.zone).isNone = false ↔ (Section.ofText? d.zone).isSome = true := by
    cases Section.ofText? d.zone <;> simp
  simp only [categoryFaults, List.append_eq_nil_iff, faultIf_eq_nil, hzone]
  constructor
  · rintro ⟨⟨hzone, hproperty⟩, hspace⟩
    refine ⟨hzone, fun hnamed => ?_, fun hnamed => ?_⟩
    · simpa [hnamed] using hspace
    · simpa [hnamed] using hproperty
  · rintro ⟨hzone, hspace, hproperty⟩
    refine ⟨⟨hzone, ?_⟩, ?_⟩
    · cases hnamed : d.named with
      | true => rfl
      | false => simp [hproperty hnamed]
    · cases hnamed : d.named with
      | true => simpa using hspace hnamed
      | false => rfl

theorem addCategory_faults {d : CategoryDefinition} : (c.addCategory file d).2 = [] ↔
    d.name ∉ c.categories.map (·.name) ∧ d.Valid := by
  rw [addCategory]
  split
  · rename_i hsome
    simp [isSome_category?_iff.mp hsome]
  · rename_i hnone
    rw [isSome_category?_iff] at hnone
    constructor
    · intro h
      refine ⟨hnone, ?_⟩
      split at h
      · exact categoryFaults_eq_nil.mp ‹_›
      · exact categoryFaults_eq_nil.mp h
    · rintro ⟨_, hvalid⟩
      obtain ⟨zone, hzone⟩ := Option.isSome_iff_exists.mp hvalid.zone
      rw [categoryFaults_eq_nil.mpr hvalid, hzone]

theorem ruleFaults_eq_nil {d : RuleDefinition} : c.ruleFaults file d = [] ↔
    d.Valid (c.categories.map (·.name)) ∧
      (d.source, d.target) ∉ c.rules.map fun r => (r.source, r.target) := by
  have hcategory : ∀ name, (c.category? name).isNone = false ↔
      name ∈ c.categories.map (·.name) := by
    intro name
    rw [← isSome_category?_iff]
    cases c.category? name <;> simp
  have horder : (Order.ofText? d.order).isNone = false ↔ (Order.ofText? d.order).isSome = true := by
    cases Order.ofText? d.order <;> simp
  have hrule : (c.rule? d.source d.target).isSome = false ↔
      (d.source, d.target) ∉ c.rules.map fun r => (r.source, r.target) := by
    rw [rule?, ← Bool.not_eq_true, List.find?_isSome]
    simp
  simp only [ruleFaults, List.append_eq_nil_iff, faultIf_eq_nil, hcategory, horder, hrule]
  constructor
  · rintro ⟨⟨⟨hsource, htarget⟩, horder⟩, hnew⟩
    exact ⟨⟨hsource, htarget, horder⟩, hnew⟩
  · rintro ⟨⟨hsource, htarget, horder⟩, hnew⟩
    exact ⟨⟨⟨hsource, htarget⟩, horder⟩, hnew⟩

theorem addRule_faults {d : RuleDefinition} :
    (c.addRule file d).2 = [] ↔ c.ruleFaults file d = [] := by
  rw [addRule]
  split
  · rename_i hfaults _
    simp [hfaults]
  · rfl

/-- What is checked of a property when a catalog is built. -/
theorem propertyFaults_eq_nil {template : String} {links : List String} {p : PropertyDefinition} :
    propertyFaults file template links p = [] ↔ (Check.ofText? p.check).isSome = true ∧
      p.required = p.default.isNone ∧ (p.oneOf ≠ [] → p.type = .string) ∧
      p.name ∉ links ∧ p.name ≠ "id" := by
  have hcheck : (Check.ofText? p.check).isNone = false ↔ (Check.ofText? p.check).isSome = true := by
    cases Check.ofText? p.check <;> simp
  have hdefault : (p.required && p.default.isSome) = false ∧
      (!p.required && p.default.isNone) = false ↔ p.required = p.default.isNone := by
    cases p.required <;> cases p.default <;> simp
  have honeOf : (!p.oneOf.isEmpty && p.type != .string) = false ↔
      (p.oneOf ≠ [] → p.type = .string) := by
    cases p.oneOf <;> simp
  have hname : (links.contains p.name || builtInVariables.contains p.name) = false ↔
      p.name ∉ links ∧ p.name ≠ "id" := by
    simp [builtInVariables]
  simp only [propertyFaults, List.append_eq_nil_iff, faultIf_eq_nil, hcheck, honeOf, hname,
    ← hdefault, and_assoc]

theorem expressionFaults_eq_nil {links : List String} {d : TemplateDefinition} :
    expressionFaults file links d = [] ↔
      ∀ e ∈ [d.emit, d.imports, d.inherits, d.declares],
        (∀ r ∈ e.references, r.root ∈ d.properties.map (·.name) ∨ r.root ∈ links ∨ r.root = "id") ∧
        ∀ n ∈ e.calledFunctions, n ∈ libraryNames := by
  have hscope : ∀ n, inScope links d n = true ↔
      n ∈ d.properties.map (·.name) ∨ n ∈ links ∨ n = "id" := by
    intro n
    simp [inScope, builtInVariables, or_assoc]
  rw [expressionFaults, List.append_eq_nil_iff, List.map_eq_nil_iff, List.map_eq_nil_iff,
    List.filter_eq_nil_iff, List.filter_eq_nil_iff]
  constructor
  · rintro ⟨hroots, hnames⟩ e he
    refine ⟨fun r hr => ?_, fun n hn => ?_⟩
    · have hroot := hroots r.root (mem_referenceRoots.mpr ⟨e, he, r, hr, rfl⟩)
      exact (hscope r.root).mp (by simpa using hroot)
    · simpa using hnames n (mem_functionNames.mpr ⟨e, he, hn⟩)
  · intro h
    refine ⟨fun n hn => ?_, fun n hn => ?_⟩
    · obtain ⟨e, he, r, hr, rfl⟩ := mem_referenceRoots.mp hn
      simpa using (hscope r.root).mpr ((h e he).1 r hr)
    · obtain ⟨e, he, hn⟩ := mem_functionNames.mp hn
      simpa using (h e he).2 n hn

/-- What is checked of a template when a catalog is built. -/
theorem templateFaults_eq_nil {category : Category} {links : List String} {d : TemplateDefinition} :
    templateFaults file category links d = [] ↔ 0 ≤ d.cost ∧
      (InterfaceKind.ofText? d.kind).isSome = true ∧
      (∀ p ∈ d.properties, propertyFaults file d.id links p = []) ∧
      (∀ n, category.nameProperty = some n → ∃ p, d.properties.find? (·.name == n) = some p ∧
        p.type = .string) ∧ expressionFaults file links d = [] := by
  have hcost : decide (d.cost < 0) = false ↔ 0 ≤ d.cost := by
    rw [decide_eq_false_iff_not, Int64.not_lt]
  have hkind : (InterfaceKind.ofText? d.kind).isNone = false ↔
      (InterfaceKind.ofText? d.kind).isSome = true := by
    cases InterfaceKind.ofText? d.kind <;> simp
  have hname : ∀ found : Option PropertyDefinition, (!found.any (·.type == .string)) = false ↔
      ∃ p, found = some p ∧ p.type = .string := by
    intro found
    cases found <;> simp
  simp only [templateFaults, List.append_eq_nil_iff, faultIf_eq_nil, hcost, hkind,
    List.flatMap_eq_nil_iff, and_assoc]
  cases category.nameProperty with
  | none => simp
  | some n => simp only [faultIf_eq_nil, hname, Option.some_inj, forall_eq']

theorem addTemplate_faults {d : TemplateDefinition} : (c.addTemplate file d).2 = [] ↔
    d.id ∉ c.templates.map (·.id) ∧ c.Faultless file d := by
  have hid : c.template? d.id = none ↔ d.id ∉ c.templates.map (·.id) := by
    simp [template?, List.find?_eq_none]
  constructor
  · intro h
    refine ⟨hid.mp ?_, (addTemplate_of_faultless h).1⟩
    rw [addTemplate] at h
    split at h
    · cases h
    · cases h
    · assumption
  · rintro ⟨hnew, category, hcategory, hfaults⟩
    obtain ⟨kind, hkind⟩ := Option.isSome_iff_exists.mp (templateFaults_eq_nil.mp hfaults).2.1
    rw [addTemplate, hid.mpr hnew, hcategory]
    dsimp only
    rw [category?_name hcategory, hfaults, hkind]

end items

/-! ### All items -/

/-- A run has no fault if and only if no key comes twice and each item is valid,
where that is what one item without a fault comes to. -/
theorem addAll_faults {α κ : Type} (add : Catalog → String → α → Catalog × List Fault)
    (view : List (String × α) → Catalog) (key : String × α → κ) (Valid : String × α → Prop)
    (hadd : ∀ done i, (add (view done) i.1 i.2).2 = [] ↔ key i ∉ done.map key ∧ Valid i)
    (hview : ∀ done i, (add (view done) i.1 i.2).2 = [] →
      (add (view done) i.1 i.2).1 = view (done ++ [i])) :
    ∀ (items done : List (String × α)) (faults : List Fault), (done.map key).Nodup →
      ((addAll add (view done, faults) items).2 = [] ↔
        faults = [] ∧ ((done ++ items).map key).Nodup ∧ ∀ i ∈ items, Valid i) := by
  intro items
  induction items with
  | nil =>
    intro done faults hdone
    simpa [addAll] using fun _ => hdone
  | cons i items ih =>
    intro done faults hdone
    rw [← List.singleton_append, ← List.append_assoc]
    change (addAll add ((add (view done) i.1 i.2).1, faults ++ (add (view done) i.1 i.2).2)
      items).2 = [] ↔ _
    by_cases hi : (add (view done) i.1 i.2).2 = []
    · obtain ⟨hnew, hvalid⟩ := (hadd done i).mp hi
      have hnext : ((done ++ [i]).map key).Nodup := by
        rw [List.map_append]
        exact hdone.append (List.nodup_singleton _) (by simpa using hnew)
      rw [hview done i hi, hi, List.append_nil, ih (done ++ [i]) faults hnext]
      simp [hvalid]
    · -- The fault stays, and the item is not valid or its key is not new.
      refine iff_of_false (fun h => ?_) fun ⟨_, hnodup, hvalid⟩ => hi ((hadd done i).mpr ⟨?_, ?_⟩)
      · have hstart := (addAll_induction_of_faultless (P := fun _ _ => True)
          (fun _ _ _ _ _ => trivial) h).1
        exact hi (List.append_eq_nil_iff.mp hstart).2
      · rw [List.map_append, List.map_append] at hnodup
        have hdisjoint := List.disjoint_of_nodup_append (List.nodup_append.mp hnodup).1
        exact fun hmem => hdisjoint hmem (List.mem_singleton_self _)
      · exact hvalid i List.mem_cons_self

theorem addAll_addCategory_faults {items : List (String × CategoryDefinition)} :
    (addAll addCategory ({}, []) items).2 = [] ↔
      (items.map (·.2.name)).Nodup ∧ ∀ i ∈ items, i.2.Valid := by
  have h := addAll_faults addCategory (fun done => { categories := done.map (·.2.category) })
    (·.2.name) (·.2.Valid) (fun done i => ?_) (fun done i hi => ?_) items [] [] List.nodup_nil
  · simpa using h
  · rw [addCategory_faults, List.map_map]
    rfl
  · rw [addCategory_of_faultless hi, List.map_append]
    rfl

theorem addAll_addRule_faults {start : Catalog × List Fault} (hstart : start.1.rules = [])
    {items : List (String × RuleDefinition)} : (addAll addRule start items).2 = [] ↔
      start.2 = [] ∧ (items.map fun i => (i.2.source, i.2.target)).Nodup ∧
        ∀ i ∈ items, i.2.Valid (start.1.categories.map (·.name)) := by
  have h := addAll_faults addRule (fun done => { start.1 with rules := done.map (·.2.rule) })
    (fun i => (i.2.source, i.2.target)) (·.2.Valid (start.1.categories.map (·.name)))
    (fun done i => ?_) (fun done i hi => ?_) items [] start.2 List.nodup_nil
  · have hview : (({ start.1 with rules := [] }, start.2) : Catalog × List Fault) = start := by
      rw [← hstart]
    simpa [hview] using h
  · rw [addRule_faults, ruleFaults_eq_nil, and_comm, List.map_map]
    rfl
  · rw [addRule_of_faultless hi, List.map_append]
    rfl

theorem addAll_addTemplate_faults {start : Catalog × List Fault} (hstart : start.1.templates = [])
    {items : List (String × TemplateDefinition)} : (addAll addTemplate start items).2 = [] ↔
      start.2 = [] ∧ (items.map (·.2.id)).Nodup ∧ ∀ i ∈ items, start.1.Faultless i.1 i.2 := by
  have h := addAll_faults addTemplate
    (fun done => { start.1 with templates := done.map fun i => i.2.template i.1 start.1 })
    (·.2.id) (fun i => start.1.Faultless i.1 i.2)
    (fun done i => ?_) (fun done i hi => ?_) items [] start.2 List.nodup_nil
  · have hview : (({ start.1 with templates := [] }, start.2) : Catalog × List Fault) = start := by
      rw [← hstart]
    simpa [hview] using h
  · rw [addTemplate_faults, List.map_map]
    rfl
  · rw [(addTemplate_of_faultless hi).2, List.map_append]
    rfl

/-- The categories bring no rules. -/
theorem rules_addAll_addCategory (items : List (String × CategoryDefinition)) :
    (addAll addCategory ({}, []) items).1.rules = [] := by
  refine addAll_induction (P := fun c => c.rules = []) items (fun c i _ h => ?_) rfl
  rw [addCategory]
  split
  · exact h
  · split <;> exact h

/-- **Which files make a catalog.** -/
theorem exists_build_iff {files : List (String × Definitions)} : (∃ c, build files = .ok c) ↔
    (((itemsOf files (·.categories)).map (·.2.name)).Nodup ∧
      ∀ i ∈ itemsOf files (·.categories), i.2.Valid) ∧
    (((itemsOf files (·.rules)).map fun i => (i.2.source, i.2.target)).Nodup ∧
      ∀ i ∈ itemsOf files (·.rules), i.2.Valid ((itemsOf files (·.categories)).map (·.2.name))) ∧
    ((itemsOf files (·.templates)).map (·.2.id)).Nodup ∧
      ∀ i ∈ itemsOf files (·.templates), (declared files).Faultless i.1 i.2 := by
  have hbuild : (∃ c, build files = .ok c) ↔ (addAll addTemplate (addAll addRule
      (addAll addCategory ({}, []) (itemsOf files (·.categories))) (itemsOf files (·.rules)))
      (itemsOf files (·.templates))).2 = [] := by
    rw [build, ← List.isEmpty_iff]
    dsimp only
    split <;> simp_all
  -- What comes before the rules and before the templates is known once it has no fault.
  have hcategories : ∀ h : (addAll addCategory ({}, []) (itemsOf files (·.categories))).2 = [],
      (addAll addCategory ({}, []) (itemsOf files (·.categories))).1 =
        { categories := (declared files).categories } := by
    intro h
    rw [(addAll_addCategory h).2]
    rfl
  have hnames : (declared files).categories.map (·.name) =
      (itemsOf files (·.categories)).map (·.2.name) := by
    rw [declared, List.map_map]
    rfl
  rw [hbuild, addAll_addTemplate_faults (templates_addAll_addRule files),
    addAll_addRule_faults (rules_addAll_addCategory _), ← addAll_addCategory_faults, and_assoc]
  refine and_congr_right fun hfaults => ?_
  rw [hcategories hfaults, hnames]
  refine and_congr_right fun hvalid => ?_
  have hrules := (addAll_addRule_faults (rules_addAll_addCategory _)).mpr
    ⟨hfaults, hvalid.1, (hcategories hfaults ▸ hnames ▸ hvalid.2)⟩
  have hstart : (addAll addRule (addAll addCategory ({}, []) (itemsOf files (·.categories)))
      (itemsOf files (·.rules))).1 = declared files := by
    rw [(addAll_addRule hrules).2, hcategories hfaults]
    rfl
  rw [hstart]

/-! ### Templates of coherent files -/

section templates

variable {files : List (String × Definitions)} {file : String} {d : TemplateDefinition}

theorem category?_declared (hnames : ((itemsOf files (·.categories)).map (·.2.name)).Nodup)
    {name : String} {k : Category} : (declared files).category? name = some k ↔
      ∃ i ∈ itemsOf files (·.categories), i.2.category = k ∧ i.2.name = name := by
  have hnodup : ((declared files).categories.map (·.name)).Nodup := by
    rw [declared, List.map_map]
    exact hnames
  rw [category?, find?_name_eq_some hnodup, declared, List.mem_map]
  constructor
  · rintro ⟨⟨i, hi, rfl⟩, hname⟩
    exact ⟨i, hi, rfl, hname⟩
  · rintro ⟨i, hi, rfl, hname⟩
    exact ⟨⟨i, hi, rfl⟩, hname⟩

/-- **What is checked of a template**, when its file was read and when the
catalog is built. -/
theorem faultless_declared_iff (hnames : ((itemsOf files (·.categories)).map (·.2.name)).Nodup)
    (hproperties : (d.properties.map (·.name)).Nodup)
    (haccepted : ∀ p ∈ d.properties, p.type ∈ ValueType.supported ∧
      ∀ v, p.default = some v → v.conforms p.type = true) :
    (declared files).Faultless file d ↔
      d.Valid ((itemsOf files (·.categories)).map (·.2))
        ((declared files).linkNames d.category) ∧
      expressionFaults file ((declared files).linkNames d.category) d = [] := by
  -- A category gives the property for its name only if it is named.
  have hproperty : ∀ k : CategoryDefinition, ∀ n, k.category.nameProperty = some n ↔
      k.named = true ∧ k.nameProperty = n := by
    intro k n
    simp [CategoryDefinition.category]
  constructor
  · rintro ⟨k, hk, hfaults⟩
    obtain ⟨hcost, hkind, hvalid, hnamed, hexpressions⟩ := templateFaults_eq_nil.mp hfaults
    obtain ⟨i, hi, rfl, hname⟩ := (category?_declared hnames).mp hk
    refine ⟨⟨?_, hcost, hkind, hproperties, fun p hp => ?_, fun k' hk' hname' hnamed' => ?_⟩,
      hexpressions⟩
    · rw [List.map_map]
      exact List.mem_map.mpr ⟨i, hi, hname⟩
    · obtain ⟨hcheck, hdefault, honeOf, hshadow⟩ := propertyFaults_eq_nil.mp (hvalid p hp)
      obtain ⟨htype, hconforms⟩ := haccepted p hp
      exact ⟨htype, hdefault, hconforms, hcheck, honeOf, hshadow⟩
    · obtain ⟨j, hj, rfl⟩ := List.mem_map.mp hk'
      obtain rfl : j = i := List.inj_on_of_nodup_map hnames hj hi (hname'.trans hname.symm)
      obtain ⟨p, hp, htype⟩ := hnamed _ ((hproperty j.2 _).mpr ⟨hnamed', rfl⟩)
      obtain ⟨hp, hpname⟩ := (find?_name_eq_some hproperties).mp hp
      exact ⟨p, hp, hpname, htype⟩
  · rintro ⟨hvalid, hexpressions⟩
    obtain ⟨k, hk, hname⟩ := List.mem_map.mp hvalid.category
    obtain ⟨i, hi, rfl⟩ := List.mem_map.mp hk
    refine ⟨i.2.category, (category?_declared hnames).mpr ⟨i, hi, rfl, hname⟩, ?_⟩
    refine templateFaults_eq_nil.mpr ⟨hvalid.cost, hvalid.kind, fun p hp => ?_, fun n hn => ?_,
      hexpressions⟩
    · obtain ⟨_, hdefault, _, hcheck, honeOf, hshadow⟩ := hvalid.properties p hp
      exact propertyFaults_eq_nil.mpr ⟨hcheck, hdefault, honeOf, hshadow⟩
    · obtain ⟨hnamed, rfl⟩ := (hproperty i.2 n).mp hn
      obtain ⟨p, hp, hpname, htype⟩ := hvalid.named i.2 hk hname hnamed
      exact ⟨p, (find?_name_eq_some hproperties).mpr ⟨hp, hpname⟩, htype⟩

/-- **Coherent files make a catalog** if their templates read what is in scope
and call functions that exist. -/
theorem exists_build (h : Coherent files) (hscope : InScope files) :
    ∃ c, build files = .ok c := by
  refine exists_build_iff.mpr ⟨⟨h.categoryNames, h.categories⟩, ⟨h.ruleEnds, h.rules⟩,
    h.templateIds, fun i hi => ?_⟩
  have hvalid := h.templates i hi
  refine (faultless_declared_iff h.categoryNames hvalid.names fun p hp => ?_).mpr ⟨hvalid, ?_⟩
  · exact ⟨(hvalid.properties p hp).type, (hvalid.properties p hp).conforms⟩
  · refine expressionFaults_eq_nil.mpr fun e he => ⟨(hscope i hi e he).1, fun n hn => ?_⟩
    exact (hscope i hi e he).2 n (Expr.calls_of_mem_calledFunctions hn)

/-- **Files that make a catalog are coherent**, if they were read. -/
theorem coherent_of_build (hread : ∀ f ∈ files, ∃ b, Definitions.read b = .ok f.2) {c : Catalog}
    (h : build files = .ok c) : Coherent files := by
  obtain ⟨⟨hnames, hcategories⟩, ⟨hends, hrules⟩, hids, hfaultless⟩ := exists_build_iff.mp ⟨c, h⟩
  refine ⟨hnames, hcategories, hends, hrules, hids, fun i hi => ?_⟩
  obtain ⟨f, hf, hi'⟩ := List.mem_flatMap.mp hi
  obtain ⟨t, ht, rfl⟩ := List.mem_map.mp hi'
  obtain ⟨b, hb⟩ := hread f hf
  obtain ⟨haccepted, hproperties⟩ := Definitions.accepted_read hb t ht
  refine ((faultless_declared_iff hnames hproperties fun p hp => ?_).mp (hfaultless _ hi)).1
  exact (haccepted p hp).conforms

end templates

end Catalog

end SolidityCanvas
