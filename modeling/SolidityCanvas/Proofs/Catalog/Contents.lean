/-
What a catalog that was built holds.

Building goes item by item and skips what has a fault.  A catalog that comes
out has skipped nothing, and then it can be said without the walk what it
holds (`made_of_build`): the categories, rules and templates of the files, in
their order.  Categories and rules are made from their definitions alone.  A
template also takes its category and its links from the finished catalog, and
was checked against these.
-/
import SolidityCanvas.Proofs.Catalog.Build
import SolidityCanvas.Proofs.Text.Distinct

namespace SolidityCanvas

open Config

/-! ### What definitions make -/

/-- The category that a definition makes. -/
def CategoryDefinition.category (d : CategoryDefinition) : Category where
  name := d.name
  zone := (Section.ofText? d.zone).getD .definitions
  nameSpace := d.nameSpace
  singleton := d.singleton
  providesType := d.providesType
  nameProperty := if d.named then some d.nameProperty else none

/-- The rule that a definition makes. -/
def RuleDefinition.rule (d : RuleDefinition) : Rule where
  source := d.source
  target := d.target
  order := (Order.ofText? d.order).getD .unordered
  link := d.link
  meaning := d.meaning

/-- The template that a definition makes in a catalog. -/
def TemplateDefinition.template (d : TemplateDefinition) (file : String) (c : Catalog) :
    Template where
  id := d.id
  category := (c.category? d.category).getD default
  description := d.description
  cost := d.cost
  kind := (InterfaceKind.ofText? d.kind).getD .hidden
  properties := d.properties.map Catalog.property
  links := c.linkNames d.category
  imports := d.imports
  inherits := d.inherits
  declares := d.declares
  emit := d.emit
  file

namespace Catalog

variable {c : Catalog} {file : String}

/-- The links of a category are those of its rules. -/
theorem mem_linkNames {category l : String} : l ∈ c.linkNames category ↔
    l ≠ "" ∧ ∃ r ∈ c.rules, r.dependent = category ∧ r.link = l := by
  simp only [linkNames, Text.mem_sortedDistinct, List.mem_map, List.mem_filter, Bool.and_eq_true,
    Bool.not_eq_true', String.isEmpty_eq_false_iff, beq_iff_eq]
  constructor
  · rintro ⟨r, ⟨hr, hlink, hdependent⟩, rfl⟩
    exact ⟨hlink, r, hr, hdependent, rfl⟩
  · rintro ⟨hlink, r, hr, hdependent, rfl⟩
    exact ⟨r, ⟨hr, hlink, hdependent⟩, rfl⟩

/-! ### One item -/

theorem addCategory_of_faultless {d : CategoryDefinition} (h : (c.addCategory file d).2 = []) :
    (c.addCategory file d).1 = { c with categories := c.categories ++ [d.category] } := by
  rw [addCategory] at h ⊢
  split at h
  · cases h
  rw [if_neg ‹_›]
  split at h
  · rename_i zone _ hzone
    simp only [CategoryDefinition.category, hzone, Option.getD_some]
  · -- Without a fault the section is known.
    rename_i hnot
    simp only at h
    cases hzone : Section.ofText? d.zone with
    | some zone => exact absurd hzone (hnot zone h)
    | none => simp [categoryFaults, faultIf, hzone] at h

theorem addRule_of_faultless {d : RuleDefinition} (h : (c.addRule file d).2 = []) :
    (c.addRule file d).1 = { c with rules := c.rules ++ [d.rule] } := by
  rw [addRule] at h ⊢
  split at h
  · rename_i order _ horder
    simp only [RuleDefinition.rule, horder, Option.getD_some]
  · rename_i hnot
    simp only at h
    cases horder : Order.ofText? d.order with
    | some order => exact absurd horder (hnot order h)
    | none => simp [ruleFaults, faultIf, horder] at h

/-- The definition has no fault in a catalog. -/
def Faultless (c : Catalog) (file : String) (d : TemplateDefinition) : Prop :=
  ∃ category, c.category? d.category = some category ∧
    templateFaults file category (c.linkNames d.category) d = []

theorem category?_name {name : String} {category : Category}
    (h : c.category? name = some category) : category.name = name := by
  simpa using List.find?_some h

theorem addTemplate_of_faultless {d : TemplateDefinition} (h : (c.addTemplate file d).2 = []) :
    c.Faultless file d ∧
      (c.addTemplate file d).1 = { c with templates := c.templates ++ [d.template file c] } := by
  rw [addTemplate] at h ⊢
  split at h
  · cases h
  · cases h
  rename_i category _ hcategory
  dsimp only at h ⊢
  rw [category?_name hcategory] at h ⊢
  split at h
  · rename_i kind hfaults hkind
    refine ⟨⟨category, hcategory, hfaults⟩, ?_⟩
    simp only [TemplateDefinition.template, hcategory, hkind, Option.getD_some]
  · rename_i hnot
    simp only at h
    cases hkind : InterfaceKind.ofText? d.kind with
    | some kind => exact absurd hkind (hnot kind h)
    | none => simp [templateFaults, faultIf, hkind] at h

/-! ### Item after item -/

/-- What each item without a fault preserves holds at the end, if there is no
fault at the end.  It may speak of the items that were added. -/
theorem addAll_induction_of_faultless {α : Type}
    {add : Catalog → String → α → Catalog × List Fault}
    {P : List (String × α) → Catalog → Prop}
    (hadd : ∀ done c i, (add c i.1 i.2).2 = [] → P done c → P (done ++ [i]) (add c i.1 i.2).1)
    {start : Catalog × List Fault} {items : List (String × α)}
    (hfaults : (addAll add start items).2 = []) :
    start.2 = [] ∧ (P [] start.1 → P items (addAll add start items).1) := by
  have hgo : ∀ (items done : List (String × α)) (start : Catalog × List Fault),
      (addAll add start items).2 = [] →
        start.2 = [] ∧ (P done start.1 → P (done ++ items) (addAll add start items).1) := by
    intro items
    induction items with
    | nil =>
      intro done start h
      rw [List.append_nil]
      exact ⟨h, id⟩
    | cons i items ih =>
      intro done start h
      -- Faults are collected, so that none at the end means none at any step.
      obtain ⟨hfirst, hrest⟩ := ih (done ++ [i]) _ h
      obtain ⟨hstart, hi⟩ := List.append_eq_nil_iff.mp hfirst
      rw [List.append_assoc, List.singleton_append] at hrest
      exact ⟨hstart, fun hP => hrest (hadd done start.1 i hi hP)⟩
  simpa using hgo items [] start hfaults

theorem addAll_addCategory {start : Catalog × List Fault}
    {items : List (String × CategoryDefinition)} (h : (addAll addCategory start items).2 = []) :
    start.2 = [] ∧ (addAll addCategory start items).1 =
      { start.1 with categories := start.1.categories ++ items.map (·.2.category) } := by
  obtain ⟨hstart, hend⟩ := addAll_induction_of_faultless (P := fun done c => c =
    { start.1 with categories := start.1.categories ++ done.map (·.2.category) }) (by
      rintro done _ i hi rfl
      simp [addCategory_of_faultless hi]) h
  exact ⟨hstart, hend (by simp)⟩

theorem addAll_addRule {start : Catalog × List Fault} {items : List (String × RuleDefinition)}
    (h : (addAll addRule start items).2 = []) :
    start.2 = [] ∧ (addAll addRule start items).1 =
      { start.1 with rules := start.1.rules ++ items.map (·.2.rule) } := by
  obtain ⟨hstart, hend⟩ := addAll_induction_of_faultless (P := fun done c => c =
    { start.1 with rules := start.1.rules ++ done.map (·.2.rule) }) (by
      rintro done _ i hi rfl
      simp [addRule_of_faultless hi]) h
  exact ⟨hstart, hend (by simp)⟩

/-- Templates do not change what others are made of. -/
theorem addAll_addTemplate {start : Catalog × List Fault}
    {items : List (String × TemplateDefinition)} (h : (addAll addTemplate start items).2 = []) :
    start.2 = [] ∧ (∀ i ∈ items, start.1.Faultless i.1 i.2) ∧
      (addAll addTemplate start items).1 = { start.1 with
        templates := start.1.templates ++ items.map fun i => i.2.template i.1 start.1 } := by
  obtain ⟨hstart, hend⟩ := addAll_induction_of_faultless (P := fun done c =>
    (∀ i ∈ done, start.1.Faultless i.1 i.2) ∧ c = { start.1 with
      templates := start.1.templates ++ done.map fun i => i.2.template i.1 start.1 }) (by
      rintro done _ i hi ⟨hdone, rfl⟩
      obtain ⟨hfaultless, heq⟩ := addTemplate_of_faultless hi
      refine ⟨List.forall_mem_append.mpr ⟨hdone, List.forall_mem_singleton.mpr hfaultless⟩, ?_⟩
      rw [heq, List.map_append, ← List.append_assoc]
      rfl) h
  obtain ⟨hfaultless, heq⟩ := hend (by simp)
  exact ⟨hstart, hfaultless, heq⟩

/-- The catalog holds what the definitions of some files make. -/
structure Made (files : List (String × Definitions)) (c : Catalog) : Prop where
  categories : c.categories = (itemsOf files (·.categories)).map (·.2.category)
  rules : c.rules = (itemsOf files (·.rules)).map (·.2.rule)
  templates : c.templates = (itemsOf files (·.templates)).map fun i => i.2.template i.1 c
  faultless : ∀ i ∈ itemsOf files (·.templates), c.Faultless i.1 i.2

/-- The category of a template is the one that its definition names. -/
theorem Made.category_name {files : List (String × Definitions)} (h : Made files c)
    {i : String × TemplateDefinition} (hi : i ∈ itemsOf files (·.templates)) :
    (i.2.template i.1 c).category.name = i.2.category := by
  obtain ⟨category, hcategory, _⟩ := h.faultless i hi
  rw [TemplateDefinition.template, hcategory]
  exact category?_name hcategory

/-- A template receives the links of its category. -/
theorem Made.links_eq {files : List (String × Definitions)} (h : Made files c) {t : Template}
    (ht : t ∈ c.templates) : t.links = c.linkNames t.category.name := by
  rw [h.templates] at ht
  obtain ⟨i, hi, rfl⟩ := List.mem_map.mp ht
  rw [h.category_name hi]
  rfl

/-- **A catalog that was built holds what its files define.** -/
theorem made_of_build {files : List (String × Definitions)} (h : build files = .ok c) :
    Made files c := by
  rw [build] at h
  dsimp only at h
  split at h
  swap
  · cases h
  rename_i hempty
  obtain rfl := Except.ok.inj h
  obtain ⟨hfaults, hfaultless, htemplates⟩ := addAll_addTemplate (List.isEmpty_iff.mp hempty)
  obtain ⟨hfaults, hrules⟩ := addAll_addRule hfaults
  obtain ⟨_, hcategories⟩ := addAll_addCategory hfaults
  rw [hcategories] at hrules
  rw [htemplates]
  refine ⟨?_, ?_, ?_, hfaultless⟩
  · rw [hrules]
    exact List.nil_append _
  · rw [hrules]
    exact List.nil_append _
  · rw [hrules]
    exact List.nil_append _

end Catalog

end SolidityCanvas
