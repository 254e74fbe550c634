/-
What building a catalog promises.

A catalog is built item by item, and what one item preserves is preserved by
all (`addAll_induction`).  Categories come before templates, so that a template
has its category from the catalog itself: `categoriesAgree_of_build`.
-/
import SolidityCanvas.Catalog.Basic

namespace SolidityCanvas

namespace Catalog

/-- The category of a template is the one that the catalog has under its
name. -/
def CategoriesAgree (c : Catalog) : Prop :=
  ∀ t ∈ c.templates, c.category? t.category.name = some t.category

/-- What holds at the start and is preserved by each item holds at the end. -/
theorem addAll_induction {α : Type} {add : Catalog → String → α → Catalog × List Config.Fault}
    {P : Catalog → Prop} (items : List (String × α))
    (hadd : ∀ c, ∀ i ∈ items, P c → P (add c i.1 i.2).1) :
    ∀ {start : Catalog × List Config.Fault}, P start.1 → P (addAll add start items).1 := by
  induction items with
  | nil => exact fun h => h
  | cons item rest ih =>
    intro start h
    exact ih (fun c i hi => hadd c i (List.mem_cons_of_mem _ hi))
      (hadd _ item List.mem_cons_self h)

theorem addCategory_templates (c : Catalog) (file : String) (d : CategoryDefinition) :
    (c.addCategory file d).1.templates = c.templates := by
  rw [addCategory]
  split
  · rfl
  · split <;> rfl

theorem addRule_templates (c : Catalog) (file : String) (d : RuleDefinition) :
    (c.addRule file d).1.templates = c.templates := by
  rw [addRule]
  split <;> rfl

/-- What adding a template can do: nothing, or it comes last, with a category
of the catalog. -/
theorem addTemplate_cases (c : Catalog) (file : String) (d : TemplateDefinition) :
    (c.addTemplate file d).1 = c ∨ ∃ category t, c.category? d.category = some category ∧
      t.category = category ∧ t.properties = d.properties.map property ∧
      (c.addTemplate file d).1 = { c with templates := c.templates ++ [t] } := by
  rw [addTemplate]
  split
  · exact Or.inl rfl
  · exact Or.inl rfl
  · rename_i category _ hcategory
    dsimp only
    split
    · exact Or.inr ⟨category, _, hcategory, rfl, rfl, rfl⟩
    · exact Or.inl rfl

theorem CategoriesAgree.addTemplate {c : Catalog} (h : c.CategoriesAgree) (file : String)
    (d : TemplateDefinition) : (c.addTemplate file d).1.CategoriesAgree := by
  rcases addTemplate_cases c file d with heq | ⟨category, t, hcategory, rfl, _, heq⟩
  · rwa [heq]
  · rw [heq]
    intro t' ht'
    rcases List.mem_append.mp ht' with ht' | ht'
    · exact h t' ht'
    · rw [List.mem_singleton.mp ht']
      have hname : t.category.name = d.category := by simpa using List.find?_some hcategory
      rw [hname]
      exact hcategory

/-- Before the first template there is none. -/
theorem templates_addAll_addRule (files : List (String × Definitions)) :
    (addAll addRule (addAll addCategory ({}, []) (itemsOf files (·.categories)))
      (itemsOf files (·.rules))).1.templates = [] := by
  refine addAll_induction (P := fun c => c.templates = []) _ ?_ ?_
  · intro c d _ h
    rw [addRule_templates, h]
  · refine addAll_induction (P := fun c => c.templates = []) _ ?_ rfl
    intro c d _ h
    rw [addCategory_templates, h]

/-- A catalog that was built without a fault is what the last template left. -/
theorem build_eq_ok {files : List (String × Definitions)} {c : Catalog}
    (h : build files = .ok c) :
    ∃ start : Catalog × List Config.Fault, start.1.templates = [] ∧
      c = (addAll addTemplate start (itemsOf files (·.templates))).1 := by
  rw [build] at h
  dsimp only at h
  split at h
  · exact ⟨_, templates_addAll_addRule files, (Except.ok.inj h).symm⟩
  · cases h

/-- **In a catalog that was built, a template has its category from the
catalog.** -/
theorem categoriesAgree_of_build {files : List (String × Definitions)} {c : Catalog}
    (h : build files = .ok c) : c.CategoriesAgree := by
  obtain ⟨start, hempty, rfl⟩ := build_eq_ok h
  refine addAll_induction _ (fun c d _ h => h.addTemplate d.1 d.2) ?_
  intro t ht
  rw [hempty] at ht
  exact absurd ht List.not_mem_nil

/-- Templates of categories with one name have one category. -/
theorem CategoriesAgree.category_eq {c : Catalog} (h : c.CategoriesAgree) {t u : Template}
    (ht : t ∈ c.templates) (hu : u ∈ c.templates) (hname : t.category.name = u.category.name) :
    t.category = u.category := by
  have ht := h t ht
  rw [hname, h u hu] at ht
  exact (Option.some.inj ht).symm

/-! ### A small catalog -/

/-- A template that writes its first property. -/
def sampleTemplate (id : String) (properties : List PropertyDefinition) : TemplateDefinition where
  id
  category := id
  description := ""
  cost := 1
  kind := ""
  properties
  imports := .null
  inherits := .null
  declares := .null
  emit := .reference ((properties.head?.map (·.name)).getD "id") []

/-- Records that declare types, variables that mention them, functions that
come after the variables and functions they use, and a single body that runs
first. -/
def sampleFiles : List (String × Definitions) :=
  let text (name check : String) : PropertyDefinition := ⟨name, .string, true, none, check, [], ""⟩
  [("sample", {
    categories := [
      ⟨"record", "definitions", "types", true, "name", false, true⟩,
      ⟨"variable", "state", "members", true, "name", false, false⟩,
      ⟨"function", "functions", "members", true, "name", false, false⟩,
      ⟨"creation", "constructor", "", false, "", true, false⟩]
    rules := [
      ⟨"variable", "function", "forward", "", ""⟩,
      ⟨"function", "function", "reverse", "", ""⟩]
    templates := [
      sampleTemplate "record" [text "name" "identifier", text "fields" "fields"],
      sampleTemplate "variable" [text "name" "identifier", text "type" "type"],
      sampleTemplate "function" [text "name" "identifier"],
      sampleTemplate "creation" [text "body" ""]] })]

/-- The catalog of these definitions. -/
def sample : Catalog := ((build sampleFiles).toOption).getD {}

theorem build_sampleFiles : build sampleFiles = .ok sample := rfl

end Catalog

end SolidityCanvas
