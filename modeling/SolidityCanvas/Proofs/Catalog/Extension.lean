/-
Catalogs with more files.

A pack adds files to those of a catalog.  What was there stays: the rules are
found as before, and so are the templates, except that the rules of the pack
may give them further links (`Catalog.relink`).  None of these has the name of
a property, and no expression of an old template reads them, since the files
alone were a catalog already:

* `Catalog.extends_of_ofFiles`: the catalog with the pack extends the one
  without it.
-/
import SolidityCanvas.Catalog.Load
import SolidityCanvas.Proofs.Catalog.Contents
import SolidityCanvas.Proofs.Catalog.Schema
import SolidityCanvas.Proofs.Catalog.Scope

namespace SolidityCanvas

open Config

namespace Catalog

variable {c c' : Catalog} {base pack : List (String × Definitions)}

/-- A template with the links that a catalog gives to its category. -/
def relink (c : Catalog) (t : Template) : Template :=
  { t with links := c.linkNames t.category.name }

/-- The second catalog has what the first one has, where templates may receive
further links.  These have the names of no properties. -/
structure Extends (c c' : Catalog) : Prop where
  rule : ∀ {a b r}, c.rule? a b = some r → c'.rule? a b = some r
  template : ∀ {id t}, c.template? id = some t → c'.template? id = some (c'.relink t)
  links_eq : ∀ t ∈ c.templates, t.links = c.linkNames t.category.name
  links_subset : ∀ t ∈ c.templates, t.links ⊆ (c'.relink t).links
  unshadowed : ∀ t ∈ c.templates, ∀ p ∈ t.properties,
    p.name ∉ (c'.relink t).links ∧ p.name ≠ "id"
  reads : ∀ t ∈ c.templates, ∀ e ∈ [t.emit, t.imports, t.inherits, t.declares],
    ∀ r ∈ e.references, r.root ∈ t.properties.map (·.name) ∨ r.root ∈ t.links ∨ r.root = "id"

/-! ### Look-ups -/

theorem itemsOf_append {α : Type} (items : Definitions → List α) :
    itemsOf (base ++ pack) items = itemsOf base items ++ itemsOf pack items :=
  List.flatMap_append

theorem Made.category?_of_append (h : Made base c) (h' : Made (base ++ pack) c') {name : String}
    {category : Category} (hfind : c.category? name = some category) :
    c'.category? name = some category := by
  rw [category?, h.categories] at hfind
  rw [category?, h'.categories, itemsOf_append, List.map_append, List.find?_append, hfind]
  rfl

theorem Made.rule?_of_append (h : Made base c) (h' : Made (base ++ pack) c') {a b : String}
    {r : Rule} (hfind : c.rule? a b = some r) : c'.rule? a b = some r := by
  rw [rule?, h.rules] at hfind
  rw [rule?, h'.rules, itemsOf_append, List.map_append, List.find?_append, hfind]
  rfl

theorem Made.linkNames_subset (h : Made base c) (h' : Made (base ++ pack) c')
    (category : String) : c.linkNames category ⊆ c'.linkNames category := by
  intro l hl
  have hrules : c.rules ⊆ c'.rules := by
    rw [h.rules, h'.rules, itemsOf_append, List.map_append]
    exact List.subset_append_left _ _
  rw [linkNames, Text.mem_sortedDistinct, List.mem_map] at hl ⊢
  obtain ⟨r, hr, rfl⟩ := hl
  obtain ⟨hmem, hgives⟩ := List.mem_filter.mp hr
  exact ⟨r, List.mem_filter.mpr ⟨hrules hmem, hgives⟩, rfl⟩

/-- What a definition makes with the pack is what it made without it, but for
the links. -/
theorem template_eq_relink (h : Made base c) (h' : Made (base ++ pack) c') {file : String}
    {d : TemplateDefinition} (hd : c.Faultless file d) :
    d.template file c' = c'.relink (d.template file c) := by
  obtain ⟨category, hcategory, _⟩ := hd
  have hcategory' := h.category?_of_append h' hcategory
  have hname := category?_name hcategory
  simp only [TemplateDefinition.template, relink, hcategory, hcategory', Option.getD_some, hname]

theorem Made.template?_of_append (h : Made base c) (h' : Made (base ++ pack) c') {id : String}
    {t : Template} (hfind : c.template? id = some t) :
    c'.template? id = some (c'.relink t) := by
  rw [template?, h.templates, List.find?_map, Option.map_eq_some_iff] at hfind
  obtain ⟨⟨file, d⟩, hfind, rfl⟩ := hfind
  rw [template?, h'.templates, itemsOf_append, List.map_append, List.find?_append, List.find?_map]
  -- Templates are found by the ids of their definitions, which are the same in both.
  have hid : ((fun t : Template => t.id == id) ∘ fun i : String × TemplateDefinition =>
      i.2.template i.1 c') = (fun t : Template => t.id == id) ∘ fun i => i.2.template i.1 c := rfl
  rw [hid, hfind, Option.map_some, Option.some_or,
    template_eq_relink h h' (h.faultless _ (List.mem_of_find?_eq_some hfind))]

/-! ### Packs -/

theorem notMem_links_of_faultless {file : String} {d : TemplateDefinition}
    (hd : c.Faultless file d) {p : PropertyDefinition} (hp : p ∈ d.properties) :
    p.name ∉ c.linkNames d.category ∧ p.name ≠ "id" := by
  obtain ⟨category, _, hfaults⟩ := hd
  simp only [templateFaults, List.append_eq_nil_iff, List.flatMap_eq_nil_iff] at hfaults
  have hproperty := hfaults.1.1.2 p hp
  simp only [propertyFaults, List.append_eq_nil_iff, faultIf] at hproperty
  simpa [builtInVariables] using hproperty.2

theorem Made.extends_of_append (h : Made base c) (h' : Made (base ++ pack) c') :
    c.Extends c' := by
  have hmem : ∀ t ∈ c.templates, ∃ i ∈ itemsOf base (·.templates), i.2.template i.1 c = t := by
    intro t ht
    rw [h.templates] at ht
    exact List.mem_map.mp ht
  refine ⟨h.rule?_of_append h', h.template?_of_append h', fun t ht => h.links_eq ht,
    fun t ht => ?_, fun t ht p hp => ?_, fun t ht e he r hr => ?_⟩
  · obtain ⟨i, hi, rfl⟩ := hmem t ht
    rw [relink, h.category_name hi]
    exact h.linkNames_subset h' i.2.category
  · obtain ⟨i, hi, rfl⟩ := hmem t ht
    obtain ⟨q, hq, rfl⟩ := List.mem_map.mp hp
    rw [relink, h.category_name hi]
    -- The template was checked once more with the links that the pack adds.
    refine notMem_links_of_faultless (h'.faultless i ?_) hq
    rw [itemsOf_append]
    exact List.mem_append_left _ hi
  · obtain ⟨file, d, hd⟩ := h.exists_checkedAs ht
    exact hd.inScope_iff.mp (hd.inScope_root he hr)

/-! ### Files -/

/-- The definitions of a file that was read. -/
theorem read_of_mapM (textOf : String → String → String) :
    ∀ {files : List (String × String)} {defined : List (String × Definitions)},
      (files.mapM fun (name, text) => do
        let d ← readFile name (textOf name text)
        return (name, d)) = .ok defined →
      ∀ f ∈ defined, ∃ b, Definitions.read b = .ok f.2 := by
  intro files
  induction files with
  | nil =>
    intro defined h f hf
    obtain rfl := Except.ok.inj h
    exact absurd hf List.not_mem_nil
  | cons file files ih =>
    intro defined h
    rw [List.mapM_cons] at h
    obtain ⟨first, hfirst, h⟩ := except_bind_eq_ok.mp h
    obtain ⟨rest, hrest, h⟩ := except_bind_eq_ok.mp h
    obtain rfl := Except.ok.inj h
    obtain ⟨d, hd, hfirst⟩ := except_bind_eq_ok.mp hfirst
    obtain rfl := Except.ok.inj hfirst
    refine List.forall_mem_cons.mpr ⟨?_, ih hrest⟩
    rw [readFile] at hd
    split at hd
    · cases hd
    · exact ⟨_, mapError_eq_ok.mp hd⟩

theorem sound_of_ofFiles {files : List (String × String)} (h : ofFiles files = .ok c) :
    c.Sound := by
  obtain ⟨defined, hread, hbuild⟩ := except_bind_eq_ok.mp h
  have hread := read_of_mapM (fun name text => (files.lookup name).getD text) hread
  exact sound_of_build hread (mapError_eq_ok.mp hbuild)

theorem categoriesAgree_of_ofFiles {files : List (String × String)} (h : ofFiles files = .ok c) :
    c.CategoriesAgree := by
  obtain ⟨_, _, hbuild⟩ := except_bind_eq_ok.mp h
  exact categoriesAgree_of_build (mapError_eq_ok.mp hbuild)

/-- Files that are added change nothing about those before them, not even where
they repeat a name. -/
theorem readFiles_append {files more : List (String × String)}
    {defined : List (String × Definitions)} (h : readFiles (files ++ more) = .ok defined) :
    ∃ first rest, readFiles files = .ok first ∧ defined = first ++ rest := by
  rw [readFiles, List.mapM_append] at h
  obtain ⟨first, hfirst, h⟩ := except_bind_eq_ok.mp h
  obtain ⟨rest, _, h⟩ := except_bind_eq_ok.mp h
  obtain rfl := Except.ok.inj h
  refine ⟨first, rest, ?_, rfl⟩
  rw [← hfirst, readFiles]
  refine mapM_congr fun (name, text) hfile => ?_
  have hsome : (files.lookup name).isSome :=
    List.lookup_isSome_iff.mpr ⟨(name, text), hfile, beq_self_eq_true _⟩
  obtain ⟨found, hfound⟩ := Option.isSome_iff_exists.mp hsome
  dsimp only
  rw [List.lookup_append, hfound, Option.some_or]

/-- **A catalog with a pack extends the one without it.** -/
theorem extends_of_ofFiles {files more : List (String × String)} (h : ofFiles files = .ok c)
    (h' : ofFiles (files ++ more) = .ok c') : c.Extends c' := by
  obtain ⟨defined, hread, h⟩ := except_bind_eq_ok.mp h
  obtain ⟨defined', hread', h'⟩ := except_bind_eq_ok.mp h'
  obtain ⟨first, rest, hfirst, rfl⟩ := readFiles_append hread'
  obtain rfl := Except.ok.inj (hread.symm.trans hfirst)
  exact (made_of_build (mapError_eq_ok.mp h)).extends_of_append
    (made_of_build (mapError_eq_ok.mp h'))

end Catalog

end SolidityCanvas
