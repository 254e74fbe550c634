/-
The same definitions in another order.

Building a catalog adds one item after another, and an item with a fault is left
out, so that others are found wrong or come to be right.  Which files make a catalog
can be said without this (`Catalog.exists_build_iff`), and then the order of the
files, and that of the blocks of one kind in a file (`Catalog.Reordered`), does not
matter:

* `Reordered.exists_build_iff`: the one list of files makes a catalog exactly
  when the other does;
* `Reordered.alike`: the two catalogs hold the same and find the same
  (`Catalog.Alike`).

What a canvas comes to depends on the templates and the rules that the catalog
finds for it, and on nothing else of the catalog.  Hence compilers whose
catalogs are alike answer every row of calls in the same way
(`Compiler.answers_of_alike`), and it does not matter in which order files and
their blocks were handed over when the catalog was built
(`Compiler.reordered_files`).
-/
import Mathlib.Data.List.Find
import SolidityCanvas.Proofs.Catalog.Coherent
import SolidityCanvas.Proofs.Compiler.Memory

namespace SolidityCanvas

/-- The same definitions, those of each kind in any order. -/
structure Definitions.Reordered (d d' : Definitions) : Prop where
  categories : d.categories.Perm d'.categories
  rules : d.rules.Perm d'.rules
  templates : d.templates.Perm d'.templates

namespace Catalog

variable {files files' : List (String × Definitions)} {c c' : Catalog}

/-- The same files in any order, with the blocks of each kind in any order. -/
def Reordered (files files' : List (String × Definitions)) : Prop :=
  ∃ mid, files.Perm mid ∧ List.Forall₂ (fun f f' => f.1 = f'.1 ∧ f.2.Reordered f'.2) mid files'

/-- The files define the same items, under the same names of files. -/
structure SameItems (files files' : List (String × Definitions)) : Prop where
  categories : (itemsOf files (·.categories)).Perm (itemsOf files' (·.categories))
  rules : (itemsOf files (·.rules)).Perm (itemsOf files' (·.rules))
  templates : (itemsOf files (·.templates)).Perm (itemsOf files' (·.templates))

theorem SameItems.symm (h : SameItems files files') : SameItems files' files :=
  ⟨h.categories.symm, h.rules.symm, h.templates.symm⟩

theorem Reordered.perm_itemsOf {α : Type} {items : Definitions → List α}
    (hitems : ∀ d d' : Definitions, d.Reordered d' → (items d).Perm (items d'))
    (h : Reordered files files') : (itemsOf files items).Perm (itemsOf files' items) := by
  obtain ⟨mid, hperm, hall⟩ := h
  refine (hperm.flatMap fun _ _ => .refl _).trans ?_
  clear hperm
  have hcons : ∀ (f : String × Definitions) (rest : List (String × Definitions)),
      itemsOf (f :: rest) items = (items f.2).map (fun i => (f.1, i)) ++ itemsOf rest items :=
    fun _ _ => rfl
  induction hall with
  | nil => exact .refl _
  | @cons f f' rest rest' hf _ ih =>
    change (itemsOf (f :: rest) items).Perm (itemsOf (f' :: rest') items)
    rw [hcons, hcons, hf.1]
    exact ((hitems _ _ hf.2).map _).append ih

theorem Reordered.sameItems (h : Reordered files files') : SameItems files files' :=
  ⟨h.perm_itemsOf fun _ _ hd => hd.categories, h.perm_itemsOf fun _ _ hd => hd.rules,
    h.perm_itemsOf fun _ _ hd => hd.templates⟩

/-! ### What is found -/

theorem category?_eq_of_perm (h : c.categories.Perm c'.categories)
    (hnodup : (c.categories.map (·.name)).Nodup) (name : String) :
    c.category? name = c'.category? name := by
  refine List.find?_eq_find?_of_perm h ?_
  rintro k ⟨hk, hkname⟩ l ⟨hl, hlname⟩
  rw [beq_iff_eq] at hkname hlname
  exact List.inj_on_of_nodup_map hnodup hk hl (hkname.trans hlname.symm)

theorem rule?_eq_of_perm (h : c.rules.Perm c'.rules)
    (hnodup : (c.rules.map fun r => (r.source, r.target)).Nodup) (source target : String) :
    c.rule? source target = c'.rule? source target := by
  refine List.find?_eq_find?_of_perm h ?_
  rintro r ⟨hr, hrends⟩ s ⟨hs, hsends⟩
  rw [Bool.and_eq_true, beq_iff_eq, beq_iff_eq] at hrends hsends
  refine List.inj_on_of_nodup_map hnodup hr hs ?_
  rw [hrends.1, hrends.2, hsends.1, hsends.2]

theorem template?_eq_of_perm (h : c.templates.Perm c'.templates)
    (hnodup : (c.templates.map (·.id)).Nodup) (id : String) : c.template? id = c'.template? id := by
  refine List.find?_eq_find?_of_perm h ?_
  rintro t ⟨ht, htid⟩ u ⟨hu, huid⟩
  rw [beq_iff_eq] at htid huid
  exact List.inj_on_of_nodup_map hnodup ht hu (htid.trans huid.symm)

/-- Links are sorted, so that the order of the rules does not matter. -/
theorem linkNames_eq_of_perm (h : c.rules.Perm c'.rules) (category : String) :
    c.linkNames category = c'.linkNames category :=
  Text.sortedDistinct_congr fun _ => ((h.filter _).map _).mem_iff

/-! ### Which files make a catalog -/

/-- A template has no fault in the one catalog if it has none in the other. -/
theorem Faultless.congr {file : String} {d : TemplateDefinition} (h : c.Faultless file d)
    (hcategory : ∀ name, c.category? name = c'.category? name)
    (hlinks : ∀ category, c.linkNames category = c'.linkNames category) : c'.Faultless file d := by
  obtain ⟨category, hfound, hfaults⟩ := h
  exact ⟨category, hcategory _ ▸ hfound, hlinks _ ▸ hfaults⟩

theorem SameItems.exists_build (h : SameItems files files') (hbuild : ∃ c, build files = .ok c) :
    ∃ c, build files' = .ok c := by
  obtain ⟨⟨hnames, hcategories⟩, ⟨hends, hrules⟩, hids, hfaultless⟩ := exists_build_iff.mp hbuild
  have hdeclared : (declared files).categories.Perm (declared files').categories :=
    h.categories.map _
  have hnodup : ((declared files).categories.map (·.name)).Nodup := by
    rw [declared, List.map_map]
    exact hnames
  refine exists_build_iff.mpr ⟨⟨?_, fun i hi => ?_⟩, ⟨?_, fun i hi => ?_⟩, ?_, fun i hi => ?_⟩
  · exact (h.categories.map _).nodup_iff.mp hnames
  · exact hcategories i (h.categories.mem_iff.mpr hi)
  · exact (h.rules.map _).nodup_iff.mp hends
  · have hvalid := hrules i (h.rules.mem_iff.mpr hi)
    have hmem : ∀ name, name ∈ (itemsOf files (·.categories)).map (·.2.name) ↔
        name ∈ (itemsOf files' (·.categories)).map (·.2.name) :=
      fun _ => (h.categories.map _).mem_iff
    exact ⟨(hmem _).mp hvalid.source, (hmem _).mp hvalid.target, hvalid.order⟩
  · exact (h.templates.map _).nodup_iff.mp hids
  · refine (hfaultless i (h.templates.mem_iff.mpr hi)).congr (category?_eq_of_perm hdeclared hnodup)
      (linkNames_eq_of_perm (h.rules.map _))

/-- **One order is accepted exactly when the other is.** -/
theorem Reordered.exists_build_iff (h : Reordered files files') :
    (∃ c, build files = .ok c) ↔ ∃ c, build files' = .ok c :=
  ⟨h.sameItems.exists_build, h.sameItems.symm.exists_build⟩

/-! ### What the catalogs hold -/

/-- Two catalogs hold the same, in any order, and find the same. -/
structure Alike (c c' : Catalog) : Prop where
  categories : c.categories.Perm c'.categories
  rules : c.rules.Perm c'.rules
  templates : c.templates.Perm c'.templates
  category? : ∀ name, c.category? name = c'.category? name
  rule? : ∀ source target, c.rule? source target = c'.rule? source target
  template? : ∀ id, c.template? id = c'.template? id

theorem SameItems.alike (h : SameItems files files') (hc : build files = .ok c)
    (hc' : build files' = .ok c') : c.Alike c' := by
  obtain ⟨⟨hnames, -⟩, ⟨hends, -⟩, hids, -⟩ := Catalog.exists_build_iff.mp ⟨c, hc⟩
  have hmade := made_of_build hc
  have hmade' := made_of_build hc'
  have hcategories : c.categories.Perm c'.categories := by
    rw [hmade.categories, hmade'.categories]
    exact h.categories.map _
  have hrules : c.rules.Perm c'.rules := by
    rw [hmade.rules, hmade'.rules]
    exact h.rules.map _
  have hcategory : ∀ name, c.category? name = c'.category? name := by
    refine category?_eq_of_perm hcategories ?_
    rw [hmade.categories, List.map_map]
    exact hnames
  -- A template takes from the catalog what the two find alike.
  have htemplate : ∀ (file : String) (d : TemplateDefinition),
      d.template file c = d.template file c' := by
    intro file d
    rw [TemplateDefinition.template, TemplateDefinition.template, hcategory,
      linkNames_eq_of_perm hrules]
  have htemplates : c.templates.Perm c'.templates := by
    rw [hmade.templates, hmade'.templates]
    simp only [htemplate]
    exact h.templates.map _
  refine ⟨hcategories, hrules, htemplates, hcategory, rule?_eq_of_perm hrules ?_,
    template?_eq_of_perm htemplates ?_⟩
  · rw [hmade.rules, List.map_map]
    exact hends
  · rw [hmade.templates, List.map_map]
    exact hids

/-- **The catalogs of the two orders are alike.** -/
theorem Reordered.alike (h : Reordered files files') (hc : build files = .ok c)
    (hc' : build files' = .ok c') : c.Alike c' :=
  h.sameItems.alike hc hc'

end Catalog

/-! ### Checking and arranging -/

namespace Canvas

variable {catalog catalog' : Catalog}

theorem bindFrom_congr (h : ∀ id, catalog.template? id = catalog'.template? id) :
    ∀ (is : List Instance) (seen : List String),
      bindFrom catalog seen is = bindFrom catalog' seen is := by
  intro is
  induction is with
  | nil => exact fun _ => rfl
  | cons i rest ih =>
    intro seen
    rw [bindFrom, bindFrom, h, ih seen, ih (i.id :: seen)]

theorem connectionFindings_congr
    (h : ∀ source target, catalog.rule? source target = catalog'.rule? source target)
    (ks : List Component) : ∀ (connections earlier : List Connection),
      connectionFindings catalog ks earlier connections =
        connectionFindings catalog' ks earlier connections := by
  intro connections
  induction connections with
  | nil => exact fun _ => rfl
  | cons k rest ih =>
    intro earlier
    have hfinding : connectionFinding? catalog ks (earlier.contains k) k =
        connectionFinding? catalog' ks (earlier.contains k) k := by
      simp only [connectionFinding?, h]
    rw [connectionFindings, connectionFindings, hfinding, ih]

end Canvas

namespace Catalog.Alike

variable {catalog catalog' : Catalog}

/-- A canvas is checked alike. -/
theorem validate (h : catalog.Alike catalog') (c : Canvas) :
    c.validate catalog = c.validate catalog' := by
  rw [Canvas.validate, Canvas.validate, Canvas.components, Canvas.components,
    Canvas.bindFrom_congr h.template?]
  simp only [Canvas.connectionFindings_congr h.rule?]

/-- A canvas is arranged alike. -/
theorem arrange (h : catalog.Alike catalog') (c : Canvas) :
    c.arrange catalog = c.arrange catalog' := by
  have husable : ∀ ks : List Component, Canvas.usableConnections catalog ks c.connections =
      Canvas.usableConnections catalog' ks c.connections := by
    intro ks
    refine List.filterMap_congr fun k _ => ?_
    simp only [Canvas.usable?, h.rule?]
  rw [Canvas.arrange_eq, Canvas.arrange_eq, Canvas.components, Canvas.components,
    Canvas.bindFrom_congr h.template?]
  simp only [Canvas.arrangeComponents, husable]

end Catalog.Alike

/-! ### Compiling -/

namespace Compiler

variable {c : Compiler} {catalog' : Catalog}

/-- A compiler with an alike catalog does the same. -/
theorem compile_of_alike (h : c.catalog.Alike catalog') (canvas : Canvas) (header : Header)
    (canceled : Bool) :
    ({ c with catalog := catalog' } : Compiler).compile canvas header canceled =
      ((c.compile canvas header canceled).1,
        { (c.compile canvas header canceled).2 with catalog := catalog' }) := by
  have hrun : ({ c with catalog := catalog' } : Compiler).run canvas header.withDefaults canceled =
      c.run canvas header.withDefaults canceled := by
    simp only [run, Canvas.resolve, h.validate, h.arrange]
  rw [compile, compile]
  dsimp only
  rw [hrun]
  cases c.results.get (resultKey canvas header.withDefaults) with
  | mk found results =>
    cases found with
    | some r => rfl
    | none =>
      cases c.run canvas header.withDefaults canceled with
      | mk r renders => cases r <;> rfl

theorem catalog_after (c : Compiler) (x : Call) : (c.after x).catalog = c.catalog := by
  rw [after, compile]
  split
  · rfl
  · split <;> rfl

/-- **Compilers with alike catalogs answer alike**, whatever they remember. -/
theorem answers_of_alike (calls : List Call) : ∀ {c : Compiler}, c.catalog.Alike catalog' →
    ({ c with catalog := catalog' } : Compiler).answers calls = c.answers calls := by
  induction calls with
  | nil => exact fun _ => rfl
  | cons x calls ih =>
    intro c h
    have hcompile := compile_of_alike h x.canvas x.header false
    rw [answers, answers, answer, answer, after, hcompile]
    congr 1
    exact ih (catalog_after c x ▸ h)

variable {files files' : List (String × Definitions)}

/-- **It does not matter in which order definitions are handed over.** Files
and the blocks of each kind in a file can change places: one order makes a
catalog exactly when the other does, the two catalogs hold and find the same,
and compilers answer every row of calls by them in the same way. -/
theorem reordered_files (h : Catalog.Reordered files files') :
    ((∃ c, Catalog.build files = .ok c) ↔ ∃ c, Catalog.build files' = .ok c) ∧
    ∀ c c', Catalog.build files = .ok c → Catalog.build files' = .ok c' → c.Alike c' ∧
      ∀ capacity calls, (new c capacity).answers calls = (new c' capacity).answers calls := by
  refine ⟨h.exists_build_iff, fun c c' hc hc' => ⟨h.alike hc hc', fun capacity calls => ?_⟩⟩
  exact (answers_of_alike calls (c := new c capacity) (h.alike hc hc')).symm

end Compiler

/-! ### The other way round -/

namespace Catalog

/-- All files, and all blocks in them, the other way round. -/
def turned (files : List (String × Definitions)) : List (String × Definitions) :=
  files.reverse.map fun (file, d) =>
    (file, ⟨d.categories.reverse, d.rules.reverse, d.templates.reverse⟩)

theorem reordered_turned (files : List (String × Definitions)) : Reordered files (turned files) := by
  refine ⟨files.reverse, (List.reverse_perm files).symm, List.forall₂_map_right_iff.mpr ?_⟩
  refine List.forall₂_same.mpr fun f _ => ⟨rfl, ?_⟩
  exact ⟨(List.reverse_perm _).symm, (List.reverse_perm _).symm, (List.reverse_perm _).symm⟩

/-- The categories in one file, and what they are used for in another. -/
def sampleParts : List (String × Definitions) :=
  sampleFiles.flatMap fun (file, d) =>
    [(file ++ ".kinds", { categories := d.categories }),
     (file ++ ".forms", { rules := d.rules, templates := d.templates })]

end Catalog

theorem Compiler.turned_parts : ∃ c c', Catalog.build Catalog.sampleParts = .ok c ∧
    Catalog.build (Catalog.turned Catalog.sampleParts) = .ok c' ∧
    c.templates.map (·.id) = ["record", "variable", "function", "creation"] ∧
    c'.templates.map (·.id) = ["creation", "function", "variable", "record"] ∧ c.Alike c' ∧
    ∀ capacity calls, (new c capacity).answers calls = (new c' capacity).answers calls :=
  ⟨_, _, rfl, rfl, rfl, rfl,
    (reordered_files (Catalog.reordered_turned Catalog.sampleParts)).2 _ _ rfl rfl⟩

end SolidityCanvas
