/-
The variables of templates.

A template was checked, when its catalog was built, against the variables that
its expressions would be able to read (`Catalog.inScope`).  These are not made
then: an entry of an arrangement makes its own (`Entry.bindings`), and so do
the declared names of an instance (`Template.declaringBindings`).  All three
are the same names, so that what was checked once is never looked up in vain:

* `Catalog.CheckedAs.inScope_root`: what the expressions read was in scope;
* `Component.mem_names_bindings`, `Component.mem_names_declaringBindings`: the
  names that are bound are those that were in scope;
* `Canvas.variables_are_bound`: hence no fault is about a variable.
-/
import SolidityCanvas.Proofs.Arrangement.Order
import SolidityCanvas.Proofs.Catalog.Contents
import SolidityCanvas.Proofs.Config.Variables
import SolidityCanvas.Proofs.Validation.Verdict
import SolidityCanvas.Proofs.Value.Named

namespace SolidityCanvas

open Config

namespace Catalog

variable {c : Catalog} {files : List (String × Definitions)} {file : String}
  {d : TemplateDefinition} {t : Template}

/-! ### What was checked -/

theorem mem_referenceRoots {es : List Expr} {n : String} :
    n ∈ referenceRoots es ↔ ∃ e ∈ es, ∃ r ∈ e.references, r.root = n := by
  simp [referenceRoots]

/-- The template was made from a definition whose expressions were checked
with its links. -/
structure CheckedAs (files : List (String × Definitions)) (c : Catalog) (t : Template)
    (file : String) (d : TemplateDefinition) : Prop where
  mem : (file, d) ∈ itemsOf files (·.templates)
  eq : t = d.template file c
  expressions : expressionFaults file t.links d = []

theorem Made.exists_checkedAs (h : Made files c) (ht : t ∈ c.templates) :
    ∃ file d, CheckedAs files c t file d := by
  rw [h.templates] at ht
  obtain ⟨⟨file, d⟩, hi, rfl⟩ := List.mem_map.mp ht
  obtain ⟨category, _, hfaults⟩ := h.faultless _ hi
  exact ⟨file, d, hi, rfl, (List.append_eq_nil_iff.mp hfaults).2⟩

/-- **What the expressions of a template read was in scope.** -/
theorem CheckedAs.inScope_root (h : CheckedAs files c t file d) {e : Expr}
    (he : e ∈ [t.emit, t.imports, t.inherits, t.declares]) {r : Reference}
    (hr : r ∈ e.references) : inScope t.links d r.root = true := by
  have hunknown := (List.append_eq_nil_iff.mp h.expressions).1
  rw [List.map_eq_nil_iff, List.filter_eq_nil_iff] at hunknown
  have hmem : r.root ∈ referenceRoots [d.emit, d.imports, d.inherits, d.declares] := by
    rw [h.eq] at he
    exact mem_referenceRoots.mpr ⟨e, he, r, hr, rfl⟩
  simpa using hunknown r.root hmem

/-- The names of the properties are those of the definition. -/
theorem CheckedAs.inScope_iff (h : CheckedAs files c t file d) {n : String} :
    inScope t.links d n = true ↔ n ∈ t.properties.map (·.name) ∨ n ∈ t.links ∨ n = "id" := by
  rw [h.eq]
  simp [inScope, builtInVariables, TemplateDefinition.template, property, or_assoc]

end Catalog

/-! ### What is bound -/

theorem has_templateScope {b : Bag} {n : String} (h : n ∈ b.names) : (templateScope b).Has n := by
  obtain ⟨v, hv⟩ := Option.isSome_iff_exists.mp (Value.isSome_lookup_iff.mpr h)
  exact ⟨v, by simp [lookupVariable, templateScope, hv]⟩

namespace Component

theorem names_ofInstance (i : Instance) (t : Template) :
    (ofInstance i t).properties.names = t.properties.map (·.name) := by
  rw [Bound.names, values_ofInstance, List.map_map]
  rfl

theorem mem_names_declaringBindings {i : Instance} {t : Template} {n : String} :
    n ∈ (t.declaringBindings (ofInstance i t).id (ofInstance i t).properties.bag).names ↔
      n ∈ t.properties.map (·.name) ∨ n ∈ t.links ∨ n = "id" := by
  rw [← names_ofInstance i t]
  simp only [Template.declaringBindings, Bag.names, Bag.ofList, Bound.bag, Bound.names,
    Value.mem_names_sortNamed, List.map_append, List.mem_append, List.map_map,
    Function.comp_def, List.map_id', List.map_cons, List.map_nil, List.mem_singleton, or_assoc]

theorem mem_names_bindings {i : Instance} {t : Template} {links : List (String × List String)}
    {n : String} : n ∈ (Entry.mk (ofInstance i t) links).bindings.names ↔
      n ∈ t.properties.map (·.name) ∨ n ∈ t.links ∨ n = "id" := by
  rw [← names_ofInstance i t]
  simp only [Entry.bindings, Bag.names, Bag.ofList, Bound.names, ofInstance_template,
    Value.mem_names_sortNamed, List.map_append, List.mem_append, List.map_map,
    Function.comp_def, List.map_id', List.map_cons, List.map_nil, List.mem_singleton, or_assoc]

end Component

/-- What binds the names that were in scope binds all that an expression
reads. -/
theorem Catalog.CheckedAs.closed_eval {c : Catalog} {files : List (String × Definitions)}
    {t : Template} {file : String} {d : TemplateDefinition} (h : CheckedAs files c t file d)
    {b : Bag} (hb : ∀ n, n ∈ b.names ↔ inScope t.links d n = true) {e : Expr}
    (he : e ∈ [t.emit, t.imports, t.inherits, t.declares]) : (e.eval (templateScope b)).Closed := by
  refine Expr.closed_eval e (fun r hr => ?_) fun n hn => absurd hn List.not_mem_nil
  exact has_templateScope ((hb _).mpr (h.inScope_root he hr))

namespace Canvas

variable {c : Canvas} {catalog : Catalog} {files : List (String × Definitions)}

theorem exists_instance_of_mem_components {ks : List Component} {fs : List Diagnostic}
    (h : c.components catalog = .ok (ks, fs)) {k : Component} (hk : k ∈ ks) :
    ∃ i ∈ c.instances, ∃ t, catalog.template? i.template = some t ∧
      k = Component.ofInstance i t := by
  obtain ⟨i, hi, hik⟩ := componentAt?_eq_some.mp ((mem_components h).mp hk)
  obtain ⟨t, ht, rfl⟩ := componentOf?_eq_some.mp hik
  exact ⟨i, List.mem_of_find?_eq_some hi, t, ht, rfl⟩

/-- Entries come from instances of the canvas. -/
theorem exists_instance_of_mem_entries {a : Arrangement} (h : c.arrange catalog = .ok (.ok a))
    {e : Entry} (he : e ∈ a.entries) : ∃ i ∈ c.instances, ∃ t,
      catalog.template? i.template = some t ∧ e.component = Component.ofInstance i t := by
  obtain ⟨ks, fs, us, hks, rfl, _, _, _, hblocks⟩ := blocks_of_arrange h
  obtain ⟨s, hs, hes⟩ := List.mem_flatMap.mp he
  obtain ⟨k, hk, rfl⟩ := List.mem_map.mp (((hblocks s hs).mem_iff e).mp hes).1
  exact exists_instance_of_mem_components hks hk

/-- **Variables that were in scope are bound.**  With a catalog that was built,
whatever the canvas: an entry of its arrangement binds exactly the names that
the expressions of its template were checked against, and no fault of `emit`,
`imports` or `inherits` is about a variable; and the same holds of what the
names are read from that a component declares. -/
theorem variables_are_bound (hbuild : Catalog.build files = .ok catalog) (c : Canvas) :
    (∀ a, c.arrange catalog = .ok (.ok a) → ∀ e ∈ a.entries, ∃ file d,
      Catalog.CheckedAs files catalog e.component.template file d ∧
      (∀ n, n ∈ e.bindings.names ↔ Catalog.inScope e.component.template.links d n = true) ∧
      (e.component.template.emit.eval (templateScope e.bindings)).Closed ∧
      (e.component.template.imports.eval (templateScope e.bindings)).Closed ∧
      (e.component.template.inherits.eval (templateScope e.bindings)).Closed) ∧
    ∀ ks fs, c.components catalog = .ok (ks, fs) → ∀ k ∈ ks, ∃ file d,
      Catalog.CheckedAs files catalog k.template file d ∧
      (∀ n, n ∈ (k.template.declaringBindings k.id k.properties.bag).names ↔
        Catalog.inScope k.template.links d n = true) ∧
      (k.template.declares.eval
        (templateScope (k.template.declaringBindings k.id k.properties.bag))).Closed := by
  have hmade := Catalog.made_of_build hbuild
  constructor
  · intro a ha e he
    obtain ⟨i, _, t, ht, hc⟩ := exists_instance_of_mem_entries ha he
    obtain ⟨component, links⟩ := e
    obtain rfl : component = Component.ofInstance i t := hc
    obtain ⟨file, d, hd⟩ := hmade.exists_checkedAs (List.mem_of_find?_eq_some ht)
    have hnames : ∀ n, n ∈ (Entry.mk (Component.ofInstance i t) links).bindings.names ↔
        Catalog.inScope t.links d n = true :=
      fun n => Component.mem_names_bindings.trans hd.inScope_iff.symm
    exact ⟨file, d, hd, hnames, hd.closed_eval hnames (by simp), hd.closed_eval hnames (by simp),
      hd.closed_eval hnames (by simp)⟩
  · intro ks fs hks k hk
    obtain ⟨i, _, t, ht, rfl⟩ := exists_instance_of_mem_components hks hk
    obtain ⟨file, d, hd⟩ := hmade.exists_checkedAs (List.mem_of_find?_eq_some ht)
    have hnames := fun n =>
      (Component.mem_names_declaringBindings (i := i) (n := n)).trans hd.inScope_iff.symm
    exact ⟨file, d, hd, hnames, hd.closed_eval hnames (by simp)⟩

end Canvas

/-! ### A catalog with a link -/

/-- Accounts, and pools that list the accounts that are connected to them. -/
def Catalog.poolFiles : List (String × Definitions) :=
  let name : PropertyDefinition := ⟨"name", .string, true, none, "identifier", [], ""⟩
  [("pool", {
    categories := [
      ⟨"account", "state", "members", true, "name", false, false⟩,
      ⟨"pool", "functions", "members", true, "name", false, false⟩]
    rules := [⟨"account", "pool", "forward", "accounts", ""⟩]
    templates := [
      sampleTemplate "account" [name],
      { sampleTemplate "pool" [name] with
        emit := .template [.reference "name" [], .joined
          (.loop none "account" (.reference "accounts" []) none (.reference "account" []) none
            false)]
        declares := .object [(.literal (.string "members"), .reference "accounts" [])] }] })]

/-- A pool with one of two accounts. -/
def Canvas.pool : Canvas where
  instances := [
    ⟨"p", "pool", [("name", .string "shared")]⟩,
    ⟨"a", "account", [("name", .string "savings")]⟩,
    ⟨"b", "account", [("name", .string "reserve")]⟩]
  connections := [⟨"a", "p"⟩]

theorem Canvas.pool_variables : ∃ catalog a,
    Catalog.build Catalog.poolFiles = .ok catalog ∧ Canvas.pool.arrange catalog = .ok (.ok a) ∧
      a.order = ["a", "b", "p"] ∧
      ∀ e ∈ a.entries, (e.component.template.emit.eval (templateScope e.bindings)).Closed := by
  obtain ⟨catalog, hbuild⟩ : ∃ catalog, Catalog.build Catalog.poolFiles = .ok catalog := ⟨_, rfl⟩
  obtain ⟨a, ha, horder⟩ : ∃ a, Canvas.pool.arrange catalog = .ok (.ok a) ∧
      a.order = ["a", "b", "p"] := by
    obtain rfl := Except.ok.inj hbuild
    exact ⟨_, rfl, rfl⟩
  refine ⟨catalog, a, hbuild, ha, horder, fun e he => ?_⟩
  obtain ⟨_, _, _, _, hemit, _⟩ := (Canvas.variables_are_bound hbuild Canvas.pool).1 a ha e he
  exact hemit

end SolidityCanvas
