/-
Canvases whose instances have other ids.

An id names an instance on its canvas and means nothing else.  Here the instances of
a canvas get other ids, and connections follow them (`Canvas.rename`).  Ids that were
told apart have to stay so.

* `Component.ofInstance_rename`: an instance becomes the component it was, under its
  other id;
* `Canvas.components_rename`: so do all of them, in the order they had;
* `Canvas.componentAt?_rename`: an id stands for what it stood for.
-/
import Mathlib.Data.List.Find
import Mathlib.Data.Set.Function
import SolidityCanvas.Proofs.Canvas.Components

namespace SolidityCanvas

variable (σ : String → String)

/-- The finding about an instance with another id.  The message stays as it is. -/
def Diagnostic.rename (d : Diagnostic) : Diagnostic := { d with instanceId := σ d.instanceId }

/-- The instance with another id. -/
def Instance.rename (i : Instance) : Instance := { i with id := σ i.id }

/-- The connection between instances with other ids. -/
def Connection.rename (k : Connection) : Connection := ⟨σ k.source, σ k.target⟩

/-- The component of an instance with another id. -/
def Component.rename (k : Component) : Component :=
  { k with id := σ k.id, findings := k.findings.map (·.rename σ) }

/-- The canvas whose instances have other ids. -/
def Canvas.rename (c : Canvas) : Canvas :=
  { c with
    instances := c.instances.map (·.rename σ), connections := c.connections.map (·.rename σ) }

/-- The ids of the instances. -/
def Canvas.ids (c : Canvas) : Set String := {id | ∃ i ∈ c.instances, i.id = id}

/-! ### Components -/

/-- A property has the same value, whatever the id is. -/
theorem Property.bind_rename (p : Property) (id : String) (raw : Bag) :
    p.bind (σ id) raw = ((p.bind id raw).1, (p.bind id raw).2.map (·.rename σ)) := by
  rw [bind, bind]
  split
  case h_3 => split <;> rfl
  all_goals split <;> rfl

namespace Component

variable {σ}

theorem ofInstance_rename (i : Instance) (t : Template) :
    ofInstance (i.rename σ) t = (ofInstance i t).rename σ := by
  have hundeclared : undeclared (σ i.id) t.properties i.properties =
      (undeclared i.id t.properties i.properties).map (·.rename σ) := by
    rw [undeclared, undeclared, List.map_map]
    rfl
  simp only [ofInstance, rename, Instance.rename, SolidityCanvas.bind, Property.bind_rename,
    hundeclared, List.map_append, List.flatMap_map, List.map_flatMap, List.map_map,
    Function.comp_def]

@[simp] theorem rename_id (k : Component) : (k.rename σ).id = σ k.id := rfl

@[simp] theorem rename_template (k : Component) : (k.rename σ).template = k.template := rfl

@[simp] theorem rename_properties (k : Component) :
    (k.rename σ).properties = k.properties := rfl

@[simp] theorem rename_name (k : Component) : (k.rename σ).name = k.name := rfl

/-- A component with a name is shown under it. -/
theorem displayName_rename {k : Component} (h : k.name ≠ "") :
    (k.rename σ).displayName = k.displayName := by
  have hname : k.name.isEmpty = false := by simpa using h
  simp [displayName, hname]

end Component

namespace Canvas

variable {σ} {c : Canvas} {catalog : Catalog} {ks : List Component} {fs : List Diagnostic}

theorem componentOf?_rename (i : Instance) :
    componentOf? catalog (i.rename σ) = (componentOf? catalog i).map (·.rename σ) := by
  have htemplate : (i.rename σ).template = i.template := rfl
  rw [componentOf?, componentOf?, Option.map_map, htemplate]
  exact Option.map_congr fun t _ => Component.ofInstance_rename i t

/-- The walk along instances with other ids keeps those that it kept. -/
theorem bindFrom_rename : ∀ (is : List Instance) {seen : List String} {ks : List Component}
    {fs : List Diagnostic}, Set.InjOn σ {id | id ∈ seen ∨ ∃ i ∈ is, i.id = id} →
    bindFrom catalog seen is = .ok (ks, fs) →
    ∃ fs', bindFrom catalog (seen.map σ) (is.map (·.rename σ)) =
      .ok (ks.map (·.rename σ), fs') := by
  intro is
  induction is with
  | nil =>
    intro seen ks fs _ h
    obtain ⟨rfl, rfl⟩ := Prod.mk.inj (Except.ok.inj h)
    exact ⟨[], rfl⟩
  | cons i rest ih =>
    intro seen ks fs hσ h
    have hseen : σ i.id ∈ seen.map σ ↔ i.id ∈ seen := by
      constructor
      · intro hmem
        obtain ⟨id, hid, heq⟩ := List.mem_map.mp hmem
        rwa [← hσ (.inl hid) (.inr ⟨i, List.mem_cons_self, rfl⟩) heq]
      · exact List.mem_map_of_mem
    rw [List.map_cons, bindFrom]
    change ∃ fs', (if (seen.map σ).contains (σ i.id) = true then _ else _) = _
    rcases bindFrom_cons_eq_ok h with ⟨hi, fs', hrest, rfl⟩ | ⟨hi, k, ks', fs', hk, hrest, rfl, rfl⟩
    · have hσ' : Set.InjOn σ {id | id ∈ seen ∨ ∃ j ∈ rest, j.id = id} := by
        refine hσ.mono fun id hid => ?_
        rcases hid with hid | ⟨j, hj, hid⟩
        · exact .inl hid
        · exact .inr ⟨j, List.mem_cons_of_mem _ hj, hid⟩
      obtain ⟨fs'', hrest'⟩ := ih hσ' hrest
      rw [if_pos (List.contains_iff_mem.mpr (hseen.mpr hi)), hrest']
      exact ⟨_, rfl⟩
    · obtain ⟨t, ht, rfl⟩ := componentOf?_eq_some.mp hk
      have hσ' : Set.InjOn σ {id | id ∈ i.id :: seen ∨ ∃ j ∈ rest, j.id = id} := by
        refine hσ.mono fun id hid => ?_
        rcases hid with hid | ⟨j, hj, hid⟩
        · rcases List.mem_cons.mp hid with rfl | hid
          · exact .inr ⟨i, List.mem_cons_self, rfl⟩
          · exact .inl hid
        · exact .inr ⟨j, List.mem_cons_of_mem _ hj, hid⟩
      obtain ⟨fs'', hrest'⟩ := ih hσ' hrest
      have ht' : catalog.template? (i.rename σ).template = some t := ht
      have hnew : ¬ (seen.map σ).contains (σ i.id) = true :=
        fun hmem => hi (hseen.mp (List.contains_iff_mem.mp hmem))
      rw [List.map_cons] at hrest'
      rw [if_neg hnew, ht']
      dsimp only
      rw [show (i.rename σ).id = σ i.id from rfl, hrest', Component.ofInstance_rename]
      exact ⟨_, rfl⟩

section renamed

variable (hσ : Set.InjOn σ c.ids)

include hσ

/-- **The components are those of the canvas**, under their other ids. -/
theorem components_rename (h : c.components catalog = .ok (ks, fs)) :
    ∃ fs', (c.rename σ).components catalog = .ok (ks.map (·.rename σ), fs') := by
  refine bindFrom_rename c.instances (hσ.mono fun id hid => ?_) h
  exact hid.resolve_left List.not_mem_nil

/-- **An id stands for what it stood for.** -/
theorem componentAt?_rename {id : String} (hid : id ∈ c.ids) :
    (c.rename σ).componentAt? catalog (σ id) =
      (c.componentAt? catalog id).map (·.rename σ) := by
  have hfind : (c.rename σ).instance? (σ id) = (c.instance? id).map (·.rename σ) := by
    rw [instance?, instance?, rename, List.find?_map]
    congr 1
    refine List.find?_congr fun i hi => ?_
    rw [Function.comp_apply, Bool.eq_iff_iff, beq_iff_eq, beq_iff_eq]
    exact ⟨hσ ⟨i, hi, rfl⟩ hid, congrArg σ⟩
  rw [componentAt?, componentAt?, hfind]
  cases c.instance? id with
  | none => rfl
  | some i => exact componentOf?_rename i

end renamed

theorem mem_ids_rename {id : String} : id ∈ (c.rename σ).ids ↔ ∃ a ∈ c.ids, σ a = id := by
  constructor
  · rintro ⟨_, hmem, rfl⟩
    obtain ⟨i, hi, rfl⟩ := List.mem_map.mp hmem
    exact ⟨i.id, ⟨i, hi, rfl⟩, rfl⟩
  · rintro ⟨_, ⟨i, hi, rfl⟩, rfl⟩
    exact ⟨i.rename σ, List.mem_map_of_mem hi, rfl⟩

end Canvas

end SolidityCanvas
