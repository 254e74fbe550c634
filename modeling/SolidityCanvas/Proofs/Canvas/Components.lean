/-
The components of a canvas, id by id.

`Canvas.components` walks along the instances and keeps the first one with
each id.  Here the walk is replaced by what it finds:

* `Canvas.componentAt?`: the component that an id stands for, which is that
  of the first instance with the id;
* `componentWith?_eq_componentAt?`: looking up an id among the components
  gives it;
* `components_pairwise`: the components stand in the order of the canvas, so
  that no id is listed twice;
* `hasErrors_components`: there is an error among what was found exactly when
  an id is used twice or a property cannot be used.
-/
import SolidityCanvas.Canvas.Component
import SolidityCanvas.Proofs.Basic

namespace SolidityCanvas

namespace Diagnostic

@[simp] theorem isError_errorOn (code id property message : String) :
    (errorOn code id property message).isError = true := by
  simp [isError, errorOn]

@[simp] theorem isError_warningOn (code id property message : String) :
    (warningOn code id property message).isError = false := by
  simp [isError, warningOn, Severity.error, Severity.warning]

@[simp] theorem isError_withRelated (d : Diagnostic) (ids : List String) :
    (d.withRelated ids).isError = d.isError := rfl

@[simp] theorem hasErrors_nil : hasErrors [] = false := rfl

@[simp] theorem hasErrors_cons (d : Diagnostic) (ds : List Diagnostic) :
    hasErrors (d :: ds) = (d.isError || hasErrors ds) := rfl

@[simp] theorem hasErrors_append (ds es : List Diagnostic) :
    hasErrors (ds ++ es) = (hasErrors ds || hasErrors es) := List.any_append

theorem hasErrors_eq_false_iff {ds : List Diagnostic} :
    hasErrors ds = false ↔ ∀ d ∈ ds, d.isError = false := by
  rw [hasErrors, List.any_eq_false]
  simp only [Bool.not_eq_true]

theorem hasErrors_flatMap_eq_false_iff {α : Type} {l : List α} {f : α → List Diagnostic} :
    hasErrors (l.flatMap f) = false ↔ ∀ a ∈ l, hasErrors (f a) = false := by
  simp only [hasErrors_eq_false_iff, List.mem_flatMap]
  exact ⟨fun h a ha d hd => h d ⟨a, ha, hd⟩, fun h d ⟨a, ha, hd⟩ => h a ha d hd⟩

end Diagnostic

namespace Component

@[simp] theorem ofInstance_id (i : Instance) (t : Template) : (ofInstance i t).id = i.id := rfl

@[simp] theorem ofInstance_template (i : Instance) (t : Template) :
    (ofInstance i t).template = t := rfl

theorem values_ofInstance (i : Instance) (t : Template) :
    (ofInstance i t).properties.values =
      t.properties.map fun p => (p.name, (p.bind i.id i.properties).1) := by
  simp [ofInstance, bind, List.map_map, Function.comp_def]

end Component

namespace Canvas

variable {c : Canvas} {catalog : Catalog} {ks : List Component} {fs : List Diagnostic}

/-- The component of an instance, if its template is known. -/
def componentOf? (catalog : Catalog) (i : Instance) : Option Component :=
  (catalog.template? i.template).map (Component.ofInstance i)

/-- The component that an id stands for: that of the first instance with
it. -/
def componentAt? (c : Canvas) (catalog : Catalog) (id : String) : Option Component :=
  (c.instance? id).bind (componentOf? catalog)

/-- The place of the first instance with an id. -/
def place (c : Canvas) (id : String) : Nat := (c.instances.map (·.id)).idxOf id

theorem componentOf?_eq_some {i : Instance} {k : Component} :
    componentOf? catalog i = some k ↔
      ∃ t, catalog.template? i.template = some t ∧ Component.ofInstance i t = k := by
  rw [componentOf?, Option.map_eq_some_iff]

theorem componentOf?_id {i : Instance} {k : Component} (h : componentOf? catalog i = some k) :
    k.id = i.id := by
  obtain ⟨t, _, rfl⟩ := componentOf?_eq_some.mp h
  rfl

/-- A component has its template from the catalog. -/
theorem template_mem_of_componentOf? {i : Instance} {k : Component}
    (h : componentOf? catalog i = some k) : k.template ∈ catalog.templates := by
  obtain ⟨t, ht, rfl⟩ := componentOf?_eq_some.mp h
  exact List.mem_of_find?_eq_some ht

theorem componentAt?_eq_some {id : String} {k : Component} :
    c.componentAt? catalog id = some k ↔
      ∃ i, c.instance? id = some i ∧ componentOf? catalog i = some k := by
  rw [componentAt?, Option.bind_eq_some_iff]

theorem componentAt?_id {id : String} {k : Component} (h : c.componentAt? catalog id = some k) :
    k.id = id := by
  obtain ⟨i, hi, hk⟩ := componentAt?_eq_some.mp h
  rw [componentOf?_id hk]
  simpa using List.find?_some hi

theorem mem_ids_of_componentAt? {id : String} {k : Component}
    (h : c.componentAt? catalog id = some k) : id ∈ c.instances.map (·.id) := by
  obtain ⟨i, hi, hk⟩ := componentAt?_eq_some.mp h
  refine List.mem_map.mpr ⟨i, List.mem_of_find?_eq_some hi, ?_⟩
  rw [← componentAt?_id h, componentOf?_id hk]

/-- Components with one place have one id. -/
theorem eq_of_place_eq {id other : String} {k : Component}
    (h : c.componentAt? catalog id = some k) (hp : c.place id = c.place other) : id = other :=
  (List.idxOf_inj (mem_ids_of_componentAt? h)).mp hp

/-! ### The walk -/

/-- What the walk does at each instance. -/
theorem bindFrom_cons_eq_ok {seen : List String} {i : Instance} {rest : List Instance}
    (h : bindFrom catalog seen (i :: rest) = .ok (ks, fs)) :
    (i.id ∈ seen ∧ ∃ fs', bindFrom catalog seen rest = .ok (ks, fs') ∧
        fs = duplicateId i.id :: fs') ∨
    (i.id ∉ seen ∧ ∃ k ks' fs', componentOf? catalog i = some k ∧
        bindFrom catalog (i.id :: seen) rest = .ok (ks', fs') ∧
        ks = k :: ks' ∧ fs = k.findings ++ fs') := by
  rw [bindFrom] at h
  split at h
  · rename_i hseen
    obtain ⟨⟨ks', fs'⟩, hrest, h⟩ := except_bind_eq_ok.mp h
    obtain ⟨rfl, rfl⟩ := Prod.mk.inj (Except.ok.inj h)
    exact Or.inl ⟨by simpa using hseen, fs', hrest, rfl⟩
  · rename_i hseen
    split at h
    · exact absurd h (by simp)
    · rename_i t ht
      obtain ⟨⟨ks', fs'⟩, hrest, h⟩ := except_bind_eq_ok.mp h
      obtain ⟨rfl, rfl⟩ := Prod.mk.inj (Except.ok.inj h)
      exact Or.inr ⟨by simpa using hseen, _, ks', fs',
        componentOf?_eq_some.mpr ⟨t, ht, rfl⟩, hrest, rfl, rfl⟩

theorem bindFrom_notMem_seen : ∀ (is : List Instance) {seen : List String}
    {ks : List Component} {fs : List Diagnostic}, bindFrom catalog seen is = .ok (ks, fs) →
    ∀ k ∈ ks, k.id ∉ seen := by
  intro is
  induction is with
  | nil =>
    intro seen ks fs h k hk
    obtain ⟨rfl, rfl⟩ := Prod.mk.inj (Except.ok.inj h)
    exact absurd hk List.not_mem_nil
  | cons i rest ih =>
    intro seen ks fs h k hk
    rcases bindFrom_cons_eq_ok h with
      ⟨_, fs', hrest, rfl⟩ | ⟨hi, k', ks', fs', hk', hrest, rfl, rfl⟩
    · exact ih hrest k hk
    · rcases List.mem_cons.mp hk with rfl | hk
      · rwa [componentOf?_id hk']
      · exact fun hs => ih hrest k hk (List.mem_cons_of_mem _ hs)

theorem componentWith?_cons_of_ne {k : Component} {ks : List Component} {id : String}
    (h : k.id ≠ id) : componentWith? (k :: ks) id = componentWith? ks id := by
  rw [componentWith?, List.find?_cons_of_neg (by simpa using h)]
  rfl

theorem componentWith?_bindFrom : ∀ (is : List Instance) {seen : List String}
    {ks : List Component} {fs : List Diagnostic}, bindFrom catalog seen is = .ok (ks, fs) →
    ∀ id, id ∉ seen →
      componentWith? ks id = (is.find? (·.id == id)).bind (componentOf? catalog) := by
  intro is
  induction is with
  | nil =>
    intro seen ks fs h id _
    obtain ⟨rfl, rfl⟩ := Prod.mk.inj (Except.ok.inj h)
    rfl
  | cons i rest ih =>
    intro seen ks fs h id hid
    rcases bindFrom_cons_eq_ok h with ⟨hi, fs', hrest, rfl⟩ | ⟨hi, k, ks', fs', hk, hrest, rfl, rfl⟩
    -- An id that was seen is skipped here and is not the one that is looked for.
    · have hne : i.id ≠ id := fun he => hid (he ▸ hi)
      rw [List.find?_cons_of_neg (by simpa using hne)]
      exact ih hrest id hid
    · by_cases he : i.id = id
      · rw [List.find?_cons_of_pos (by simpa using he), componentWith?,
          List.find?_cons_of_pos (by simpa [componentOf?_id hk] using he)]
        exact hk.symm
      · rw [List.find?_cons_of_neg (by simpa using he),
          componentWith?_cons_of_ne (by rwa [componentOf?_id hk])]
        exact ih hrest id (by simpa [Ne.symm he] using hid)

/-- The components stand in the order of the first instances with their
ids. -/
theorem bindFrom_pairwise : ∀ (is : List Instance) {seen : List String}
    {ks : List Component} {fs : List Diagnostic}, bindFrom catalog seen is = .ok (ks, fs) →
    ks.Pairwise fun k k' => (is.map (·.id)).idxOf k.id < (is.map (·.id)).idxOf k'.id := by
  intro is
  induction is with
  | nil =>
    intro seen ks fs h
    obtain ⟨rfl, rfl⟩ := Prod.mk.inj (Except.ok.inj h)
    exact List.Pairwise.nil
  | cons i rest ih =>
    intro seen ks fs h
    -- Every component after this instance has another id, so its place moves by one.
    have hshift : ∀ {seen' : List String} {ks' : List Component} {fs' : List Diagnostic},
        i.id ∈ seen' → bindFrom catalog seen' rest = .ok (ks', fs') → ∀ k ∈ ks',
        ((i :: rest).map (·.id)).idxOf k.id = (rest.map (·.id)).idxOf k.id + 1 := by
      intro seen' ks' fs' hi hrest k hk
      have hne : i.id ≠ k.id := fun he => bindFrom_notMem_seen rest hrest k hk (he ▸ hi)
      rw [List.map_cons, List.idxOf_cons_ne _ hne]
    have hpair : ∀ {seen' : List String} {ks' : List Component} {fs' : List Diagnostic},
        i.id ∈ seen' → bindFrom catalog seen' rest = .ok (ks', fs') →
        ks'.Pairwise fun k k' => ((i :: rest).map (·.id)).idxOf k.id <
          ((i :: rest).map (·.id)).idxOf k'.id := by
      intro seen' ks' fs' hi hrest
      refine (ih hrest).imp_of_mem fun {k k'} hk hk' hlt => ?_
      rw [hshift hi hrest k hk, hshift hi hrest k' hk']
      exact Nat.succ_lt_succ hlt
    rcases bindFrom_cons_eq_ok h with ⟨hi, fs', hrest, rfl⟩ | ⟨_, k, ks', fs', hk, hrest, rfl, rfl⟩
    · exact hpair hi hrest
    · refine List.Pairwise.cons (fun k' hk' => ?_) (hpair List.mem_cons_self hrest)
      rw [hshift List.mem_cons_self hrest k' hk', componentOf?_id hk, List.map_cons,
        List.idxOf_cons_self]
      exact Nat.succ_pos _

/-- Every id was there before or is that of a component. -/
theorem bindFrom_mem_seen_or : ∀ (is : List Instance) {seen : List String}
    {ks : List Component} {fs : List Diagnostic}, bindFrom catalog seen is = .ok (ks, fs) →
    ∀ i ∈ is, i.id ∈ seen ∨ ∃ k ∈ ks, k.id = i.id := by
  intro is
  induction is with
  | nil => exact fun _ i hi => absurd hi List.not_mem_nil
  | cons i rest ih =>
    intro seen ks fs h j hj
    rcases bindFrom_cons_eq_ok h with ⟨hi, fs', hrest, rfl⟩ | ⟨_, k, ks', fs', hk, hrest, rfl, rfl⟩
    · rcases List.mem_cons.mp hj with rfl | hj
      · exact Or.inl hi
      · exact ih hrest j hj
    · have hfirst : ∃ k' ∈ k :: ks', k'.id = i.id := ⟨k, List.mem_cons_self, componentOf?_id hk⟩
      rcases List.mem_cons.mp hj with rfl | hj
      · exact Or.inr hfirst
      · rcases ih hrest j hj with hs | ⟨k', hk', hid⟩
        · rcases List.mem_cons.mp hs with he | hs
          · exact Or.inr (he ▸ hfirst)
          · exact Or.inl hs
        · exact Or.inr ⟨k', List.mem_cons_of_mem _ hk', hid⟩

theorem hasErrors_bindFrom : ∀ (is : List Instance) {seen : List String}
    {ks : List Component} {fs : List Diagnostic}, bindFrom catalog seen is = .ok (ks, fs) →
    (Diagnostic.hasErrors fs = false ↔
      (∀ i ∈ is, i.id ∉ seen) ∧ (is.map (·.id)).Nodup ∧ ∀ k ∈ ks, k.hasBad = false) := by
  intro is
  induction is with
  | nil =>
    intro seen ks fs h
    obtain ⟨rfl, rfl⟩ := Prod.mk.inj (Except.ok.inj h)
    simp
  | cons i rest ih =>
    intro seen ks fs h
    rcases bindFrom_cons_eq_ok h with ⟨hi, fs', _, rfl⟩ | ⟨hi, k, ks', fs', hk, hrest, rfl, rfl⟩
    -- An id that comes again is an error, whatever else there is.
    · have herr : Diagnostic.hasErrors (duplicateId i.id :: fs') = true := by simp [duplicateId]
      rw [herr]
      exact ⟨fun h => absurd h (by simp), fun h => absurd hi (h.1 i List.mem_cons_self)⟩
    · rw [Diagnostic.hasErrors_append, Bool.or_eq_false_iff, ih hrest, List.map_cons,
        List.nodup_cons, List.forall_mem_cons, List.forall_mem_cons]
      constructor
      · rintro ⟨hbad, hnew, hnd, hbads⟩
        refine ⟨⟨hi, fun j hj hs => hnew j hj (List.mem_cons_of_mem _ hs)⟩, ⟨?_, hnd⟩, hbad, hbads⟩
        intro hm
        obtain ⟨j, hj, he⟩ := List.mem_map.mp hm
        exact hnew j hj (by simp [he])
      · rintro ⟨⟨_, hold⟩, ⟨hnew, hnd⟩, hbad, hbads⟩
        refine ⟨hbad, fun j hj hs => ?_, hnd, hbads⟩
        rcases List.mem_cons.mp hs with he | hs
        · exact hnew (List.mem_map.mpr ⟨j, hj, he⟩)
        · exact hold j hj hs

/-! ### What it finds -/

/-- **Looking up an id among the components gives what the id stands for.** -/
theorem componentWith?_eq_componentAt? (h : c.components catalog = .ok (ks, fs)) (id : String) :
    componentWith? ks id = c.componentAt? catalog id :=
  componentWith?_bindFrom c.instances h id List.not_mem_nil

theorem components_pairwise (h : c.components catalog = .ok (ks, fs)) :
    ks.Pairwise fun k k' => c.place k.id < c.place k'.id :=
  bindFrom_pairwise c.instances h

theorem components_nodup (h : c.components catalog = .ok (ks, fs)) :
    (ks.map (·.id)).Nodup := by
  rw [List.Nodup, List.pairwise_map]
  exact (components_pairwise h).imp fun hlt he => absurd (he ▸ hlt) (Nat.lt_irrefl _)

/-- The components are what the ids of the canvas stand for. -/
theorem mem_components (h : c.components catalog = .ok (ks, fs)) {k : Component} :
    k ∈ ks ↔ c.componentAt? catalog k.id = some k := by
  rw [← componentWith?_eq_componentAt? h, componentWith?, find?_name_eq_some (components_nodup h)]
  exact ⟨fun hk => ⟨hk, rfl⟩, And.left⟩

theorem mem_components_of_componentAt? (h : c.components catalog = .ok (ks, fs)) {id : String}
    {k : Component} (hk : c.componentAt? catalog id = some k) : k ∈ ks := by
  rw [mem_components h, componentAt?_id hk]
  exact hk

/-- Every id of the canvas stands for a component. -/
theorem exists_mem_components_iff (h : c.components catalog = .ok (ks, fs)) {id : String} :
    (∃ k ∈ ks, k.id = id) ↔ ∃ i ∈ c.instances, i.id = id := by
  constructor
  · rintro ⟨k, hk, rfl⟩
    exact List.mem_map.mp (mem_ids_of_componentAt? ((mem_components h).mp hk))
  · rintro ⟨i, hi, rfl⟩
    exact (bindFrom_mem_seen_or c.instances h i hi).resolve_left List.not_mem_nil

/-- There is an error among what was found exactly when an id is used twice
or a property cannot be used. -/
theorem hasErrors_components (h : c.components catalog = .ok (ks, fs)) :
    Diagnostic.hasErrors fs = false ↔
      (c.instances.map (·.id)).Nodup ∧ ∀ k ∈ ks, k.hasBad = false := by
  rw [hasErrors_bindFrom c.instances h]
  exact ⟨fun h => h.2, fun h => ⟨fun _ _ => List.not_mem_nil, h⟩⟩

end Canvas

end SolidityCanvas
