/-
Parts of a canvas.

A part has some of the instances and some of the connections of a canvas
(`Canvas.IsPartOf`).  What deletions leave is a part, and it is whole.  Every rule of
`Canvas.Acceptable` speaks of all instances or all connections, so that a part keeps
it; only a type might be declared by another instance once the first one is gone.
Where the names of types share a name space no two instances declare one type.

* `isPartOf_of_deletes`: what a deletion leaves is a part;
* `Precedes.of_isPartOf`: what comes before something in a part comes before it on the
  canvas;
* `Acceptable.of_isPartOf`: a whole part of an acceptable canvas is acceptable.
-/
import SolidityCanvas.Proofs.Canvas.Editing
import SolidityCanvas.Proofs.Validation.Verdict

namespace SolidityCanvas

open Relation

/-! ### Types -/

/-- Whether templates whose names are types have names, all in one name space. -/
def Catalog.sharesTypeNames (c : Catalog) : Bool :=
  c.templates.all fun t => c.templates.all fun u =>
    !(t.category.providesType && u.category.providesType) ||
      (t.category.nameProperty.isSome && t.category.nameSpace == u.category.nameSpace)

theorem Catalog.nameSpace_eq_of_sharesTypeNames {catalog : Catalog}
    (h : catalog.sharesTypeNames = true) {t u : Template} (ht : t ∈ catalog.templates)
    (hu : u ∈ catalog.templates) (htypes : t.category.providesType = true)
    (hutypes : u.category.providesType = true) :
    t.category.nameProperty.isSome = true ∧ t.category.nameSpace = u.category.nameSpace := by
  have hpair := List.all_eq_true.mp (List.all_eq_true.mp h t ht) u hu
  simpa [htypes, hutypes] using hpair

/-- A component with a name declares no type but that. -/
theorem Component.declaredType?_eq_some {k : Component} {name : String}
    (h : k.declaredType? = some name) : k.template.category.providesType = true ∧
      (k.template.category.nameProperty.isSome = true → k.name = name) := by
  dsimp only [declaredType?] at h
  split at h
  · rename_i htype
    refine ⟨(Bool.and_eq_true_iff.mp htype).1, fun hnamed => ?_⟩
    obtain ⟨p, hp⟩ := Option.isSome_iff_exists.mp hnamed
    rw [← Option.some.inj h, Component.name, typeProperty, hp]
    rfl
  · cases h

namespace Canvas

variable {c d part : Canvas} {catalog : Catalog} {k l : Component} {id name : String}

/-- **No two instances declare one type.** -/
theorem Acceptable.declarer_eq (hc : c.Acceptable catalog)
    (htypes : catalog.sharesTypeNames = true) {other : String}
    (h : c.Declares catalog id name) (hother : c.Declares catalog other name) : id = other := by
  obtain ⟨k, hk, hname⟩ := h
  obtain ⟨l, hl, hname'⟩ := hother
  obtain ⟨hprovides, hname⟩ := Component.declaredType?_eq_some hname
  obtain ⟨hprovides', hname'⟩ := Component.declaredType?_eq_some hname'
  obtain ⟨i, hi, hki⟩ := componentAt?_eq_some.mp hk
  obtain ⟨j, hj, hlj⟩ := componentAt?_eq_some.mp hl
  have hkholds : c.Holds catalog k := ⟨i, List.mem_of_find?_eq_some hi, hki⟩
  have hlholds : c.Holds catalog l := ⟨j, List.mem_of_find?_eq_some hj, hlj⟩
  obtain ⟨hproperty, hspace⟩ := Catalog.nameSpace_eq_of_sharesTypeNames htypes
    (template_mem_of_componentOf? hki) (template_mem_of_componentOf? hlj) hprovides hprovides'
  obtain ⟨hproperty', -⟩ := Catalog.nameSpace_eq_of_sharesTypeNames htypes
    (template_mem_of_componentOf? hlj) (template_mem_of_componentOf? hki) hprovides' hprovides
  have hid := hc.distinct k l hkholds hlholds _ _ (.inl ⟨hproperty, rfl, hname hproperty⟩)
    (.inl ⟨hproperty', hspace.symm, hname' hproperty'⟩)
  rw [← componentAt?_id hk, hid, componentAt?_id hl]

/-! ### Parts -/

/-- The first canvas has some of the instances and connections of the second. -/
structure IsPartOf (part c : Canvas) : Prop where
  instances : part.instances.Sublist c.instances
  connections : part.connections ⊆ c.connections

theorem IsPartOf.refl (c : Canvas) : c.IsPartOf c := ⟨.refl _, fun _ h => h⟩

theorem IsPartOf.trans (h : part.IsPartOf d) (h' : d.IsPartOf c) : part.IsPartOf c :=
  ⟨h.instances.trans h'.instances, fun _ hk => h'.connections (h.connections hk)⟩

theorem Holds.of_isPartOf (h : part.IsPartOf c) (hk : part.Holds catalog k) :
    c.Holds catalog k := by
  obtain ⟨i, hi, hk⟩ := hk
  exact ⟨i, h.instances.subset hi, hk⟩

section

variable (hnd : (c.instances.map (·.id)).Nodup) (h : part.IsPartOf c)

include hnd h

/-- What an id stands for in a part it stands for on the canvas. -/
theorem IsPartOf.componentAt? (hk : part.componentAt? catalog id = some k) :
    c.componentAt? catalog id = some k := by
  obtain ⟨i, hi, hk⟩ := componentAt?_eq_some.mp hk
  have hmem := h.instances.subset (List.mem_of_find?_eq_some hi)
  refine componentAt?_eq_some.mpr ⟨i, (find?_name_eq_some hnd).mpr ⟨hmem, ?_⟩, hk⟩
  simpa using List.find?_some hi

/-- An id of a part stands for what it stands for on the canvas. -/
theorem IsPartOf.componentAt?_of_mem (hid : id ∈ part.instances.map (·.id))
    (hk : c.componentAt? catalog id = some k) : part.componentAt? catalog id = some k := by
  obtain ⟨i, hi, rfl⟩ := List.mem_map.mp hid
  have hpart : part.instance? i.id = some i :=
    (find?_name_eq_some (hnd.sublist (h.instances.map _))).mpr ⟨hi, rfl⟩
  have hfind : c.instance? i.id = some i :=
    (find?_name_eq_some hnd).mpr ⟨h.instances.subset hi, rfl⟩
  rw [Canvas.componentAt?, hfind] at hk
  rwa [Canvas.componentAt?, hpart]

theorem Connects.of_isPartOf {k : Connection} {rule : Rule} (hk : part.Connects catalog k rule) :
    c.Connects catalog k rule := by
  obtain ⟨hmem, hne, source, target, hs, ht, hr⟩ := hk
  exact ⟨h.connections hmem, hne, source, target, h.componentAt? hnd hs, h.componentAt? hnd ht, hr⟩

/-- A connection of a whole part joins what it joins on the canvas. -/
theorem IsPartOf.connects {k : Connection} {rule : Rule} (hwhole : part.Whole)
    (hmem : k ∈ part.connections) (hk : c.Connects catalog k rule) :
    part.Connects catalog k rule := by
  obtain ⟨-, hne, source, target, hs, ht, hr⟩ := hk
  exact ⟨hmem, hne, source, target, h.componentAt?_of_mem hnd (hwhole.source k hmem) hs,
    h.componentAt?_of_mem hnd (hwhole.target k hmem) ht, hr⟩

end

section

variable (hc : c.Acceptable catalog) (htypes : catalog.sharesTypeNames = true)
  (h : part.IsPartOf c)

include hc htypes h

/-- **What comes before something in a part comes before it on the canvas.** -/
theorem Precedes.of_isPartOf {a b : String} (hab : part.Precedes catalog a b) :
    c.Precedes catalog a b := by
  cases hab with
  | forward hk ho => exact .forward (hk.of_isPartOf hc.ids_nodup h) ho
  | reverse hk ho => exact .reverse (hk.of_isPartOf hc.ids_nodup h) ho
  | mention hk hm hp hne =>
    obtain ⟨⟨provider, hprovider, hname⟩, -⟩ := hp
    have hdeclares : c.Declares catalog a _ := ⟨provider, h.componentAt? hc.ids_nodup hprovider, hname⟩
    -- The instance that declares the type is the only one on the canvas.
    have hfirst : c.FirstDeclares catalog a _ :=
      ⟨hdeclares, fun other hother => (hc.declarer_eq htypes hdeclares hother) ▸ Nat.le_refl _⟩
    exact .mention (h.componentAt? hc.ids_nodup hk) hm hfirst hne

/-- **A whole part of an acceptable canvas is acceptable.** -/
theorem Acceptable.of_isPartOf (hwhole : part.Whole) : part.Acceptable catalog where
  ids_nodup := hwhole.ids
  fits i hi := hc.fits i (h.instances.subset hi)
  named k hk := hc.named k (hk.of_isPartOf h)
  alone k l hk hl := hc.alone k l (hk.of_isPartOf h) (hl.of_isPartOf h)
  declares k hk := hc.declares k (hk.of_isPartOf h)
  distinct k l hk hl := hc.distinct k l (hk.of_isPartOf h) (hl.of_isPartOf h)
  connected k hk := by
    obtain ⟨rule, hrule⟩ := hc.connected k (h.connections hk)
    exact ⟨rule, h.connects hc.ids_nodup hwhole hk hrule⟩
  unentangled id hid := hc.unentangled id
    (TransGen.mono (fun _ _ => Precedes.of_isPartOf hc htypes h) id id hid)
  respects hab hk hl := hc.respects (hab.of_isPartOf hc htypes h)
    (h.componentAt? hc.ids_nodup hk) (h.componentAt? hc.ids_nodup hl)

end

/-- An acceptable canvas is whole. -/
theorem Acceptable.whole (hc : c.Acceptable catalog) : c.Whole := by
  refine ⟨hc.ids_nodup, fun k hk => ?_, fun k hk => ?_⟩
  all_goals
    obtain ⟨-, -, -, source, target, hs, ht, -⟩ := hc.connected k hk
  · exact mem_ids_of_componentAt? hs
  · exact mem_ids_of_componentAt? ht

/-! ### Deletions -/

end Canvas

/-- The edit takes something away. -/
inductive Edit.Deletes : Edit → Prop
  | remove (id : String) : Deletes (.remove id)
  | disconnect (source target : String) : Deletes (.disconnect source target)

namespace Canvas

variable {c d : Canvas} {e : Edit}

theorem isPartOf_of_deletes (he : e.Deletes) (hd : e.Does c d) : d.IsPartOf c := by
  cases he with
  | remove id =>
    obtain ⟨before, i, after, heq, -, -, hinstances, hconnections⟩ := hd
    refine ⟨?_, fun k hk => ?_⟩
    · rw [heq, hinstances]
      exact (List.sublist_cons_self _ _).append_left _
    · rw [hconnections] at hk
      exact (List.mem_filter.mp hk).1
  | disconnect source target =>
    obtain ⟨before, after, heq, -, hconnections, hinstances⟩ := hd
    refine ⟨hinstances ▸ .refl _, fun k hk => ?_⟩
    rw [hconnections] at hk
    rw [heq]
    exact ((List.sublist_cons_self _ _).append_left _).subset hk

theorem isPartOf_edited (he : e.Deletes) (c : Canvas) (time : Timestamp) :
    (c.edited e time).IsPartOf c := by
  rcases c.edited_cases e time with hsame | hdoes
  · rw [hsame]
    exact .refl c
  · exact isPartOf_of_deletes he hdoes

/-- What any number of deletions leave is a part. -/
theorem isPartOf_editedAll : ∀ (history : List (Edit × Timestamp)) (c : Canvas),
    (∀ s ∈ history, s.1.Deletes) → (c.editedAll history).IsPartOf c := by
  intro history
  induction history with
  | nil => exact fun c _ => .refl c
  | cons step history ih =>
    intro c h
    obtain ⟨hstep, hhistory⟩ := List.forall_mem_cons.mp h
    exact (ih (c.edited step.1 step.2) hhistory).trans (isPartOf_edited hstep c step.2)

end Canvas

end SolidityCanvas
