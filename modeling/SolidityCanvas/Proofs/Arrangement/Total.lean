/-
Arranging never breaks down.

Where the first instance of each id names a template of the catalog, the
components are known (`Canvas.exists_components`), and then there is always a
verdict: an arrangement, or findings that stand against one.

Constraints join two different components, so that they are edges, and no
section has a cycle if the whole canvas has none (`Canvas.exists_arrange`).
-/
import SolidityCanvas.Proofs.Arrangement.Order

namespace SolidityCanvas

open Relation

/-! ### Components -/

namespace Canvas

variable {c : Canvas} {catalog : Catalog}

/-- The first instance of each id names a template of the catalog. -/
def Known (c : Canvas) (catalog : Catalog) : Prop :=
  ∀ i ∈ c.instances, c.instance? i.id = some i → (catalog.template? i.template).isSome = true

theorem exists_bindFrom (catalog : Catalog) : ∀ (is : List Instance) (seen : List String),
    (∀ i ∈ is, is.find? (·.id == i.id) = some i → i.id ∉ seen →
      (catalog.template? i.template).isSome = true) →
    ∃ r, bindFrom catalog seen is = .ok r := by
  intro is
  induction is with
  | nil => exact fun _ _ => ⟨_, rfl⟩
  | cons i is ih =>
    intro seen h
    -- The first of the rest with an id is the first of all, if the id is another.
    have hrest : ∀ seen' : List String, (∀ id ∉ seen', id ∉ seen ∧ id ≠ i.id) →
        ∃ r, bindFrom catalog seen' is = .ok r := by
      intro seen' hseen
      refine ih seen' fun j hj hfind hnew => h j (List.mem_cons_of_mem _ hj) ?_ (hseen _ hnew).1
      rwa [List.find?_cons_of_neg (by simpa using (hseen _ hnew).2.symm)]
    rw [bindFrom]
    split
    · rename_i hseen
      obtain ⟨r, hr⟩ := hrest seen fun id hid =>
        ⟨hid, fun heq => hid (heq ▸ List.contains_iff_mem.mp hseen)⟩
      exact ⟨_, by rw [hr]; rfl⟩
    · rename_i hnew
      have hknown := h i List.mem_cons_self (by simp) (by simpa using hnew)
      obtain ⟨t, ht⟩ := Option.isSome_iff_exists.mp hknown
      obtain ⟨r, hr⟩ := hrest (i.id :: seen) fun id hid => by simpa [and_comm] using hid
      exact ⟨_, by rw [ht]; dsimp only; rw [hr]; rfl⟩

/-- **Known instances have components.** -/
theorem exists_components (h : c.Known catalog) : ∃ ks fs, c.components catalog = .ok (ks, fs) := by
  obtain ⟨⟨ks, fs⟩, hr⟩ := exists_bindFrom catalog c.instances [] fun i hi hfind _ => h i hi hfind
  exact ⟨ks, fs, hr⟩

/-- Instances with components are known. -/
theorem known_of_components {ks : List Component} {fs : List Diagnostic}
    (h : c.components catalog = .ok (ks, fs)) : c.Known catalog := by
  intro i hi hfirst
  obtain ⟨k, hk, hid⟩ := (exists_mem_components_iff h).mpr ⟨i, hi, rfl⟩
  obtain ⟨j, hj, hkj⟩ := componentAt?_eq_some.mp ((mem_components h).mp hk)
  rw [hid, hfirst] at hj
  obtain rfl := Option.some.inj hj
  obtain ⟨t, ht, -⟩ := componentOf?_eq_some.mp hkj
  exact Option.isSome_iff_exists.mpr ⟨t, ht⟩

/-! ### Constraints -/

theorem Precedes.ne {a b : String} (h : c.Precedes catalog a b) : a ≠ b := by
  cases h with
  | forward hk _ => exact hk.ne
  | reverse hk _ => exact hk.ne.symm
  | mention _ _ _ hne => exact hne

theorem exists_addPrecedences : ∀ (ps : List Precedence) {g : Graph}, g.WellFormed →
    (∀ p ∈ ps, p.before ≠ p.after ∧ p.before ∈ g.nodes ∧ p.after ∈ g.nodes) →
    ∃ g', addPrecedences g ps = .ok g' := by
  intro ps
  induction ps with
  | nil => exact fun _ _ => ⟨_, rfl⟩
  | cons p ps ih =>
    intro g hg h
    obtain ⟨⟨hne, hb, ha⟩, hps⟩ := List.forall_mem_cons.mp h
    obtain ⟨g', hg'⟩ := Graph.exists_addEdge hne hb ha
    obtain ⟨_, _, _, hnodes, _⟩ := Graph.addEdge_eq_ok hg'
    obtain ⟨g'', hg''⟩ := ih (hg.addEdge hg') (by rwa [hnodes])
    refine ⟨g'', ?_⟩
    rw [addPrecedences, hg']
    exact hg''

variable {ks : List Component} {fs : List Diagnostic}

/-- A section of a canvas without cycles can be put in order. -/
theorem exists_sectionEntries (hks : c.components catalog = .ok (ks, fs))
    (hfree : c.Unentangled catalog) (zone : Section) :
    ∃ es, sectionEntries (ks.map (entryOf ks (usableConnections catalog ks c.connections)))
      (precedences ks (usableConnections catalog ks c.connections)) zone = .ok es := by
  have hprecedes : ∀ p ∈ precedences ks (usableConnections catalog ks c.connections),
      c.Precedes catalog p.before p.after :=
    fun p hp => (exists_mem_precedences_iff hks).mp ⟨p, hp, rfl, rfl⟩
  rw [sectionEntries]
  set own := (ks.map (entryOf ks (usableConnections catalog ks c.connections))).filter
    (·.component.template.category.zone == zone) with hown
  have hnodup : (own.map (·.id)).Nodup := by
    have hall := components_nodup hks
    rw [← map_entryOf_id ks (usableConnections catalog ks c.connections)] at hall
    exact hall.sublist (List.filter_sublist.map _)
  have hwf := Graph.wellFormed_empty.foldl_addNode (own.map (·.id))
  have hnodes : ((own.map (·.id)).foldl Graph.addNode Graph.empty).nodes = own.map (·.id) :=
    Graph.foldl_addNode_nodes _ (by simpa [Graph.empty] using hnodup)
  obtain ⟨g, hg⟩ := exists_addPrecedences ((precedences ks
      (usableConnections catalog ks c.connections)).filter fun p =>
        (own.map (·.id)).contains p.before && (own.map (·.id)).contains p.after) hwf
    (by
      intro p hp
      obtain ⟨hp, hends⟩ := List.mem_filter.mp hp
      rw [Bool.and_eq_true, List.contains_iff_mem, List.contains_iff_mem] at hends
      rw [hnodes]
      exact ⟨(hprecedes p hp).ne, hends⟩)
  obtain ⟨hgwf, _, hedge⟩ := addPrecedences_eq_ok _ hg hwf
  -- An edge of the section is a constraint of the canvas, and so is a row of edges.
  have hacyclic : g.Acyclic := by
    intro a ha
    refine hfree a (TransGen.mono (fun x y hxy => ?_) a a ha)
    rw [hedge, Graph.Edge, Graph.foldl_addNode_edges] at hxy
    obtain ⟨p, hp, rfl, rfl⟩ := hxy.resolve_left List.not_mem_nil
    exact hprecedes p (List.mem_filter.mp hp).1
  obtain ⟨order, horder⟩ := Graph.exists_sort? hgwf hacyclic g.addedBefore
  refine exists_bind_ok hg ?_
  rw [horder]
  exact ⟨_, rfl⟩

/-- Once the components are known there is a verdict. -/
theorem exists_arrange_of_components (hks : c.components catalog = .ok (ks, fs)) :
    ∃ r, c.arrange catalog = .ok r := by
  have hnodes : ((ks.map (·.id)).foldl Graph.addNode Graph.empty).nodes = ks.map (·.id) :=
    Graph.foldl_addNode_nodes _ (by simpa [Graph.empty] using components_nodup hks)
  have hmem : ∀ {id : String}, (∃ i ∈ c.instances, i.id = id) → id ∈ ks.map (·.id) :=
    fun hid => List.mem_map.mpr ((exists_mem_components_iff hks).mpr hid)
  obtain ⟨g, hg⟩ := exists_addPrecedences (precedences ks
      (usableConnections catalog ks c.connections))
    (Graph.wellFormed_empty.foldl_addNode (ks.map (·.id)))
    (by
      intro p hp
      have hprecedes := (exists_mem_precedences_iff hks).mp ⟨p, hp, rfl, rfl⟩
      rw [hnodes]
      exact ⟨hprecedes.ne, hmem hprecedes.mem_instances.1, hmem hprecedes.mem_instances.2⟩)
  obtain ⟨hwf, hedge⟩ := edge_iff_precedes hks hg
  rw [arrange_eq]
  refine exists_bind_ok hks (exists_bind_ok hg ?_)
  dsimp only
  split
  · rename_i hcycles
    have hfree : c.Unentangled catalog := by
      intro id hid
      refine (Graph.cycles_eq_nil_iff hwf).mp hcycles id ?_
      exact TransGen.mono (fun a b hab => (hedge a b).mpr hab) id id hid
    split
    · have hsections : ∀ zone ∈ Section.all, ∃ s, (do
          let inOrder ← sectionEntries
            (ks.map (entryOf ks (usableConnections catalog ks c.connections)))
            (precedences ks (usableConnections catalog ks c.connections)) zone
          return (zone, inOrder)) = .ok s := by
        intro zone _
        obtain ⟨es, hes⟩ := exists_sectionEntries hks hfree zone
        exact exists_bind_ok hes ⟨_, rfl⟩
      obtain ⟨sections, hsections⟩ := exists_mapM_ok hsections
      exact exists_bind_ok hsections ⟨_, rfl⟩
    · exact ⟨_, rfl⟩
  · exact ⟨_, rfl⟩

/-- **There is always a verdict.** -/
theorem exists_arrange (h : c.Known catalog) : ∃ r, c.arrange catalog = .ok r := by
  obtain ⟨ks, fs, hks⟩ := exists_components h
  exact exists_arrange_of_components hks

end Canvas

end SolidityCanvas
