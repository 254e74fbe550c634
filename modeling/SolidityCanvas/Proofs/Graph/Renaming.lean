/-
Graphs with other names.

What a graph gives out depends on the order of its nodes and on which of them are
joined.  Neither the names of the nodes nor the order in which the edges were added
matter (`Graph.Renamed`):

* `Renamed.cycles_eq`: the cycles of the one graph are those of the other;
* `Renamed.sort?_eq`: so is the order in which nodes are placed, where those that
  were added before come first.
-/
import Mathlib.Data.Set.Function
import SolidityCanvas.Proofs.Graph.Cycles
import SolidityCanvas.Proofs.Graph.Sort

open Relation

namespace SolidityCanvas

namespace Graph

/-- The nodes of the second graph are those of the first one under other names,
and are joined as those are. -/
structure Renamed (σ : String → String) (g g' : Graph) : Prop where
  injOn : Set.InjOn σ {a | a ∈ g.nodes}
  nodes : g'.nodes = g.nodes.map σ
  edge : ∀ a ∈ g.nodes, ∀ b ∈ g.nodes, (g'.Edge (σ a) (σ b) ↔ g.Edge a b)

variable {σ : String → String} {g g' : Graph}

namespace Renamed

theorem mem_nodes (h : Renamed σ g g') {a : String} (ha : a ∈ g.nodes) : σ a ∈ g'.nodes := by
  rw [h.nodes]
  exact List.mem_map_of_mem ha

theorem mem_map_iff (h : Renamed σ g g') {l : List String} (hl : l ⊆ g.nodes) {a : String}
    (ha : a ∈ g.nodes) : σ a ∈ l.map σ ↔ a ∈ l := by
  constructor
  · intro hmem
    obtain ⟨b, hb, hab⟩ := List.mem_map.mp hmem
    rwa [← h.injOn (hl hb) ha hab]
  · exact List.mem_map_of_mem

/-! ### Cycles -/

/-- **Paths lead to the same nodes.** -/
theorem reflTransGen_iff (h : Renamed σ g g') (hg : g.WellFormed) (hg' : g'.WellFormed)
    {a b : String} (ha : a ∈ g.nodes) (hb : b ∈ g.nodes) :
    ReflTransGen g'.Edge (σ a) (σ b) ↔ ReflTransGen g.Edge a b := by
  constructor
  · intro hpath
    -- Each node of the path has a name in the first graph.
    have hgo : ∀ y, ReflTransGen g'.Edge (σ a) y →
        ∃ x ∈ g.nodes, σ x = y ∧ ReflTransGen g.Edge a x := by
      intro y hy
      induction hy with
      | refl => exact ⟨a, ha, rfl, .refl⟩
      | tail _ he ih =>
        obtain ⟨x, hx, rfl, hax⟩ := ih
        obtain ⟨z, hz, rfl⟩ := List.mem_map.mp (h.nodes ▸ hg'.target_mem he)
        exact ⟨z, hz, rfl, hax.tail ((h.edge x hx z hz).mp he)⟩
    obtain ⟨x, hx, hxb, hax⟩ := hgo _ hpath
    rwa [← h.injOn hx hb hxb]
  · intro hpath
    clear hb
    induction hpath with
    | refl => exact .refl
    | tail hax he ih =>
      exact ih.tail ((h.edge _ (hg.source_mem he) _ (hg.target_mem he)).mpr he)

theorem component_eq (h : Renamed σ g g') (hg : g.WellFormed) (hg' : g'.WellFormed) {a : String}
    (ha : a ∈ g.nodes) : g'.component (σ a) = (g.component a).map σ := by
  rw [component, component, componentIn_reachTable, componentIn_reachTable, h.nodes,
    List.filter_map]
  congr 1
  refine List.filter_congr fun b hb => ?_
  rw [Function.comp_apply, Bool.eq_iff_iff]
  simp only [Bool.and_eq_true, List.contains_iff_mem, mem_reachable hg ha, mem_reachable hg hb,
    mem_reachable hg' (h.mem_nodes ha), mem_reachable hg' (h.mem_nodes hb),
    h.reflTransGen_iff hg hg' ha hb, h.reflTransGen_iff hg hg' hb ha]

/-- The same components are found. -/
theorem components_eq (h : Renamed σ g g') (hg : g.WellFormed) (hg' : g'.WellFormed) :
    g'.components = g.components.map (List.map σ) := by
  have hcomponents : ∀ k : Graph, k.components = k.nodes.filterMap fun a =>
      if (k.component a).head? == some a then some (k.component a) else none := by
    intro k
    rw [components, reachTable, List.filterMap_map]
    rfl
  rw [hcomponents, hcomponents, h.nodes, List.filterMap_map, List.map_filterMap]
  refine List.filterMap_congr fun a ha => ?_
  have hhead : (((g.component a).map σ).head? == some (σ a)) = ((g.component a).head? == some a) := by
    rw [Bool.eq_iff_iff, beq_iff_eq, beq_iff_eq, List.head?_map, Option.map_eq_some_iff]
    constructor
    · rintro ⟨b, hb, hab⟩
      have hb' := (mem_component hg ha).mp (List.mem_of_head? hb)
      rw [hb, h.injOn (reflTransGen_mem hg ha hb'.1) ha hab]
    · exact fun hb => ⟨a, hb, rfl⟩
  rw [Function.comp_apply, h.component_eq hg hg' ha, hhead]
  split <;> rfl

/-- Nodes stand at the same places. -/
theorem place_eq (h : Renamed σ g g') {a : String} (ha : a ∈ g.nodes) :
    g'.place (σ a) = g.place a := by
  have hplace : ∀ l : List String, l ⊆ g.nodes → (l.map σ).idxOf (σ a) = l.idxOf a := by
    intro l hl
    induction l with
    | nil => rfl
    | cons y l ih =>
      obtain ⟨hy, hl⟩ := List.cons_subset.mp hl
      rw [List.map_cons, List.idxOf_cons, List.idxOf_cons, ih hl]
      have hya : (σ y == σ a) = (y == a) := by
        rw [Bool.eq_iff_iff, beq_iff_eq, beq_iff_eq]
        exact ⟨h.injOn hy ha, congrArg σ⟩
      rw [hya]
  rw [place, place, h.nodes, hplace _ (List.Subset.refl _)]

theorem sortBy_map {α β : Type} (f : α → β) {key : α → Nat} {key' : β → Nat} {l : List α}
    (hkey : ∀ a ∈ l, key' (f a) = key a) : sortBy key' (l.map f) = (sortBy key l).map f := by
  rw [sortBy_eq_insertionSort, sortBy_eq_insertionSort]
  refine (List.map_insertionSort _ _ f l fun a ha b hb => ?_).symm
  rw [hkey a ha, hkey b hb]

/-- **The same cycles are found.** -/
theorem cycles_eq (h : Renamed σ g g') (hg : g.WellFormed) (hg' : g'.WellFormed) :
    g'.cycles = g.cycles.map (List.map σ) := by
  have hnode : ∀ part ∈ g.components, ∀ a ∈ part, a ∈ g.nodes :=
    fun part hpart a ha => ((isPartition_components hg).mem_nodes a).mp ⟨part, hpart, ha⟩
  have hfilter : (g.components.map (List.map σ)).filter (fun members => 2 ≤ members.length) =
      (g.components.filter fun members => 2 ≤ members.length).map (List.map σ) := by
    rw [List.filter_map]
    simp [Function.comp_def]
  rw [cycles, cycles, cyclesAmong, cyclesAmong, h.components_eq hg hg', hfilter, List.map_map]
  have hcyclic : (g.components.filter fun members => 2 ≤ members.length).map
      (sortBy g'.place ∘ List.map σ) =
      ((g.components.filter fun members => 2 ≤ members.length).map (sortBy g.place)).map
        (List.map σ) := by
    rw [List.map_map]
    refine List.map_congr_left fun part hpart => ?_
    exact sortBy_map σ fun a ha => h.place_eq (hnode part (List.mem_of_mem_filter hpart) a ha)
  rw [hcyclic]
  refine sortBy_map _ fun members hmembers => ?_
  obtain ⟨part, hpart, rfl⟩ := List.mem_map.mp hmembers
  obtain ⟨hpart, hlength⟩ := List.mem_filter.mp hpart
  have hperm := perm_sortBy g.place part
  rw [decide_eq_true_eq, ← hperm.length_eq] at hlength
  cases hsorted : sortBy g.place part with
  | nil => rw [hsorted] at hlength; cases hlength
  | cons a rest =>
    have ha : a ∈ part := hperm.mem_iff.mp (hsorted ▸ List.mem_cons_self)
    exact h.place_eq (hnode part hpart a ha)

/-! ### Order -/

/-- The same nodes are ready. -/
theorem ready_eq (h : Renamed σ g g') (hg : g.WellFormed) (hg' : g'.WellFormed)
    {placed : List String} (hplaced : placed ⊆ g.nodes) :
    g'.ready (placed.map σ) = (g.ready placed).map σ := by
  have hready : ∀ (k : Graph) (l : List String), k.ready l =
      k.nodes.filter fun b => (k.ready l).contains b := by
    intro k l
    rw [ready]
    refine List.filter_congr fun b hb => ?_
    rw [Bool.eq_iff_iff, List.contains_iff_mem, List.mem_filter]
    exact ⟨fun hp => ⟨hb, hp⟩, And.right⟩
  rw [hready g', hready g, h.nodes, List.filter_map]
  congr 1
  refine List.filter_congr fun b hb => ?_
  rw [Function.comp_apply, Bool.eq_iff_iff, List.contains_iff_mem, List.contains_iff_mem,
    mem_ready, mem_ready, h.mem_map_iff hplaced hb]
  refine and_congr (iff_of_true (h.mem_nodes hb) hb) (and_congr_right fun _ => ?_)
  constructor
  · intro hbefore a he
    have ha := hg.source_mem he
    exact (h.mem_map_iff hplaced ha).mp (hbefore _ ((h.edge a ha b hb).mpr he))
  · intro hbefore y he
    obtain ⟨a, ha, rfl⟩ := List.mem_map.mp (h.nodes ▸ hg'.source_mem he)
    exact List.mem_map_of_mem (hbefore a ((h.edge a ha b hb).mp he))

/-- Nodes were added in the same order. -/
theorem addedBefore_eq (h : Renamed σ g g') {a b : String} (ha : a ∈ g.nodes) (hb : b ∈ g.nodes) :
    g'.addedBefore (σ a) (σ b) = g.addedBefore a b := by
  rw [addedBefore, addedBefore, h.place_eq ha, h.place_eq hb]

/-- Greedy orders are the same. -/
theorem greedy_map (h : Renamed σ g g') (hg : g.WellFormed) (hg' : g'.WellFormed)
    {order : List String} (hsub : order ⊆ g.nodes) (hgreedy : g.Greedy g.addedBefore order) :
    g'.Greedy g'.addedBefore (order.map σ) := by
  intro placed' a' rest' heq
  obtain ⟨placed, after, rfl, rfl, hafter⟩ := List.map_eq_append_iff.mp heq
  obtain ⟨a, rest, rfl, rfl, rfl⟩ := List.map_eq_cons_iff.mp hafter
  obtain ⟨ha, hleast⟩ := hgreedy placed a rest rfl
  rw [h.ready_eq hg hg' (List.append_subset.mp hsub).1]
  refine ⟨List.mem_map_of_mem ha, fun b' hb' hne => ?_⟩
  obtain ⟨b, hb, rfl⟩ := List.mem_map.mp hb'
  rw [h.addedBefore_eq (mem_ready.mp ha).1 (mem_ready.mp hb).1]
  exact hleast b hb fun hba => hne (congrArg σ hba)

/-- **Nodes are put in the same order.** -/
theorem sort?_eq (h : Renamed σ g g') (hg : g.WellFormed) (hg' : g'.WellFormed) :
    g'.sort? g'.addedBefore = (g.sort? g.addedBefore).map (List.map σ) := by
  have hacyclic : g'.Acyclic ↔ g.Acyclic := by
    rw [← cycles_eq_nil_iff hg, ← cycles_eq_nil_iff hg', h.cycles_eq hg hg', List.map_eq_nil_iff]
  cases hsort : g.sort? g.addedBefore with
  | none =>
    refine (sortAlong_eq_none_iff hg').mpr ?_
    have hcyclic := (sortAlong_eq_none_iff hg).mp hsort
    by_contra hnone
    obtain ⟨a, ha⟩ := hcyclic
    exact hacyclic.mp (not_exists.mp hnone) a ha
  | some order =>
    have htop := sortAlong_eq_some hg hsort
    obtain ⟨order', hsort'⟩ := exists_sort? hg' (hacyclic.mpr htop.acyclic) g'.addedBefore
    have hgreedy := h.greedy_map hg hg' htop.perm.subset
      (greedy_of_sortAlong hg (strictTotalOn_addedBefore g) hsort)
    have hgreedy' := greedy_of_sortAlong hg' (strictTotalOn_addedBefore g') hsort'
    have hlength : order'.length = (order.map σ).length := by
      rw [(sort?_perm hg' hsort').length_eq, h.nodes, List.length_map, List.length_map,
        htop.perm.length_eq]
    rw [hsort', hgreedy'.eq (strictTotalOn_addedBefore g') hgreedy hlength]
    rfl

end Renamed

end Graph

end SolidityCanvas
