/-
What a row of calls makes of a graph.

Nodes and edges are added one after another, and some edges are refused.  The
graph that comes of it lists the nodes in the order in which they were first
added (`nodes_ofSteps`), and joins two of them exactly if a call that was not
refused did (`edge_ofSteps`).  What a graph gives out rests on these two:

* the places of the nodes leave no gap (`WellFormed.bijOn_place`);
* an edge is refused for three reasons (`addEdge_eq_error`), and then nothing
  changes;
* the lists of the two ends of edges agree, and stand in the order of the nodes
  (`mem_dependents`, `mem_dependencies`).

`growsFrom_ofSteps` says all of this for every row of calls.
-/
import Mathlib.Data.List.Induction
import Mathlib.Data.Set.Function
import Mathlib.Order.Interval.Set.Defs
import SolidityCanvas.Proofs.Graph.Basic

namespace SolidityCanvas

namespace Graph

variable {g : Graph} {a b : String} {steps : List Step}

/-! ### Calls that change nothing -/

/-- When an edge is refused, and for which reason. -/
theorem addEdge_eq_error {f : EdgeFault} : g.addEdge a b = .error f ↔
    (a = b ∧ f = .selfReference a) ∨ (a ≠ b ∧ a ∉ g.nodes ∧ f = .noSource a) ∨
      (a ≠ b ∧ a ∈ g.nodes ∧ b ∉ g.nodes ∧ f = .noDestination b) := by
  by_cases hne : a = b
  · rw [addEdge, if_pos (by simpa using hne)]
    simp [hne, eq_comm]
  by_cases ha : a ∈ g.nodes
  · by_cases hb : b ∈ g.nodes
    · obtain ⟨g', h⟩ := exists_addEdge hne ha hb
      simp [h, hne, ha, hb]
    · rw [addEdge, if_neg (by simpa using hne), if_neg (by simpa using ha),
        if_pos (by simpa using hb)]
      simp [hne, ha, hb, eq_comm]
  · rw [addEdge, if_neg (by simpa using hne), if_pos (by simpa using ha)]
    simp [hne, ha, eq_comm]

theorem addNode_of_mem (ha : a ∈ g.nodes) : g.addNode a = g := by
  rw [addNode, if_pos (by simpa using ha)]

/-- An edge that is there is not added again. -/
theorem WellFormed.addEdge_of_edge (hg : g.WellFormed) (h : g.Edge a b) :
    g.addEdge a b = .ok g := by
  rw [Graph.addEdge, if_neg (by simpa using hg.ne h), if_neg (by simpa using hg.source_mem h),
    if_neg (by simpa using hg.target_mem h), if_pos (List.contains_iff_mem.mpr h)]

theorem step_of_refused {f : EdgeFault} (h : g.addEdge a b = .error f) :
    g.step (.edge a b) = g := by
  rw [step, h]
  rfl

theorem step_edge_nodes (g : Graph) (a b : String) : (g.step (.edge a b)).nodes = g.nodes := by
  cases h : g.addEdge a b with
  | error f => rw [step_of_refused h]
  | ok g' =>
    rw [step, h]
    exact (addEdge_eq_ok h).2.2.2.1

/-! ### Places -/

theorem getElem?_place (ha : a ∈ g.nodes) : g.nodes[g.place a]? = some a := by
  rw [place, List.getElem?_eq_getElem (List.idxOf_lt_length_of_mem ha), List.getElem_idxOf]

/-- **The places of the nodes leave no gap.** -/
theorem WellFormed.bijOn_place (hg : g.WellFormed) :
    Set.BijOn g.place {a | a ∈ g.nodes} (Set.Iio g.size) := by
  refine ⟨fun a ha => List.idxOf_lt_length_of_mem ha, fun a ha b hb hab => ?_, fun i hi => ?_⟩
  · have hnode := getElem?_place (g := g) ha
    rw [hab, getElem?_place hb] at hnode
    exact (Option.some_inj.mp hnode).symm
  · exact ⟨g.nodes[i], List.getElem_mem hi, hg.nodup.idxOf_getElem i hi⟩

/-- Some of the nodes in their order have rising places. -/
theorem WellFormed.pairwise_place (hg : g.WellFormed) {l : List String} (h : l.Sublist g.nodes) :
    l.Pairwise fun a b => g.place a < g.place b := by
  refine List.Pairwise.sublist h (List.pairwise_iff_getElem.mpr fun i j hi hj hij => ?_)
  rwa [place, place, hg.nodup.idxOf_getElem, hg.nodup.idxOf_getElem]

/-! ### Rows of calls -/

/-- The names that a row of calls gives to nodes. -/
def added (steps : List Step) : List String :=
  steps.filterMap fun
    | .node a => some a
    | .edge _ _ => none

/-- One of the calls joined two nodes: at its time the edge was not refused. -/
def Joins (steps : List Step) (a b : String) : Prop :=
  ∃ earlier, earlier ++ [.edge a b] <+: steps ∧ ∃ g, (ofSteps earlier).addEdge a b = .ok g

theorem ofSteps_concat (steps : List Step) (s : Step) :
    ofSteps (steps ++ [s]) = (ofSteps steps).step s := by
  rw [ofSteps, List.foldl_append]
  rfl

/-- **Nodes stand in the order in which they were first added.** -/
theorem nodes_ofSteps (steps : List Step) : (ofSteps steps).nodes = (added steps).eraseDups := by
  induction steps using List.reverseRecOn with
  | nil => rfl
  | append_singleton steps s ih =>
    rw [ofSteps_concat]
    cases s with
    | edge a b =>
      have hadded : added (steps ++ [.edge a b]) = added steps := by simp [added]
      rw [step_edge_nodes, ih, hadded]
    | node a =>
      have hadded : added (steps ++ [.node a]) = added steps ++ [a] := by simp [added]
      have hmem : a ∈ (ofSteps steps).nodes ↔ a ∈ added steps := by rw [ih, List.mem_eraseDups]
      rw [hadded, List.eraseDups_append, ← ih, step]
      by_cases ha : a ∈ (ofSteps steps).nodes
      · simp [addNode_of_mem ha, List.removeAll, hmem.mp ha]
      · simp [addNode_nodes_of_notMem ha, List.removeAll, mt hmem.mpr ha, List.eraseDups_cons]

theorem joins_concat {s : Step} : Joins (steps ++ [s]) a b ↔
    Joins steps a b ∨ (s = .edge a b ∧ ∃ g, (ofSteps steps).addEdge a b = .ok g) := by
  constructor
  · rintro ⟨earlier, hprefix, hok⟩
    rcases List.prefix_concat_iff.mp hprefix with heq | hprefix
    · obtain ⟨rfl, hs⟩ := List.append_inj' heq rfl
      exact .inr ⟨(List.singleton_inj.mp hs).symm, hok⟩
    · exact .inl ⟨earlier, hprefix, hok⟩
  · rintro (⟨earlier, hprefix, hok⟩ | ⟨rfl, hok⟩)
    · exact ⟨earlier, List.prefix_concat_iff.mpr (.inr hprefix), hok⟩
    · exact ⟨steps, List.prefix_rfl, hok⟩

/-- What a call does to the edges. -/
theorem edge_step {s : Step} : (g.step s).Edge a b ↔
    g.Edge a b ∨ (s = .edge a b ∧ ∃ g', g.addEdge a b = .ok g') := by
  cases s with
  | node c => simp [step, Edge]
  | edge c d =>
    cases h : g.addEdge c d with
    | error f =>
      rw [step_of_refused h]
      refine ⟨.inl, fun hor => hor.resolve_right ?_⟩
      rintro ⟨heq, g', hok⟩
      obtain ⟨rfl, rfl⟩ := Step.edge.inj heq
      rw [h] at hok
      cases hok
    | ok g' =>
      have hstep : g.step (.edge c d) = g' := by rw [step, h]; rfl
      rw [hstep, (addEdge_eq_ok h).2.2.2.2]
      refine or_congr_right ⟨?_, ?_⟩
      · rintro ⟨rfl, rfl⟩
        exact ⟨rfl, g', h⟩
      · rintro ⟨heq, -⟩
        obtain ⟨rfl, rfl⟩ := Step.edge.inj heq
        exact ⟨rfl, rfl⟩

/-- **Two nodes are joined exactly if a call that was not refused joined them.** -/
theorem edge_ofSteps : (ofSteps steps).Edge a b ↔ Joins steps a b := by
  induction steps using List.reverseRecOn with
  | nil => simp [ofSteps, empty, Edge, Joins]
  | append_singleton steps s ih => rw [ofSteps_concat, edge_step, joins_concat, ih]

/-! ### What a graph gives out -/

/-- What a graph says about the calls that made it. -/
structure GrowsFrom (g : Graph) (steps : List Step) : Prop where
  /-- Every name that was added is listed once, where it was added first. -/
  nodes_eq : g.nodes = (added steps).eraseDups
  nodup : g.nodes.Nodup
  /-- The places of the nodes are the numbers below the number of nodes, each of them once. -/
  places : Set.BijOn g.place {a | a ∈ g.nodes} (Set.Iio g.size)
  node_at_place : ∀ a ∈ g.nodes, g.nodes[g.place a]? = some a
  node_again : ∀ a ∈ g.nodes, g.addNode a = g
  refused_iff : ∀ a b, (∃ f, g.addEdge a b = .error f) ↔ a = b ∨ a ∉ g.nodes ∨ b ∉ g.nodes
  step_refused : ∀ a b f, g.addEdge a b = .error f → g.step (.edge a b) = g
  edge_again : ∀ a b, g.Edge a b → g.addEdge a b = .ok g
  /-- Only nodes have lists of what is joined to them. -/
  dependents?_eq : ∀ a, g.dependents? a = if a ∈ g.nodes then some (g.dependents a) else none
  dependencies?_eq : ∀ b, g.dependencies? b = if b ∈ g.nodes then some (g.dependencies b) else none
  mem_dependents_iff : ∀ a b, b ∈ g.dependents a ↔ a ∈ g.dependencies b
  mem_dependencies_iff : ∀ a b, a ∈ g.dependencies b ↔ Joins steps a b
  /-- Rising places say that nothing is listed twice, and all in the order of the nodes. -/
  dependents_rise : ∀ a, (g.dependents a).Pairwise fun b c => g.place b < g.place c
  dependencies_rise : ∀ b, (g.dependencies b).Pairwise fun a c => g.place a < g.place c

/-- **A graph says all about the calls that made it**, whatever calls they are. -/
theorem growsFrom_ofSteps (steps : List Step) : (ofSteps steps).GrowsFrom steps := by
  have hg := wellFormed_ofSteps steps
  exact {
    nodes_eq := nodes_ofSteps steps
    nodup := hg.nodup
    places := hg.bijOn_place
    node_at_place := fun a ha => getElem?_place ha
    node_again := fun a ha => addNode_of_mem ha
    refused_iff := fun a b => by
      simp only [addEdge_eq_error]
      grind
    step_refused := fun a b f h => step_of_refused h
    edge_again := fun a b h => hg.addEdge_of_edge h
    dependents?_eq := fun a => by simp [dependents?]
    dependencies?_eq := fun b => by simp [dependencies?]
    mem_dependents_iff := fun a b => by rw [mem_dependents hg, mem_dependencies hg]
    mem_dependencies_iff := fun a b => by rw [mem_dependencies hg, edge_ofSteps]
    dependents_rise := fun a => hg.pairwise_place List.filter_sublist
    dependencies_rise := fun b => hg.pairwise_place List.filter_sublist }

end Graph

end SolidityCanvas
