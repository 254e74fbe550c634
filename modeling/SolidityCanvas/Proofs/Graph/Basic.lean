/-
Graphs as they grow.

`Graph.WellFormed` is what holds of every graph that is made by adding nodes
and edges to the empty one: nodes are listed once, and an edge joins two
different nodes.  `addEdge_eq_ok` says everything that adding an edge can do,
and `foldl_addNode_nodes` that the nodes stand in the order in which they were
added.  A row of such steps makes a graph from the empty one (`ofSteps`), and
it is well formed (`wellFormed_ofSteps`).
-/
import Mathlib.Data.List.Nodup
import Mathlib.Logic.Relation
import SolidityCanvas.Graph

namespace SolidityCanvas

namespace Graph

/-- An edge leads from `a` to `b`. -/
def Edge (g : Graph) (a b : String) : Prop := (a, b) ∈ g.edges

/-- Nodes are listed once, and edges join two different nodes. -/
structure WellFormed (g : Graph) : Prop where
  nodup : g.nodes.Nodup
  source_mem : ∀ {a b}, g.Edge a b → a ∈ g.nodes
  target_mem : ∀ {a b}, g.Edge a b → b ∈ g.nodes
  ne : ∀ {a b}, g.Edge a b → a ≠ b

/-- No path of edges leads back to where it started. -/
def Acyclic (g : Graph) : Prop := ∀ a, ¬ Relation.TransGen g.Edge a a

variable {g g' : Graph}

theorem wellFormed_empty : empty.WellFormed :=
  ⟨List.nodup_nil, fun h => absurd h List.not_mem_nil, fun h => absurd h List.not_mem_nil,
    fun h => absurd h List.not_mem_nil⟩

/-! ### Nodes -/

@[simp] theorem addNode_edges (g : Graph) (a : String) : (g.addNode a).edges = g.edges := by
  rw [addNode]
  split <;> rfl

theorem addNode_nodes_of_notMem {a : String} (ha : a ∉ g.nodes) :
    (g.addNode a).nodes = g.nodes ++ [a] := by
  rw [addNode, if_neg (by simpa using ha)]

theorem WellFormed.addNode (hg : g.WellFormed) (a : String) : (g.addNode a).WellFormed := by
  by_cases ha : a ∈ g.nodes
  · rwa [Graph.addNode, if_pos (by simpa using ha)]
  · have hnodes := addNode_nodes_of_notMem ha
    refine ⟨?_, fun {x y} h => ?_, fun {x y} h => ?_, fun {x y} h => ?_⟩
    · rw [hnodes]
      exact hg.nodup.append (by simp) (by simpa using ha)
    · rw [Edge, addNode_edges] at h
      rw [hnodes]
      exact List.mem_append_left _ (hg.source_mem h)
    · rw [Edge, addNode_edges] at h
      rw [hnodes]
      exact List.mem_append_left _ (hg.target_mem h)
    · rw [Edge, addNode_edges] at h
      exact hg.ne h

@[simp] theorem foldl_addNode_edges (ids : List String) :
    ∀ g : Graph, (ids.foldl Graph.addNode g).edges = g.edges := by
  induction ids with
  | nil => exact fun _ => rfl
  | cons a rest ih =>
    intro g
    rw [List.foldl_cons, ih, addNode_edges]

theorem WellFormed.foldl_addNode (ids : List String) :
    ∀ {g : Graph}, g.WellFormed → (ids.foldl Graph.addNode g).WellFormed := by
  induction ids with
  | nil => exact fun hg => hg
  | cons a rest ih => exact fun hg => ih (hg.addNode a)

/-- Nodes stand in the order in which they were added. -/
theorem foldl_addNode_nodes (ids : List String) : ∀ {g : Graph}, (g.nodes ++ ids).Nodup →
    (ids.foldl Graph.addNode g).nodes = g.nodes ++ ids := by
  induction ids with
  | nil => exact fun _ => (List.append_nil _).symm
  | cons a rest ih =>
    intro g hnd
    have ha : a ∉ g.nodes := by
      intro ha
      exact (List.nodup_append.mp hnd).2.2 a ha a List.mem_cons_self rfl
    have hnodes := addNode_nodes_of_notMem ha
    rw [List.foldl_cons, ih (by rwa [hnodes, List.append_assoc]), hnodes, List.append_assoc]
    rfl

/-! ### Edges -/

/-- What adding an edge can do: the ends are two different nodes, and the edge
is there afterwards beside those before. -/
theorem addEdge_eq_ok {a b : String} (h : g.addEdge a b = .ok g') :
    a ≠ b ∧ a ∈ g.nodes ∧ b ∈ g.nodes ∧ g'.nodes = g.nodes ∧
      ∀ x y, g'.Edge x y ↔ g.Edge x y ∨ (x = a ∧ y = b) := by
  rw [addEdge] at h
  split at h
  · exact absurd h (by simp)
  rename_i hne
  split at h
  · exact absurd h (by simp)
  rename_i ha
  split at h
  · exact absurd h (by simp)
  rename_i hb
  simp only [beq_iff_eq, Bool.not_eq_true', Bool.not_eq_false, List.contains_iff_mem] at hne ha hb
  refine ⟨hne, ha, hb, ?_⟩
  split at h
  · rename_i hab
    obtain rfl := Except.ok.inj h
    refine ⟨rfl, fun x y => ⟨Or.inl, ?_⟩⟩
    rintro (h | ⟨rfl, rfl⟩)
    · exact h
    · exact List.contains_iff_mem.mp hab
  · obtain rfl := Except.ok.inj h
    refine ⟨rfl, fun x y => ?_⟩
    rw [Edge, List.mem_append, List.mem_singleton, Prod.mk.injEq]
    rfl

/-- Two different nodes can be joined. -/
theorem exists_addEdge {a b : String} (hne : a ≠ b) (ha : a ∈ g.nodes) (hb : b ∈ g.nodes) :
    ∃ g', g.addEdge a b = .ok g' := by
  rw [addEdge, if_neg (by simpa using hne), if_neg (by simpa using ha), if_neg (by simpa using hb)]
  split
  · exact ⟨_, rfl⟩
  · exact ⟨_, rfl⟩

theorem WellFormed.addEdge (hg : g.WellFormed) {a b : String} (h : g.addEdge a b = .ok g') :
    g'.WellFormed := by
  obtain ⟨hne, ha, hb, hnodes, hedge⟩ := addEdge_eq_ok h
  refine ⟨hnodes ▸ hg.nodup, fun {x y} hxy => ?_, fun {x y} hxy => ?_, fun {x y} hxy => ?_⟩
  · rw [hnodes]
    rcases (hedge x y).mp hxy with hxy | ⟨rfl, rfl⟩
    · exact hg.source_mem hxy
    · exact ha
  · rw [hnodes]
    rcases (hedge x y).mp hxy with hxy | ⟨rfl, rfl⟩
    · exact hg.target_mem hxy
    · exact hb
  · rcases (hedge x y).mp hxy with hxy | ⟨rfl, rfl⟩
    · exact hg.ne hxy
    · exact hne

theorem mem_dependencies (hg : g.WellFormed) {a b : String} :
    a ∈ g.dependencies b ↔ g.Edge a b := by
  rw [dependencies, List.mem_filter, List.contains_iff_mem]
  exact ⟨And.right, fun h => ⟨hg.source_mem h, h⟩⟩

theorem mem_dependents (hg : g.WellFormed) {a b : String} :
    b ∈ g.dependents a ↔ g.Edge a b := by
  rw [dependents, List.mem_filter, List.contains_iff_mem]
  exact ⟨And.right, fun h => ⟨hg.target_mem h, h⟩⟩

/-! ### Rows of steps -/

/-- A call that makes a graph grow. -/
inductive Step
  | node (a : String)
  | edge (a b : String)
  deriving DecidableEq

/-- The graph after a call. An edge that cannot be added leaves it as it is. -/
def step (g : Graph) : Step → Graph
  | .node a => g.addNode a
  | .edge a b => (g.addEdge a b).toOption.getD g

/-- The graph that a row of calls makes. -/
def ofSteps (steps : List Step) : Graph := steps.foldl step empty

theorem WellFormed.step (hg : g.WellFormed) (s : Step) : (g.step s).WellFormed := by
  cases s with
  | node a => exact hg.addNode a
  | edge a b =>
    rw [Graph.step]
    cases h : g.addEdge a b with
    | error f => exact hg
    | ok g' => exact hg.addEdge h

theorem WellFormed.foldl_step (steps : List Step) :
    ∀ {g : Graph}, g.WellFormed → (steps.foldl Graph.step g).WellFormed := by
  induction steps with
  | nil => exact fun hg => hg
  | cons s rest ih => exact fun hg => ih (hg.step s)

theorem wellFormed_ofSteps (steps : List Step) : (ofSteps steps).WellFormed :=
  wellFormed_empty.foldl_step steps

end Graph

end SolidityCanvas
