/-
Dependency graphs.

A graph has named nodes, each with the names of the nodes that depend on it.
Nodes are kept in the order in which they were added, and that order decides
every list the graph gives out.

* `addNode`, `addEdge?`: growing a graph. An edge from `a` to `b` says that
  `b` depends on `a`.
* `dependencies?`, `dependents?`: the two ends of a node's edges.
* `cycles`: the sets of two or more nodes that reach each other.
* `sort?`: the order that puts the least ready node next, if there is no
  cycle. It does not matter in which order nodes and edges are gone through
  (`Walk`).
-/
import SolidityCanvas.Queue

namespace SolidityCanvas

/-- A directed graph on names. `edges` holds pairs of a node and one that
depends on it. -/
structure Graph where
  nodes : List String := []
  edges : List (String × String) := []
  deriving DecidableEq, Inhabited

namespace Graph

/-- The graph without nodes. -/
def empty : Graph := {}

/-- Why an edge cannot be added. -/
inductive EdgeFault
  | selfReference (node : String)
  | noSource (node : String)
  | noDestination (node : String)
  deriving DecidableEq

/-- The wording of a refused edge. -/
def EdgeFault.message : EdgeFault → String
  | selfReference a => "self-referential edge not allowed: " ++ a ++ " -> " ++ a
  | noSource a => "source node not found: " ++ a
  | noDestination b => "destination node not found: " ++ b

/-- Adds a node; one that is there already stays where it is. -/
def addNode (g : Graph) (a : String) : Graph :=
  if g.nodes.contains a then g else { g with nodes := g.nodes ++ [a] }

/-- Adds the edge that makes `b` depend on `a`; one that is there already is
not added twice. -/
def addEdge (g : Graph) (a b : String) : Except EdgeFault Graph :=
  if a == b then .error (.selfReference a)
  else if !g.nodes.contains a then .error (.noSource a)
  else if !g.nodes.contains b then .error (.noDestination b)
  else if g.edges.contains (a, b) then .ok g
  else .ok { g with edges := g.edges ++ [(a, b)] }

/-- The number of nodes. -/
def size (g : Graph) : Nat := g.nodes.length

/-- The nodes that `b` depends on. -/
def dependencies (g : Graph) (b : String) : List String :=
  g.nodes.filter fun a => g.edges.contains (a, b)

/-- The nodes that depend on `a`. -/
def dependents (g : Graph) (a : String) : List String :=
  g.nodes.filter fun b => g.edges.contains (a, b)

/-- The nodes that `b` depends on, if `b` is a node. -/
def dependencies? (g : Graph) (b : String) : Option (List String) :=
  if g.nodes.contains b then some (g.dependencies b) else none

/-- The nodes that depend on `a`, if `a` is a node. -/
def dependents? (g : Graph) (a : String) : Option (List String) :=
  if g.nodes.contains a then some (g.dependents a) else none

/-! ### Cycles -/

/-- The nodes outside `seen` that one edge leads to from a member of
`newest`. -/
def frontier (g : Graph) (seen newest : List String) : List String :=
  (((g.edges.filter fun e => newest.contains e.1).map (·.2)).filter
    fun b => !seen.contains b).eraseDups

/-- The members of `seen` and the nodes that at most `steps` edges lead to
from `newest`, which are the members of `seen` that were added last. -/
def reachFrom (g : Graph) : Nat → List String → List String → List String
  | 0, seen, _ => seen
  | steps + 1, seen, newest =>
    match g.frontier seen newest with
    | [] => seen
    | next => g.reachFrom steps (seen ++ next) next

/-- The nodes reached from `a`, which is one of them. A path that repeats no
node has fewer edges than the graph has nodes. -/
def reachable (g : Graph) (a : String) : List String := g.reachFrom g.nodes.length [a] [a]

/-- Each node with the nodes reached from it. -/
def reachTable (g : Graph) : List (String × List String) :=
  g.nodes.map fun a => (a, g.reachable a)

/-- The nodes that reach `a` and are reached from it, by a table of what each
node reaches. -/
def componentIn (table : List (String × List String)) (a : String) (reached : List String) :
    List String :=
  (table.filter fun (b, reachedFromB) => reached.contains b && reachedFromB.contains a).map (·.1)

/-- The nodes that reach `a` and are reached from it. -/
def component (g : Graph) (a : String) : List String :=
  componentIn g.reachTable a (g.reachable a)

/-- The components, each where its first member stands. -/
def components (g : Graph) : List (List String) :=
  let table := g.reachTable
  table.filterMap fun (a, reached) =>
    let members := componentIn table a reached
    if members.head? == some a then some members else none

/-- Puts a member before the first one with a key that is not less. -/
def insertBy {α : Type} (key : α → Nat) (a : α) : List α → List α
  | [] => [a]
  | b :: rest => if key a ≤ key b then a :: b :: rest else b :: insertBy key a rest

/-- The members in the order of their keys. -/
def sortBy {α : Type} (key : α → Nat) (l : List α) : List α := l.foldr (insertBy key) []

/-- The place of a node among the others. -/
def place (g : Graph) (a : String) : Nat := g.nodes.idxOf a

/-- Those of some components that have two or more nodes, each in the order
of its nodes, and by their first members. -/
def cyclesAmong (g : Graph) (parts : List (List String)) : List (List String) :=
  let cyclic := (parts.filter fun members => 2 ≤ members.length).map (sortBy g.place)
  sortBy (fun members => g.place (members.headD "")) cyclic

/-- The components of two or more nodes, by their first members. -/
def cycles (g : Graph) : List (List String) := g.cyclesAmong g.components

/-- The wording of a refused graph. -/
def cyclesMessage (components : List (List String)) : String :=
  "cycle detected involving nodes: " ++
    "; ".intercalate (components.map fun c => " -> ".intercalate c)

/-! ### Order -/

/-- Whether `a` was added before `b`. -/
def addedBefore (g : Graph) (a b : String) : Bool := g.place a < g.place b

/-- The nodes of a graph in some order, and those that depend on each in some
order. -/
structure Walk (g : Graph) where
  nodes : List String
  dependents : String → List String
  nodes_perm : nodes.Perm g.nodes
  dependents_perm : ∀ a, (dependents a).Perm (g.dependents a)

/-- The walk that takes nodes in the order in which they were added. -/
def Walk.inOrder (g : Graph) : g.Walk := ⟨g.nodes, g.dependents, .refl _, fun _ => .refl _⟩

/-- A graph while it is sorted: the nodes that are placed, the number of
dependencies each node still waits for, and the nodes that wait for none and
are not placed yet. -/
structure Sorting where
  placed : List String
  pending : List (String × Int)
  ready : Queue String
  deriving Inhabited

namespace Sorting

variable {g : Graph}

/-- Nothing is placed. -/
def start (w : g.Walk) (less : String → String → Bool) : Sorting where
  placed := []
  pending := w.nodes.map fun b => (b, (g.dependencies b).length)
  ready := .ofArray less (w.nodes.filter fun b => (g.dependencies b).length == 0).toArray

/-- A node waits for one dependency less, and is ready if that was the last. -/
def release (less : String → String → Bool) (s : Sorting) (b : String) : Sorting :=
  let pending := s.pending.map fun p => (p.1, if p.1 == b then p.2 - 1 else p.2)
  if pending.lookup b == some 0 then { s with pending, ready := s.ready.push less b }
  else { s with pending }

/-- Places the least ready node, and then nothing that depends on it waits
for it any more. -/
def place? (w : g.Walk) (less : String → String → Bool) (s : Sorting) : Option Sorting :=
  (s.ready.pop? less).map fun (a, rest) =>
    (w.dependents a).foldl (release less) { s with placed := s.placed ++ [a], ready := rest }

/-- Places `steps` nodes, or as many as get ready. -/
def run (w : g.Walk) (less : String → String → Bool) : Nat → Sorting → Sorting
  | 0, s => s
  | steps + 1, s =>
    match s.place? w less with
    | none => s
    | some next => next.run w less steps

end Sorting

/-- The topological order that always puts the least ready node next, or
`none` if the graph has a cycle. No node is placed twice, so that there are no
more steps than nodes. -/
def sortAlong (g : Graph) (w : g.Walk) (less : String → String → Bool) : Option (List String) :=
  let s := (Sorting.start w less).run w less g.nodes.length
  if s.placed.length == s.pending.length then some s.placed else none

/-- The topological order of a graph. -/
def sort? (g : Graph) (less : String → String → Bool) : Option (List String) :=
  g.sortAlong (.inOrder g) less

/-- The wording for a graph that cannot be sorted. -/
def unsortableMessage : String := "sorting graph: graph contains a cycle"

/-- The wording for a name that is no node. -/
def missingMessage (a : String) : String := "node not found: " ++ a

end Graph

end SolidityCanvas
