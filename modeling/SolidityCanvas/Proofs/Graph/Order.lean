/-
Orders of the nodes of a graph.

A topological order lists all nodes, each after those it depends on
(`Graph.Topological`).  Where nothing leads back to where it started, a node
can always be placed next (`exists_mem_ready`), and a choice among those that
can is a matter of `less`:

* `Greedy`: each node is the least of those that were ready when it was placed;
* `Greedy.eq`: there is one such order at most;
* `Greedy.eq_or_lex`: it comes before every other topological order, compared
  node by node.
-/
import Mathlib.Data.List.Basic
import Mathlib.Data.List.Lex
import Mathlib.Data.List.Perm.Subperm
import Mathlib.Order.WellFoundedSet
import SolidityCanvas.Proofs.Graph.Basic

open Relation

namespace SolidityCanvas

namespace Graph

variable {g : Graph} {less : String → String → Bool}

/-! ### Ready nodes -/

/-- The nodes not yet placed whose dependencies are all placed. -/
def ready (g : Graph) (placed : List String) : List String :=
  g.nodes.filter fun b =>
    !placed.contains b && g.edges.all fun e => e.2 != b || placed.contains e.1

theorem mem_ready {placed : List String} {b : String} :
    b ∈ g.ready placed ↔ b ∈ g.nodes ∧ b ∉ placed ∧ ∀ a, g.Edge a b → a ∈ placed := by
  rw [ready, List.mem_filter, Bool.and_eq_true, List.all_eq_true]
  refine and_congr_right fun _ => and_congr (by simp) ?_
  constructor
  · intro h a he
    simpa using h (a, b) he
  · rintro h ⟨a, b'⟩ he
    by_cases hb : b' = b
    · subst hb
      simpa using h a he
    · simp [hb]

theorem nodup_ready (hg : g.WellFormed) (placed : List String) : (g.ready placed).Nodup :=
  hg.nodup.filter _

/-- As long as nodes are missing, one is ready. -/
theorem exists_mem_ready (hg : g.WellFormed) (hacyclic : g.Acyclic) {placed : List String}
    {b : String} (hb : b ∈ g.nodes) (hmissing : b ∉ placed) : ∃ a, a ∈ g.ready placed := by
  have : IsStrictOrder String (TransGen g.Edge) :=
    { irrefl := hacyclic, trans := fun _ _ _ => TransGen.trans }
  let missing : Set String := {a | a ∈ g.nodes ∧ a ∉ placed}
  have hfinite : missing.Finite := g.nodes.finite_toSet.subset fun _ ha => ha.1
  have hwf : missing.WellFoundedOn (TransGen g.Edge) := hfinite.wellFoundedOn
  -- No missing node leads to a least one of them.
  obtain ⟨⟨a, ha⟩, -, hleast⟩ := WellFounded.has_min hwf Set.univ ⟨⟨b, hb, hmissing⟩, trivial⟩
  refine ⟨a, mem_ready.mpr ⟨ha.1, ha.2, fun x hx => ?_⟩⟩
  by_contra hplaced
  exact hleast ⟨x, hg.source_mem hx, hplaced⟩ trivial (.single hx)

/-! ### Legal and topological orders -/

/-- Nodes that can be written one after another: each is listed once, and
after all it depends on. -/
structure Legal (g : Graph) (placed : List String) : Prop where
  nodup : placed.Nodup
  subset : placed ⊆ g.nodes
  before : ∀ {a b}, g.Edge a b → b ∈ placed → placed.idxOf a < placed.idxOf b

theorem legal_nil : g.Legal [] :=
  ⟨List.nodup_nil, List.nil_subset _, fun _ h => absurd h List.not_mem_nil⟩

/-- What a placed node depends on is placed. -/
theorem Legal.source_mem {placed : List String} (h : g.Legal placed) {a b : String}
    (he : g.Edge a b) (hb : b ∈ placed) : a ∈ placed :=
  List.idxOf_lt_length_iff.mp ((h.before he hb).trans (List.idxOf_lt_length_iff.mpr hb))

/-- Placing a ready node keeps the order legal. -/
theorem Legal.concat {placed : List String} {c : String} (h : g.Legal placed)
    (hc : c ∈ g.ready placed) : g.Legal (placed ++ [c]) := by
  obtain ⟨hnode, hnew, hdeps⟩ := mem_ready.mp hc
  refine ⟨?_, ?_, fun {a b} he hb => ?_⟩
  · exact h.nodup.append (by simp) (by simpa using hnew)
  · exact List.append_subset.mpr ⟨h.subset, by simpa using hnode⟩
  -- Places of what was placed before stay; the new node comes after all of it.
  · by_cases hbp : b ∈ placed
    · rw [List.idxOf_append_of_mem (h.source_mem he hbp), List.idxOf_append_of_mem hbp]
      exact h.before he hbp
    · obtain rfl : b = c := by
        rcases List.mem_append.mp hb with hb | hb
        · exact absurd hb hbp
        · exact List.mem_singleton.mp hb
      have ha := hdeps a he
      rw [List.idxOf_append_of_mem ha, List.idxOf_append_of_notMem hbp]
      exact Nat.lt_of_lt_of_le (List.idxOf_lt_length_iff.mpr ha) (Nat.le_add_right _ _)

/-- All nodes, each after those it depends on. -/
structure Topological (g : Graph) (order : List String) : Prop where
  perm : order.Perm g.nodes
  before : ∀ {a b}, g.Edge a b → order.idxOf a < order.idxOf b

/-- A legal order of as many nodes as there are is topological. -/
theorem Legal.topological (hg : g.WellFormed) {order : List String} (h : g.Legal order)
    (hlength : g.nodes.length ≤ order.length) : g.Topological order := by
  have hperm := (List.subperm_of_subset h.nodup h.subset).perm_of_length_le hlength
  exact ⟨hperm, fun he => h.before he (hperm.mem_iff.mpr (hg.target_mem he))⟩

/-- A graph with a topological order has no cycle. -/
theorem Topological.acyclic {order : List String} (h : g.Topological order) : g.Acyclic := by
  intro a ha
  have hrises : ∀ {b}, TransGen g.Edge a b → order.idxOf a < order.idxOf b := by
    intro b hab
    induction hab with
    | single he => exact h.before he
    | tail _ he ih => exact ih.trans (h.before he)
  exact Nat.lt_irrefl _ (hrises ha)

/-- Each node of a topological order is ready after those before it. -/
theorem Topological.mem_ready (hg : g.WellFormed) {placed rest : List String} {b : String}
    (h : g.Topological (placed ++ b :: rest)) : b ∈ g.ready placed := by
  have hnew : b ∉ placed := by
    have hnodup := h.perm.nodup_iff.mpr hg.nodup
    rw [List.nodup_append] at hnodup
    exact fun hb => hnodup.2.2 b hb b List.mem_cons_self rfl
  refine Graph.mem_ready.mpr ⟨?_, hnew, fun a he => ?_⟩
  · exact h.perm.mem_iff.mp (List.mem_append_right _ List.mem_cons_self)
  · by_contra ha
    have hlt := h.before he
    rw [List.idxOf_append_of_notMem ha, List.idxOf_append_of_notMem hnew,
      List.idxOf_cons_self] at hlt
    omega

/-! ### Greedy orders -/

/-- `less` puts the members of a list in one order. -/
structure StrictTotalOn (less : String → String → Bool) (l : List String) : Prop where
  irrefl : ∀ a ∈ l, less a a = false
  trans : ∀ a ∈ l, ∀ b ∈ l, ∀ c ∈ l, less a b = true → less b c = true → less a c = true
  total : ∀ a ∈ l, ∀ b ∈ l, a ≠ b → less a b = true ∨ less b a = true

theorem StrictTotalOn.asymm {l : List String} (h : StrictTotalOn less l) {a b : String}
    (ha : a ∈ l) (hb : b ∈ l) (hab : less a b = true) : less b a = false := by
  refine Bool.eq_false_iff.mpr fun hba => ?_
  have haa := h.trans a ha b hb a ha hab hba
  exact absurd haa (by simp [h.irrefl a ha])

/-- The nodes stand in the order in which they were added. -/
theorem strictTotalOn_addedBefore (g : Graph) : StrictTotalOn g.addedBefore g.nodes := by
  refine ⟨fun a _ => ?_, fun a _ b _ c _ hab hbc => ?_, fun a ha b hb hne => ?_⟩
  · simp [addedBefore]
  · rw [addedBefore, decide_eq_true_eq] at hab hbc ⊢
    exact hab.trans hbc
  · rw [addedBefore, addedBefore, decide_eq_true_eq, decide_eq_true_eq]
    exact Nat.lt_or_gt_of_ne fun heq => hne ((List.idxOf_inj ha).mp heq)

/-- Each node is the least of those that were ready when it was placed. -/
def Greedy (g : Graph) (less : String → String → Bool) (order : List String) : Prop :=
  ∀ placed a rest, order = placed ++ a :: rest →
    a ∈ g.ready placed ∧ ∀ b ∈ g.ready placed, b ≠ a → less a b = true

theorem greedy_nil : g.Greedy less [] := by
  intro placed a rest h
  exact absurd h.symm (by simp)

/-- Placing the least ready node keeps the order greedy. -/
theorem Greedy.concat {placed : List String} (h : g.Greedy less placed) {a : String}
    (ha : a ∈ g.ready placed) (hleast : ∀ b ∈ g.ready placed, b ≠ a → less a b = true) :
    g.Greedy less (placed ++ [a]) := by
  intro before c rest heq
  rcases List.eq_nil_or_concat' rest with rfl | ⟨rest, z, rfl⟩
  · obtain ⟨rfl, hac⟩ := List.append_inj' heq rfl
    obtain rfl := List.singleton_inj.mp hac
    exact ⟨ha, hleast⟩
  · rw [← List.cons_append, ← List.append_assoc] at heq
    exact h before c rest (List.append_inj' heq rfl).1

/-- Two lists of the same length are equal, or differ at some place for the
first time. -/
theorem eq_or_exists_diverge {α : Type} {l m : List α} (h : l.length = m.length) :
    l = m ∨ ∃ p a s b t, l = p ++ a :: s ∧ m = p ++ b :: t ∧ a ≠ b := by
  induction l generalizing m with
  | nil => exact .inl (List.length_eq_zero_iff.mp h.symm).symm
  | cons a l ih =>
    cases m with
    | nil => exact absurd h (by simp)
    | cons b m =>
      by_cases hab : a = b
      · subst hab
        rcases ih (Nat.succ.inj h) with rfl | ⟨p, c, s, d, t, rfl, rfl, hne⟩
        · exact .inl rfl
        · exact .inr ⟨a :: p, c, s, d, t, rfl, rfl, hne⟩
      · exact .inr ⟨[], a, l, b, m, rfl, rfl, hab⟩

/-- **There is one greedy order of all nodes.** -/
theorem Greedy.eq (hless : StrictTotalOn less g.nodes) {l m : List String}
    (hl : g.Greedy less l) (hm : g.Greedy less m) (hlength : l.length = m.length) : l = m := by
  rcases eq_or_exists_diverge hlength with heq | ⟨p, a, s, b, t, rfl, rfl, hne⟩
  · exact heq
  -- Where they differ first, each would be less than the other.
  · obtain ⟨ha, haleast⟩ := hl p a s rfl
    obtain ⟨hb, hbleast⟩ := hm p b t rfl
    have hab := haleast b hb hne.symm
    have hba := hless.asymm (Graph.mem_ready.mp ha).1 (Graph.mem_ready.mp hb).1 hab
    rw [hbleast a ha hne] at hba
    cases hba

/-- **A greedy order is the first of all topological ones.** -/
theorem Greedy.eq_or_lex (hg : g.WellFormed) {order other : List String}
    (h : g.Greedy less order) (hperm : order.Perm g.nodes) (hother : g.Topological other) :
    other = order ∨ List.Lex (fun a b => less a b = true) order other := by
  rcases eq_or_exists_diverge (hother.perm.trans hperm.symm).length_eq with
    heq | ⟨p, b, t, a, s, rfl, rfl, hne⟩
  · exact .inl heq
  -- Where they differ first, the node of the other order was ready as well.
  · have hleast := (h p a s rfl).2 b (hother.mem_ready hg) hne
    have hlex : List.Lex (fun a b => less a b = true) (a :: s) (b :: t) := .rel hleast
    exact .inr (List.Lex.append_left _ hlex p)

end Graph

end SolidityCanvas
