/-
Sorting a graph.

While a graph is sorted, each node waits for as many dependencies as are not
placed, and the queue holds the nodes that are ready (`Sorting.Sound`).  This
does not depend on the order in which nodes and edges are gone through, nor on
`less`.  If `less` puts the nodes in one order, the queue gives out the least
of them, and what is placed is greedy (`Sorting.Ordered`).

* `sortAlong_eq_some`: the order that comes out is topological;
* `sortAlong_eq_none_iff`: none comes out exactly if some path leads back to
  where it started;
* `sortAlong_eq_sort?`: every walk leads to the same order;
* `sortsGreedily_ofSteps`: all of this, for every graph that rows of calls make.
-/
import SolidityCanvas.Proofs.Graph.Order
import SolidityCanvas.Proofs.Queue

open Relation

namespace SolidityCanvas

namespace Graph

variable {g : Graph} {w : g.Walk} {less : String → String → Bool}

/-- What is in one order can stand in a queue. -/
theorem StrictTotalOn.ranks {l : List String} (h : StrictTotalOn less l) :
    Queue.Ranks less {a | a ∈ l} := by
  refine ⟨fun ha hb hab => h.asymm ha hb hab, fun {a b c} ha hb hc hab hbc => ?_⟩
  refine Bool.eq_false_iff.mpr fun hac => ?_
  by_cases hne : b = c
  · rw [hne, hac] at hab
    cases hab
  · -- Then the third is less than the second, and so is the first.
    have hcb := (h.total b hb c hc hne).resolve_left (by simp [hbc])
    rw [h.trans a ha c hc b hb hac hcb] at hab
    cases hab

/-! ### Dependencies that are not placed -/

/-- The dependencies of a node that are not placed. -/
def missing (g : Graph) (placed : List String) (b : String) : List String :=
  (g.dependencies b).filter fun a => !placed.contains a

theorem mem_missing (hg : g.WellFormed) {placed : List String} {a b : String} :
    a ∈ g.missing placed b ↔ g.Edge a b ∧ a ∉ placed := by
  rw [missing, List.mem_filter, mem_dependencies hg]
  simp

/-- A node is ready if it is not placed and no dependency is missing. -/
theorem mem_ready_iff_missing (hg : g.WellFormed) {placed : List String} {b : String} :
    b ∈ g.ready placed ↔ b ∈ g.nodes ∧ b ∉ placed ∧ (g.missing placed b).length = 0 := by
  rw [mem_ready, List.length_eq_zero_iff, List.eq_nil_iff_forall_not_mem]
  refine and_congr_right fun _ => and_congr_right fun _ => forall_congr' fun a => ?_
  rw [mem_missing hg, not_and, not_not]

theorem missing_concat (g : Graph) (placed : List String) (a b : String) :
    g.missing (placed ++ [a]) b = (g.missing placed b).filter (· != a) := by
  rw [missing, missing, List.filter_filter]
  refine List.filter_congr fun x _ => ?_
  rw [Bool.eq_iff_iff]
  simp [and_comm]

/-- What depends on a node misses one dependency less once it is placed. -/
theorem length_missing_concat (hg : g.WellFormed) {placed : List String} {a b : String}
    (ha : a ∉ placed) : (g.missing placed b).length =
      (g.missing (placed ++ [a]) b).length + (if b ∈ g.dependents a then 1 else 0) := by
  have hnodup : (g.missing placed b).Nodup := (hg.nodup.filter _).filter _
  rw [missing_concat, ← hnodup.erase_eq_filter]
  split
  · rename_i hb
    have hmem := (mem_missing hg).mpr ⟨(mem_dependents hg).mp hb, ha⟩
    rw [List.length_erase_of_mem hmem, Nat.sub_add_cancel (List.length_pos_of_mem hmem)]
  · rename_i hb
    have hmem : a ∉ g.missing placed b :=
      fun hmem => hb ((mem_dependents hg).mpr ((mem_missing hg).mp hmem).1)
    rw [List.erase_of_not_mem hmem, Nat.add_zero]

/-- After a node is placed, those are ready that were before, and those that
missed nothing else. -/
theorem mem_ready_concat (hg : g.WellFormed) {placed : List String} (h : g.Legal placed)
    {a b : String} (ha : a ∈ g.ready placed) : b ∈ g.ready (placed ++ [a]) ↔
      (b ∈ g.ready placed ∧ b ≠ a) ∨
        (b ∈ g.dependents a ∧ (g.missing placed b).length = 1) := by
  have hnew := (mem_ready.mp ha).2.1
  have hcount := length_missing_concat (b := b) hg hnew
  rw [mem_ready_iff_missing hg, mem_ready_iff_missing hg, List.mem_append, List.mem_singleton,
    not_or]
  constructor
  · rintro ⟨hnode, ⟨hb, hne⟩, hnone⟩
    by_cases hdep : b ∈ g.dependents a
    · rw [hnone, if_pos hdep] at hcount
      exact .inr ⟨hdep, hcount⟩
    · rw [hnone, if_neg hdep] at hcount
      exact .inl ⟨⟨hnode, hb, hcount⟩, hne⟩
  · rintro (⟨⟨hnode, hb, hnone⟩, hne⟩ | ⟨hdep, hone⟩)
    · exact ⟨hnode, ⟨hb, hne⟩, by omega⟩
    · have he := (mem_dependents hg).mp hdep
      rw [hone, if_pos hdep] at hcount
      exact ⟨hg.target_mem he, ⟨fun hb => hnew (h.source_mem he hb), (hg.ne he).symm⟩, by omega⟩

namespace Sorting

variable {s s' : Sorting}

/-! ### Releasing nodes -/

theorem lookup_map_count (l : List (String × Int)) (f : String → Int → Int) (c : String) :
    (l.map fun p => (p.1, f p.1 p.2)).lookup c = (l.lookup c).map (f c) := by
  induction l with
  | nil => rfl
  | cons p l ih =>
    rw [List.map_cons, List.lookup_cons, List.lookup_cons, ih]
    cases h : c == p.1 with
    | false => rfl
    | true => rw [eq_of_beq h]; rfl

theorem release_placed (less : String → String → Bool) (s : Sorting) (b : String) :
    (s.release less b).placed = s.placed := by
  rw [release]
  split <;> rfl

theorem release_pending (less : String → String → Bool) (s : Sorting) (b : String) :
    (s.release less b).pending =
      s.pending.map fun p => (p.1, if p.1 == b then p.2 - 1 else p.2) := by
  rw [release]
  split <;> rfl

theorem lookup_release (less : String → String → Bool) (s : Sorting) (b c : String) :
    (s.release less b).pending.lookup c =
      (s.pending.lookup c).map fun n => if c == b then n - 1 else n := by
  rw [release_pending]
  exact lookup_map_count s.pending (fun a n => if a == b then n - 1 else n) c

/-- A node gets ready if it waits for one dependency. -/
theorem perm_release (less : String → String → Bool) (s : Sorting) (b : String) :
    (s.release less b).ready.toList.Perm
      (if s.pending.lookup b = some 1 then b :: s.ready.toList else s.ready.toList) := by
  have hwaits : ((s.release less b).pending.lookup b == some 0) = true ↔
      s.pending.lookup b = some 1 := by
    rw [lookup_release, beq_iff_eq, Option.map_eq_some_iff]
    simp only [beq_self_eq_true, if_true]
    constructor
    · rintro ⟨n, hn, h0⟩
      rw [hn, show n = 1 by omega]
    · exact fun h => ⟨1, h, rfl⟩
  rw [release_pending] at hwaits
  rw [release]
  by_cases h : s.pending.lookup b = some 1
  · rw [if_pos h, if_pos (hwaits.mpr h)]
    exact Queue.perm_push ..
  · rw [if_neg h, if_neg fun h0 => h (hwaits.mp h0)]

theorem foldl_release_placed (less : String → String → Bool) (l : List String) :
    ∀ s : Sorting, (l.foldl (release less) s).placed = s.placed := by
  induction l with
  | nil => exact fun _ => rfl
  | cons b l ih =>
    intro s
    rw [List.foldl_cons, ih, release_placed]

theorem foldl_release_keys (less : String → String → Bool) (l : List String) :
    ∀ s : Sorting, (l.foldl (release less) s).pending.map (·.1) = s.pending.map (·.1) := by
  induction l with
  | nil => exact fun _ => rfl
  | cons b l ih =>
    intro s
    rw [List.foldl_cons, ih, release_pending, List.map_map]
    rfl

theorem lookup_foldl_release (less : String → String → Bool) {l : List String} (hl : l.Nodup)
    (c : String) : ∀ s : Sorting, (l.foldl (release less) s).pending.lookup c =
      (s.pending.lookup c).map fun n => if c ∈ l then n - 1 else n := by
  induction l with
  | nil => simp
  | cons b l ih =>
    intro s
    obtain ⟨hb, hl⟩ := List.nodup_cons.mp hl
    rw [List.foldl_cons, ih hl, lookup_release, Option.map_map]
    congr 1
    funext n
    rw [Function.comp_apply]
    by_cases hcb : c = b
    · subst hcb
      simp [hb]
    · simp [hcb]

/-- The nodes that wait for one dependency get ready. -/
theorem perm_foldl_release (less : String → String → Bool) {l : List String} (hl : l.Nodup) :
    ∀ s : Sorting, (l.foldl (release less) s).ready.toList.Perm
      (l.filter (fun b => s.pending.lookup b = some 1) ++ s.ready.toList) := by
  induction l with
  | nil => exact fun _ => .refl _
  | cons b l ih =>
    intro s
    obtain ⟨hb, hl⟩ := List.nodup_cons.mp hl
    -- The others wait for as many as before.
    have hothers : l.filter (fun c => (s.release less b).pending.lookup c = some 1) =
        l.filter fun c => s.pending.lookup c = some 1 := by
      refine List.filter_congr fun c hc => ?_
      have hcb : (c == b) = false := beq_false_of_ne fun heq => hb (heq ▸ hc)
      rw [lookup_release]
      simp [hcb]
    refine (ih hl (s.release less b)).trans ?_
    rw [hothers]
    refine ((perm_release less s b).append_left _).trans ?_
    by_cases h : s.pending.lookup b = some 1
    · rw [if_pos h, List.filter_cons_of_pos (by simpa using h)]
      exact List.perm_middle
    · rw [if_neg h, List.filter_cons_of_neg (by simpa using h)]

/-! ### Counts and ready nodes -/

/-- What holds of a graph while it is sorted. -/
structure Sound (g : Graph) (s : Sorting) : Prop where
  legal : g.Legal s.placed
  keys : (s.pending.map (·.1)).Perm g.nodes
  counts : ∀ b ∈ g.nodes, s.pending.lookup b = some ((g.missing s.placed b).length : Int)
  ready : s.ready.toList.Perm (g.ready s.placed)

theorem missing_nil (g : Graph) (b : String) : g.missing [] b = g.dependencies b :=
  List.filter_eq_self.mpr fun _ _ => rfl

theorem sound_start (hg : g.WellFormed) (w : g.Walk) (less : String → String → Bool) :
    (start w less).Sound g := by
  refine ⟨legal_nil, ?_, fun b hb => ?_, ?_⟩
  · rw [start, List.map_map]
    exact (List.Perm.of_eq (List.map_id w.nodes)).trans w.nodes_perm
  · rw [start, List.lookup_graph _ (w.nodes_perm.mem_iff.mpr hb), missing_nil]
  · refine (Queue.perm_ofArray ..).trans ((w.nodes_perm.filter _).trans (.of_eq ?_))
    refine List.filter_congr fun b hb => ?_
    have hready : b ∈ g.ready [] ↔ _ := mem_ready_iff_missing hg
    rw [Graph.ready, List.mem_filter, missing_nil] at hready
    rw [Bool.eq_iff_iff, beq_iff_eq]
    exact ⟨fun h => (hready.mpr ⟨hb, List.not_mem_nil, h⟩).2,
      fun h => (hready.mp ⟨hb, h⟩).2.2⟩

theorem place?_eq_some (h : s.place? w less = some s') : ∃ a rest,
    s.ready.pop? less = some (a, rest) ∧
      s' = (w.dependents a).foldl (release less)
        { s with placed := s.placed ++ [a], ready := rest } := by
  obtain ⟨⟨a, rest⟩, hpop, hs'⟩ := Option.map_eq_some_iff.mp h
  exact ⟨a, rest, hpop, hs'.symm⟩

theorem place?_eq_none : s.place? w less = none ↔ s.ready.toList = [] := by
  rw [place?, Option.map_eq_none_iff, Queue.pop?_eq_none]

/-- **Placing a node keeps counts and ready nodes right.** -/
theorem Sound.place? (hg : g.WellFormed) (h : s.Sound g) (hp : s.place? w less = some s') :
    s'.Sound g ∧ ∃ a ∈ g.ready s.placed, s'.placed = s.placed ++ [a] := by
  obtain ⟨a, rest, hpop, rfl⟩ := place?_eq_some hp
  have hqueue := (Queue.perm_pop? hpop).symm.trans h.ready
  have ha : a ∈ g.ready s.placed := hqueue.mem_iff.mp List.mem_cons_self
  have hnew := (mem_ready.mp ha).2.1
  have hdependents : (w.dependents a).Nodup :=
    (w.dependents_perm a).nodup_iff.mpr (hg.nodup.filter _)
  have hmem : ∀ b, b ∈ w.dependents a ↔ b ∈ g.dependents a :=
    fun b => (w.dependents_perm a).mem_iff
  have hplaced := foldl_release_placed less (w.dependents a)
    { s with placed := s.placed ++ [a], ready := rest }
  refine ⟨⟨?_, ?_, fun b hb => ?_, ?_⟩, a, ha, hplaced⟩
  · rw [hplaced]
    exact h.legal.concat ha
  · rw [foldl_release_keys]
    exact h.keys
  -- Each node waits for what it misses.
  · have hcount := length_missing_concat (b := b) hg hnew
    rw [lookup_foldl_release less hdependents, h.counts b hb, Option.map_some, hplaced, hcount,
      Option.some_inj]
    simp only [hmem]
    split <;> omega
  -- The queue holds what was ready, and what missed nothing but this node.
  · rw [hplaced]
    refine (perm_foldl_release less hdependents _).trans ?_
    have hnodup : (a :: rest.toList).Nodup := hqueue.nodup_iff.mpr (nodup_ready hg _)
    have hrest : ∀ b, b ∈ rest.toList ↔ b ∈ g.ready s.placed ∧ b ≠ a := by
      intro b
      rw [← hqueue.mem_iff, List.mem_cons, or_and_right, and_not_self_iff, false_or]
      exact ⟨fun hb => ⟨hb, fun hba => (List.nodup_cons.mp hnodup).1 (hba ▸ hb)⟩, And.left⟩
    have hone : ∀ b ∈ g.dependents a,
        (s.pending.lookup b = some 1 ↔ (g.missing s.placed b).length = 1) := by
      intro b hb
      rw [h.counts b (hg.target_mem ((mem_dependents hg).mp hb)), Option.some_inj]
      omega
    refine (List.perm_ext_iff_of_nodup ?_ (nodup_ready hg _)).mpr fun b => ?_
    -- What depends on the node was not ready.
    · refine List.Nodup.append (hdependents.filter _) (List.nodup_cons.mp hnodup).2 ?_
      intro b hb hb'
      have hedge := (mem_dependents hg).mp ((hmem b).mp (List.mem_of_mem_filter hb))
      exact hnew ((mem_ready.mp ((hrest b).mp hb').1).2.2 a hedge)
    · rw [mem_ready_concat hg h.legal ha, List.mem_append, List.mem_filter, hmem, hrest,
        decide_eq_true_eq, or_comm]
      exact or_congr_right (and_congr_right fun hb => hone b hb)

/-- **A whole run keeps counts and ready nodes right.** -/
theorem Sound.run (hg : g.WellFormed) (steps : Nat) (h : s.Sound g) :
    (s.run w less steps).Sound g := by
  induction steps generalizing s with
  | zero => exact h
  | succ steps ih =>
    rw [Sorting.run]
    split
    · exact h
    · rename_i hp
      exact ih (h.place? hg hp).1

/-- Nothing is ready any more after as many steps as nodes were not placed. -/
theorem ready_run (hg : g.WellFormed) (w : g.Walk) (less : String → String → Bool) (steps : Nat)
    (h : s.Sound g) (hsteps : g.nodes.length ≤ steps + s.placed.length) :
    (s.run w less steps).ready.toList = [] := by
  induction steps generalizing s with
  | zero =>
    -- Everything is placed.
    rw [Sorting.run, List.eq_nil_iff_forall_not_mem]
    intro b hb
    obtain ⟨hnode, hnew, -⟩ := mem_ready.mp (h.ready.mem_iff.mp hb)
    have htop := h.legal.topological hg (by omega)
    exact hnew (htop.perm.mem_iff.mpr hnode)
  | succ steps ih =>
    rw [Sorting.run]
    split
    · rename_i hnone
      exact place?_eq_none.mp hnone
    · rename_i hp
      obtain ⟨hnext, a, -, hplaced⟩ := h.place? hg hp
      refine ih hnext ?_
      rw [hplaced, List.length_append, List.length_singleton]
      omega

/-! ### The least ready node -/

/-- Nodes are placed greedily, and the queue is in order. -/
structure Ordered (g : Graph) (less : String → String → Bool) (s : Sorting) : Prop where
  greedy : g.Greedy less s.placed
  queue : s.ready.IsOrdered less

theorem isOrdered_foldl_release (hless : Queue.Ranks less {a | a ∈ g.nodes}) {l : List String}
    (hl : l ⊆ g.nodes) : ∀ {s : Sorting}, s.ready.toList ⊆ g.nodes → s.ready.IsOrdered less →
      (l.foldl (release less) s).ready.IsOrdered less := by
  induction l with
  | nil => exact fun _ h => h
  | cons b l ih =>
    intro s hs h
    obtain ⟨hb, hl⟩ := List.cons_subset.mp hl
    rw [List.foldl_cons]
    refine ih hl (fun c hc => ?_) ?_
    · have hmem := (perm_release less s b).mem_iff.mp hc
      split at hmem
      · exact List.cons_subset.mpr ⟨hb, hs⟩ hmem
      · exact hs hmem
    · rw [release]
      split
      · exact h.push hless hs hb
      · exact h

theorem ordered_start (hless : StrictTotalOn less g.nodes) (w : g.Walk) :
    (start w less).Ordered g less := by
  refine ⟨greedy_nil, Queue.isOrdered_ofArray hless.ranks fun a ha => ?_⟩
  exact w.nodes_perm.mem_iff.mp (List.mem_of_mem_filter (List.mem_toArray.mp ha))

/-- **The least ready node is placed.** -/
theorem Ordered.place? (hg : g.WellFormed) (hless : StrictTotalOn less g.nodes)
    (hs : s.Sound g) (h : s.Ordered g less) (hp : s.place? w less = some s') :
    s'.Ordered g less := by
  obtain ⟨a, rest, hpop, rfl⟩ := place?_eq_some hp
  have hperm := Queue.perm_pop? hpop
  have hnodes : s.ready.toList ⊆ g.nodes := fun b hb => (mem_ready.mp (hs.ready.mem_iff.mp hb)).1
  have ha : a ∈ s.ready.toList := hperm.mem_iff.mpr List.mem_cons_self
  obtain ⟨hleast, hrest⟩ := h.queue.pop? hless.ranks hnodes hpop
  constructor
  · rw [foldl_release_placed]
    refine h.greedy.concat (hs.ready.mem_iff.mp ha) fun b hb hne => ?_
    have hb := hs.ready.mem_iff.mpr hb
    have hba := hleast b hb
    exact (hless.total a (hnodes ha) b (hnodes hb) hne.symm).resolve_right (by simp [hba])
  · refine isOrdered_foldl_release hless.ranks (fun b hb => ?_) (fun b hb => ?_) hrest
    · exact hg.target_mem ((mem_dependents hg).mp ((w.dependents_perm a).mem_iff.mp hb))
    · exact hnodes (hperm.mem_iff.mpr (List.mem_cons_of_mem _ hb))

theorem Ordered.run (hg : g.WellFormed) (hless : StrictTotalOn less g.nodes) (steps : Nat)
    (hs : s.Sound g) (h : s.Ordered g less) : (s.run w less steps).Ordered g less := by
  induction steps generalizing s with
  | zero => exact h
  | succ steps ih =>
    rw [Sorting.run]
    split
    · exact h
    · rename_i hp
      exact ih (hs.place? hg hp).1 (h.place? hg hless hs hp)

end Sorting

/-! ### The order of a graph -/

/-- What comes out is what was placed in the end. -/
theorem sortAlong_eq (hg : g.WellFormed) (w : g.Walk) (less : String → String → Bool) :
    ∃ s : Sorting, s.Sound g ∧ s.ready.toList = [] ∧
      (StrictTotalOn less g.nodes → s.Ordered g less) ∧
      g.sortAlong w less = if s.placed.length = g.nodes.length then some s.placed else none := by
  have hstart := Sorting.sound_start hg w less
  have hs : ((Sorting.start w less).run w less g.nodes.length).Sound g := hstart.run hg _
  have hready := Sorting.ready_run hg w less g.nodes.length hstart (Nat.le_add_right _ _)
  refine ⟨_, hs, hready, fun hless => ?_, ?_⟩
  · exact (Sorting.ordered_start hless w).run hg hless _ hstart
  · have hlength := hs.keys.length_eq
    rw [List.length_map] at hlength
    rw [sortAlong, hlength]
    simp only [beq_iff_eq]

/-- **An order that comes out is topological.** -/
theorem sortAlong_eq_some (hg : g.WellFormed) {order : List String}
    (h : g.sortAlong w less = some order) : g.Topological order := by
  obtain ⟨s, hs, -, -, heq⟩ := sortAlong_eq hg w less
  rw [heq] at h
  split at h
  · rename_i hlength
    obtain rfl := Option.some.inj h
    exact hs.legal.topological hg hlength.ge
  · cases h

/-- **An order that comes out is greedy.** -/
theorem greedy_of_sortAlong (hg : g.WellFormed) (hless : StrictTotalOn less g.nodes)
    {order : List String} (h : g.sortAlong w less = some order) : g.Greedy less order := by
  obtain ⟨s, -, -, hordered, heq⟩ := sortAlong_eq hg w less
  rw [heq] at h
  split at h
  · obtain rfl := Option.some.inj h
    exact (hordered hless).greedy
  · cases h

/-- **Nothing comes out exactly if there is a cycle.** -/
theorem sortAlong_eq_none_iff (hg : g.WellFormed) :
    g.sortAlong w less = none ↔ ∃ a, TransGen g.Edge a a := by
  constructor
  · intro hnone
    obtain ⟨s, hs, hready, -, heq⟩ := sortAlong_eq hg w less
    rw [heq, ite_eq_right_iff] at hnone
    by_contra hacyclic
    -- A node is missing, and then one is ready.
    have hmissing : ∃ b ∈ g.nodes, b ∉ s.placed := by
      by_contra hall
      push Not at hall
      have hle := (List.subperm_of_subset hg.nodup hall).length_le
      have hge := (List.subperm_of_subset hs.legal.nodup hs.legal.subset).length_le
      exact absurd (hnone (by omega)) (by simp)
    obtain ⟨b, hb, hmissing⟩ := hmissing
    obtain ⟨a, ha⟩ := exists_mem_ready hg (not_exists.mp hacyclic) hb hmissing
    have hmem := hs.ready.mem_iff.mpr ha
    rw [hready] at hmem
    exact absurd hmem List.not_mem_nil
  · rintro ⟨a, ha⟩
    refine Option.eq_none_iff_forall_not_mem.mpr fun order horder => ?_
    exact (sortAlong_eq_some hg horder).acyclic a ha

/-- **Every walk leads to the same order.** -/
theorem sortAlong_eq_sort? (hg : g.WellFormed) (hless : StrictTotalOn less g.nodes) (w : g.Walk) :
    g.sortAlong w less = g.sort? less := by
  rw [sort?]
  cases h : g.sortAlong w less with
  | none => rw [(sortAlong_eq_none_iff hg).mpr ((sortAlong_eq_none_iff hg).mp h)]
  | some order =>
    cases h' : g.sortAlong (.inOrder g) less with
    | none =>
      rw [(sortAlong_eq_none_iff hg).mpr ((sortAlong_eq_none_iff hg).mp h')] at h
      cases h
    | some order' =>
      have hlength := (sortAlong_eq_some hg h).perm.trans (sortAlong_eq_some hg h').perm.symm
      rw [(greedy_of_sortAlong hg hless h).eq hless (greedy_of_sortAlong hg hless h')
        hlength.length_eq]

theorem sort?_perm (hg : g.WellFormed) {order : List String} (h : g.sort? less = some order) :
    order.Perm g.nodes :=
  (sortAlong_eq_some hg h).perm

theorem idxOf_lt_of_edge (hg : g.WellFormed) {order : List String}
    (h : g.sort? less = some order) {a b : String} (he : g.Edge a b) :
    order.idxOf a < order.idxOf b :=
  (sortAlong_eq_some hg h).before he

/-- **A graph without cycles can be sorted.** -/
theorem exists_sort? (hg : g.WellFormed) (hacyclic : g.Acyclic) (less : String → String → Bool) :
    ∃ order, g.sort? less = some order := by
  refine Option.ne_none_iff_exists'.mp fun hnone => ?_
  obtain ⟨a, ha⟩ := (sortAlong_eq_none_iff hg).mp hnone
  exact hacyclic a ha

/-- The order of a graph is the first of its topological orders by `less`, and
it is there if the graph has no cycle, however the graph is gone through. -/
structure SortsGreedily (g : Graph) (less : String → String → Bool) : Prop where
  none_iff : g.sort? less = none ↔ ∃ a, TransGen g.Edge a a
  topological : ∀ order, g.sort? less = some order → g.Topological order
  greedy : ∀ order, g.sort? less = some order → g.Greedy less order
  first : ∀ order, g.sort? less = some order → ∀ other, g.Topological other →
    other = order ∨ List.Lex (fun a b => less a b = true) order other
  walk : ∀ w : g.Walk, g.sortAlong w less = g.sort? less

/-- **Graphs are sorted greedily**, whatever calls make them. The order in
which nodes were added is one that can decide. -/
theorem sortsGreedily_ofSteps (steps : List Step) :
    StrictTotalOn (ofSteps steps).addedBefore (ofSteps steps).nodes ∧
      ∀ less, StrictTotalOn less (ofSteps steps).nodes → SortsGreedily (ofSteps steps) less := by
  have hg := wellFormed_ofSteps steps
  refine ⟨strictTotalOn_addedBefore _, fun less hless => ⟨?_, ?_, ?_, ?_, ?_⟩⟩
  · exact sortAlong_eq_none_iff hg
  · exact fun order h => sortAlong_eq_some hg h
  · exact fun order h => greedy_of_sortAlong hg hless h
  · intro order h other hother
    exact (greedy_of_sortAlong hg hless h).eq_or_lex hg (sort?_perm hg h) hother
  · exact sortAlong_eq_sort? hg hless

/-- Names of different lengths, the longest first. -/
theorem sortsGreedily_longestFirst :
    StrictTotalOn (fun a b => b.length < a.length)
        (ofSteps [.node "a", .node "bb", .node "ccc", .edge "a" "ccc", .edge "ccc" "ccc"]).nodes ∧
      SortsGreedily
        (ofSteps [.node "a", .node "bb", .node "ccc", .edge "a" "ccc", .edge "ccc" "ccc"])
        (fun a b => b.length < a.length) := by
  have hless : StrictTotalOn (fun a b => b.length < a.length)
      (ofSteps [.node "a", .node "bb", .node "ccc", .edge "a" "ccc", .edge "ccc" "ccc"]).nodes :=
    ⟨by decide, by decide, by decide⟩
  exact ⟨hless, (sortsGreedily_ofSteps _).2 _ hless⟩

example : (ofSteps [.node "a", .node "bb", .node "ccc", .edge "a" "ccc"]).sort?
    (fun a b => b.length < a.length) = some ["bb", "a", "ccc"] := by
  decide

end Graph

end SolidityCanvas
