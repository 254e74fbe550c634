/-
Cycles of a graph.

`Graph.components` looks for nodes that reach each other.  The search grows a
set by its frontier, one edge at a time, and is complete because every round
but the last adds a node.  What is told of the components does not depend on
how they were found:

* `mem_reachable`: what the search finds from a node is what paths of edges
  lead to;
* `isPartition_components`: the components are the classes of nodes that lead
  to each other;
* `IsPartition.cyclesAmong_eq`: the same cycles are told of the classes in
  whatever order, `ListsCycles` says which;
* `cycles_eq_nil_iff`: there are none exactly when no path leads back to where
  it started.

All of them are about well-formed graphs, which are those that `addNode` and
`addEdge` make (`Proofs/Graph/Basic`).
-/
import Mathlib.Data.List.Perm.Subperm
import Mathlib.Data.List.Sort
import Mathlib.Logic.Relation
import SolidityCanvas.Proofs.Graph.Basic

namespace SolidityCanvas

namespace Graph

open Relation

variable {g : Graph}

/-! ### The search -/

theorem nodup_eraseDups {α : Type} [BEq α] [LawfulBEq α] (l : List α) : l.eraseDups.Nodup := by
  cases l with
  | nil => simp
  | cons a rest =>
    rw [List.eraseDups_cons, List.nodup_cons, List.mem_eraseDups]
    exact ⟨by simp, nodup_eraseDups _⟩
  termination_by l.length
  decreasing_by exact Nat.lt_succ_of_le (List.length_filter_le _ _)

theorem mem_frontier {seen newest : List String} {b : String} :
    b ∈ g.frontier seen newest ↔ (∃ a ∈ newest, g.Edge a b) ∧ b ∉ seen := by
  rw [frontier, List.mem_eraseDups, List.mem_filter, List.mem_map]
  constructor
  · rintro ⟨⟨⟨a, b'⟩, he, rfl⟩, hb⟩
    rw [List.mem_filter] at he
    exact ⟨⟨a, by simpa using he.2, he.1⟩, by simpa using hb⟩
  · rintro ⟨⟨a, ha, he⟩, hb⟩
    refine ⟨⟨(a, b), ?_, rfl⟩, by simpa using hb⟩
    rw [List.mem_filter]
    exact ⟨he, by simpa using ha⟩

theorem mem_reachFrom_of_mem_seen {x : String} : ∀ (steps : Nat) {seen newest : List String},
    x ∈ seen → x ∈ g.reachFrom steps seen newest := by
  intro steps
  induction steps with
  | zero => exact fun h => h
  | succ steps ih =>
    intro seen newest hx
    rw [reachFrom]
    split
    · exact hx
    · exact ih (List.mem_append_left _ hx)

/-- Whatever the search finds is reached from where it started. -/
theorem exists_reflTransGen_of_mem_reachFrom {y : String} :
    ∀ (steps : Nat) {seen newest : List String}, newest ⊆ seen →
      y ∈ g.reachFrom steps seen newest → ∃ x ∈ seen, ReflTransGen g.Edge x y := by
  intro steps
  induction steps with
  | zero => exact fun _ hy => ⟨y, hy, .refl⟩
  | succ steps ih =>
    intro seen newest hsub hy
    rw [reachFrom] at hy
    split at hy
    · exact ⟨y, hy, .refl⟩
    · obtain ⟨x, hx, hxy⟩ := ih (List.subset_append_right _ _) hy
      rcases List.mem_append.mp hx with hx | hx
      · exact ⟨x, hx, hxy⟩
      · obtain ⟨⟨a, ha, he⟩, _⟩ := mem_frontier.mp hx
        exact ⟨a, hsub ha, hxy.head he⟩

/-- The search ends with a set that no edge leaves.  The invariant says that
only the newest members may still have edges out of it; `steps` rounds are
enough because each adds a node. -/
theorem edge_closed_reachFrom (hg : g.WellFormed) : ∀ (steps : Nat) {seen newest : List String},
    newest ⊆ seen → seen ⊆ g.nodes → seen.Nodup → g.nodes.length ≤ steps + seen.length →
    (∀ x ∈ seen, x ∉ newest → ∀ y, g.Edge x y → y ∈ seen) →
    ∀ x ∈ g.reachFrom steps seen newest, ∀ y, g.Edge x y → y ∈ g.reachFrom steps seen newest := by
  intro steps
  induction steps with
  | zero =>
    intro seen newest _ hnodes hnd hlen _ x _ y he
    -- As many different nodes as there are: nothing is left to find.
    have hperm : seen.Perm g.nodes :=
      (List.subperm_of_subset hnd hnodes).perm_of_length_le (by omega)
    exact hperm.mem_iff.mpr (hg.target_mem he)
  | succ steps ih =>
    intro seen newest hsub hnodes hnd hlen hinv
    rw [reachFrom]
    split
    -- The frontier is empty, so that not even the newest members have edges out.
    · rename_i hnil
      intro x hx y he
      by_contra hy
      by_cases hxn : x ∈ newest
      · have : y ∈ g.frontier seen newest := mem_frontier.mpr ⟨⟨x, hxn, he⟩, hy⟩
        rw [hnil] at this
        exact absurd this List.not_mem_nil
      · exact hy (hinv x hx hxn y he)
    -- Each round adds a node, which makes up for the step it takes.
    · rename_i hne
      have hpos : 0 < (g.frontier seen newest).length :=
        List.length_pos_iff.mpr fun h => hne h
      refine ih (List.subset_append_right _ _) ?_ ?_ ?_ ?_
      · intro x hx
        rcases List.mem_append.mp hx with hx | hx
        · exact hnodes hx
        · obtain ⟨⟨a, _, he⟩, _⟩ := mem_frontier.mp hx
          exact hg.target_mem he
      · rw [List.nodup_append]
        refine ⟨hnd, nodup_eraseDups _, fun a ha b hb hab => ?_⟩
        exact (mem_frontier.mp hb).2 (hab ▸ ha)
      · rw [List.length_append]
        omega
      -- What was newest has its targets in the frontier now.
      · intro x hx hxn y he
        have hxs : x ∈ seen := (List.mem_append.mp hx).resolve_right hxn
        by_cases hy : y ∈ seen
        · exact List.mem_append_left _ hy
        · by_cases hxo : x ∈ newest
          · exact List.mem_append_right _ (mem_frontier.mpr ⟨⟨x, hxo, he⟩, hy⟩)
          · exact absurd (hinv x hxs hxo y he) hy

/-- **The search is exact**: from a node it finds what paths of edges lead
to. -/
theorem mem_reachable (hg : g.WellFormed) {a b : String} (ha : a ∈ g.nodes) :
    b ∈ g.reachable a ↔ ReflTransGen g.Edge a b := by
  constructor
  · intro hb
    obtain ⟨x, hx, hxb⟩ := exists_reflTransGen_of_mem_reachFrom _ (List.Subset.refl _) hb
    rwa [List.mem_singleton.mp hx] at hxb
  · intro hab
    have hclosed : ∀ x ∈ g.reachable a, ∀ y, g.Edge x y → y ∈ g.reachable a := by
      refine edge_closed_reachFrom hg g.nodes.length (List.Subset.refl _) ?_
        (List.nodup_singleton a) ?_ (fun x hx hxn => absurd hx hxn)
      · simpa using ha
      · simp
    induction hab with
    | refl => exact mem_reachFrom_of_mem_seen _ (List.mem_singleton_self a)
    | tail _ he ih => exact hclosed _ ih _ he

/-! ### Components -/

theorem reflTransGen_mem (hg : g.WellFormed) {a b : String} (ha : a ∈ g.nodes)
    (hab : ReflTransGen g.Edge a b) : b ∈ g.nodes := by
  induction hab with
  | refl => exact ha
  | tail _ he _ => exact hg.target_mem he

/-- A component in the table of what each node reaches. -/
theorem componentIn_reachTable (a : String) (reached : List String) :
    componentIn g.reachTable a reached =
      g.nodes.filter fun b => reached.contains b && (g.reachable b).contains a := by
  rw [componentIn, reachTable, List.filter_map, List.map_map]
  exact List.map_id'' (fun _ => rfl) _

theorem mem_component (hg : g.WellFormed) {a b : String} (ha : a ∈ g.nodes) :
    b ∈ g.component a ↔ ReflTransGen g.Edge a b ∧ ReflTransGen g.Edge b a := by
  rw [component, componentIn_reachTable, List.mem_filter, Bool.and_eq_true, List.contains_iff_mem,
    List.contains_iff_mem, mem_reachable hg ha]
  constructor
  · rintro ⟨hb, hab, hba⟩
    exact ⟨hab, (mem_reachable hg hb).mp hba⟩
  · rintro ⟨hab, hba⟩
    have hb := reflTransGen_mem hg ha hab
    exact ⟨hb, hab, (mem_reachable hg hb).mpr hba⟩

theorem component_nodup (hg : g.WellFormed) (a : String) : (g.component a).Nodup := by
  rw [component, componentIn_reachTable]
  exact hg.nodup.filter _

/-- The members of a component have it in common. -/
theorem component_eq_of_mem (hg : g.WellFormed) {a b : String} (ha : a ∈ g.nodes)
    (hb : b ∈ g.component a) : g.component b = g.component a := by
  obtain ⟨hab, hba⟩ := (mem_component hg ha).mp hb
  have hbn := reflTransGen_mem hg ha hab
  rw [component, component, componentIn_reachTable, componentIn_reachTable]
  refine List.filter_congr fun x hx => ?_
  rw [Bool.eq_iff_iff, Bool.and_eq_true, Bool.and_eq_true, List.contains_iff_mem,
    List.contains_iff_mem, List.contains_iff_mem, List.contains_iff_mem, mem_reachable hg ha,
    mem_reachable hg hbn, mem_reachable hg hx, mem_reachable hg hx]
  exact ⟨fun h => ⟨hab.trans h.1, h.2.trans hba⟩, fun h => ⟨hba.trans h.1, h.2.trans hab⟩⟩

theorem mem_components {members : List String} :
    members ∈ g.components ↔
      ∃ a ∈ g.nodes, g.component a = members ∧ members.head? = some a := by
  rw [components, reachTable, List.filterMap_map, List.mem_filterMap]
  constructor
  · rintro ⟨a, ha, h⟩
    rw [Function.comp_apply, Option.ite_none_right_eq_some, Option.some_inj, beq_iff_eq] at h
    exact ⟨a, ha, h.2, h.2 ▸ h.1⟩
  · rintro ⟨a, ha, rfl, hhead⟩
    exact ⟨a, ha, if_pos (beq_iff_eq.mpr hhead)⟩

/-! ### Classes -/

/-- Each leads to the other. -/
def Mutual (edge : String → String → Prop) (a b : String) : Prop :=
  ReflTransGen edge a b ∧ ReflTransGen edge b a

namespace Mutual

variable {edge : String → String → Prop} {a b c : String}

theorem refl (a : String) : Mutual edge a a := ⟨.refl, .refl⟩

theorem symm (h : Mutual edge a b) : Mutual edge b a := ⟨h.2, h.1⟩

theorem trans (h : Mutual edge a b) (h' : Mutual edge b c) : Mutual edge a c :=
  ⟨h.1.trans h'.1, h'.2.trans h.2⟩

/-- Two that lead to each other are on a cycle. -/
theorem transGen_self (h : Mutual edge a b) (hne : a ≠ b) : TransGen edge a a := by
  obtain ⟨c, hac, hcb⟩ := (ReflTransGen.cases_head h.1).resolve_left hne
  exact TransGen.head' hac (hcb.trans h.2)

end Mutual

/-- The parts are the classes of nodes that lead to each other. -/
structure IsPartition (g : Graph) (parts : List (List String)) : Prop where
  nodup : ∀ part ∈ parts, part.Nodup
  mem_nodes : ∀ a, (∃ part ∈ parts, a ∈ part) ↔ a ∈ g.nodes
  mem_iff : ∀ part ∈ parts, ∀ a ∈ part, ∀ b, b ∈ part ↔ Mutual g.Edge a b
  disjoint : parts.Pairwise List.Disjoint

/-- **The search finds the classes.** -/
theorem isPartition_components (hg : g.WellFormed) : g.IsPartition g.components := by
  refine ⟨fun part hpart => ?_, fun a => ⟨?_, fun ha => ?_⟩, fun part hpart a ha b => ?_, ?_⟩
  · obtain ⟨a, -, rfl, -⟩ := mem_components.mp hpart
    exact component_nodup hg a
  · rintro ⟨part, hpart, hmem⟩
    obtain ⟨b, hb, rfl, -⟩ := mem_components.mp hpart
    exact reflTransGen_mem hg hb ((mem_component hg hb).mp hmem).1
  · have hself : a ∈ g.component a := (mem_component hg ha).mpr (Mutual.refl a)
    obtain ⟨first, rest, hcomp⟩ := List.exists_cons_of_ne_nil (List.ne_nil_of_mem hself)
    have hfirst : first ∈ g.component a := hcomp ▸ List.mem_cons_self
    have hsame := component_eq_of_mem hg ha hfirst
    have hnode := reflTransGen_mem hg ha ((mem_component hg ha).mp hfirst).1
    exact ⟨_, mem_components.mpr ⟨first, hnode, hsame, by rw [hcomp]; rfl⟩, hself⟩
  · obtain ⟨c, hc, rfl, -⟩ := mem_components.mp hpart
    have hca : Mutual g.Edge c a := (mem_component hg hc).mp ha
    exact (mem_component hg hc).trans ⟨hca.symm.trans, hca.trans⟩
  · rw [components, reachTable, List.filterMap_map]
    refine List.pairwise_filterMap.mpr (hg.nodup.imp_of_mem fun {a b} ha hb hne => ?_)
    intro p hp q hq
    rw [Function.comp_apply, Option.ite_none_right_eq_some, Option.some_inj, beq_iff_eq] at hp hq
    obtain ⟨hheada, rfl⟩ := hp
    obtain ⟨hheadb, rfl⟩ := hq
    -- A common member would make them one component, which has one head.
    intro x hxa hxb
    have hsame := (component_eq_of_mem hg ha hxa).symm.trans (component_eq_of_mem hg hb hxb)
    exact hne (Option.some.inj (hheada.symm.trans ((congrArg List.head? hsame).trans hheadb)))

/-! ### Lists in the order of keys -/

theorem sortBy_eq_insertionSort {α : Type} (key : α → Nat) (l : List α) :
    sortBy key l = l.insertionSort fun a b => key a ≤ key b := by
  have hinsert : ∀ (a : α) (m : List α),
      insertBy key a m = m.orderedInsert (fun a b => key a ≤ key b) a := by
    intro a m
    induction m with
    | nil => rfl
    | cons b m ih => rw [insertBy, List.orderedInsert_cons, ih]
  induction l with
  | nil => rfl
  | cons a l ih => rw [List.insertionSort_cons, ← ih, ← hinsert]; rfl

theorem perm_sortBy {α : Type} (key : α → Nat) (l : List α) : (sortBy key l).Perm l := by
  rw [sortBy_eq_insertionSort]
  exact List.perm_insertionSort _ l

theorem pairwise_sortBy {α : Type} (key : α → Nat) (l : List α) :
    (sortBy key l).Pairwise fun a b => key a ≤ key b := by
  have : Std.Total fun a b : α => key a ≤ key b := ⟨fun a b => Nat.le_total _ _⟩
  have : IsTrans α fun a b => key a ≤ key b := ⟨fun _ _ _ => Nat.le_trans⟩
  rw [sortBy_eq_insertionSort]
  exact List.pairwise_insertionSort _ l

/-- Different keys are in strict order. -/
theorem pairwise_sortBy_lt {α : Type} {key : α → Nat} {l : List α}
    (h : l.Pairwise fun a b => key a ≠ key b) : (sortBy key l).Pairwise fun a b => key a < key b := by
  have hne := ((perm_sortBy key l).pairwise_iff Ne.symm).mpr h
  exact (pairwise_sortBy key l).imp₂ (fun _ _ => Nat.lt_of_le_of_ne) hne

theorem nodup_of_pairwise_lt {α : Type} {key : α → Nat} {l : List α}
    (h : l.Pairwise fun a b => key a < key b) : l.Nodup := by
  refine h.imp fun {a b} hlt heq => ?_
  rw [heq] at hlt
  exact Nat.lt_irrefl _ hlt

/-- There is one list of given members in strict order. -/
theorem eq_of_pairwise_lt {α : Type} {key : α → Nat} {l m : List α}
    (hl : l.Pairwise fun a b => key a < key b) (hm : m.Pairwise fun a b => key a < key b)
    (h : ∀ a, a ∈ l ↔ a ∈ m) : l = m := by
  have hperm := (List.perm_ext_iff_of_nodup (nodup_of_pairwise_lt hl)
    (nodup_of_pairwise_lt hm)).mpr h
  exact hperm.eq_of_pairwise (fun _ _ _ _ hab hba => absurd hab (Nat.lt_asymm hba)) hl hm

/-- A list of two or more different members has another one. -/
theorem exists_mem_ne {α : Type} {l : List α} (hnodup : l.Nodup) (hlength : 2 ≤ l.length) (a : α) :
    ∃ b ∈ l, a ≠ b := by
  have hne : l ≠ [a] := by
    rintro rfl
    exact absurd hlength (by simp)
  rcases (hnodup.ne_singleton_iff a).mp hne with rfl | ⟨b, hb, hba⟩
  · exact absurd hlength (by simp)
  · exact ⟨b, hb, hba.symm⟩

/-! ### Cycles -/

/-- The classes of two or more members that lead to each other. The members of
each are listed by rank, and the classes by the rank of their first members. -/
structure ListsCycles (edge : String → String → Prop) (rank : String → Nat)
    (classes : List (List String)) : Prop where
  mem_iff : ∀ members, members ∈ classes ↔ 2 ≤ members.length ∧
    members.Pairwise (fun a b => rank a < rank b) ∧ ∃ a, ∀ b, b ∈ members ↔ Mutual edge a b
  disjoint : classes.Pairwise List.Disjoint
  ordered : classes.Pairwise fun c d => rank (c.headD "") < rank (d.headD "")

/-- The members of a class of two or more are on a cycle. -/
theorem transGen_self_of_class {edge : String → String → Prop} {members : List String} {b : String}
    (hnodup : members.Nodup) (hlength : 2 ≤ members.length)
    (hclass : ∃ a, ∀ b, b ∈ members ↔ Mutual edge a b) (hb : b ∈ members) : TransGen edge b b := by
  obtain ⟨a, ha⟩ := hclass
  obtain ⟨c, hc, hne⟩ := exists_mem_ne hnodup hlength b
  exact (((ha b).mp hb).symm.trans ((ha c).mp hc)).transGen_self hne

namespace ListsCycles

variable {edge : String → String → Prop} {rank : String → Nat} {classes : List (List String)}

/-- **There is one list of the cycles.** -/
theorem eq (h : ListsCycles edge rank classes) {classes' : List (List String)}
    (h' : ListsCycles edge rank classes') : classes = classes' :=
  eq_of_pairwise_lt h.ordered h'.ordered fun members =>
    (h.mem_iff members).trans (h'.mem_iff members).symm

/-- **Each member is on a cycle.** -/
theorem transGen_self (h : ListsCycles edge rank classes) {members : List String}
    (hm : members ∈ classes) {a : String} (ha : a ∈ members) : TransGen edge a a := by
  obtain ⟨hlength, hrank, hclass⟩ := (h.mem_iff members).mp hm
  exact transGen_self_of_class (nodup_of_pairwise_lt hrank) hlength hclass ha

theorem headD_mem (h : ListsCycles edge rank classes) {members : List String}
    (hm : members ∈ classes) : members.headD "" ∈ members := by
  obtain ⟨hlength, -, -⟩ := (h.mem_iff members).mp hm
  cases members with
  | nil => exact absurd hlength (by simp)
  | cons a rest => exact List.mem_cons_self

/-- Ranks count only as far as they tell apart what is on cycles. -/
theorem congr_rank (h : ListsCycles edge rank classes) {rank' : String → Nat}
    (hrank : ∀ a b, TransGen edge a a → TransGen edge b b → (rank a < rank b ↔ rank' a < rank' b)) :
    ListsCycles edge rank' classes := by
  refine ⟨fun members => (h.mem_iff members).trans ?_, h.disjoint, ?_⟩
  · refine and_congr_right fun hlength => and_congr_left fun hclass => ?_
    have hself : members.Nodup → ∀ a ∈ members, TransGen edge a a :=
      fun hnodup a ha => transGen_self_of_class hnodup hlength hclass ha
    constructor
    · intro hpair
      have hself := hself (nodup_of_pairwise_lt hpair)
      exact hpair.imp_of_mem fun {a b} ha hb => (hrank a b (hself a ha) (hself b hb)).mp
    · intro hpair
      have hself := hself (nodup_of_pairwise_lt hpair)
      exact hpair.imp_of_mem fun {a b} ha hb => (hrank a b (hself a ha) (hself b hb)).mpr
  · refine h.ordered.imp_of_mem fun {c d} hc hd => ?_
    exact (hrank _ _ (h.transGen_self hc (h.headD_mem hc)) (h.transGen_self hd (h.headD_mem hd))).mp

end ListsCycles

theorem mem_cyclesAmong {parts : List (List String)} {members : List String} :
    members ∈ g.cyclesAmong parts ↔
      ∃ part ∈ parts, 2 ≤ part.length ∧ sortBy g.place part = members := by
  rw [cyclesAmong, (perm_sortBy _ _).mem_iff, List.mem_map]
  simp only [List.mem_filter, decide_eq_true_eq, and_assoc]

/-- Nodes at one place are one node. -/
theorem place_ne {a b : String} (ha : a ∈ g.nodes) (hne : a ≠ b) : g.place a ≠ g.place b :=
  fun heq => hne ((List.idxOf_inj ha).mp heq)

/-- **What is told of a partition are the cycles**, whatever search has found
it. -/
theorem IsPartition.listsCycles (hg : g.WellFormed) {parts : List (List String)}
    (h : g.IsPartition parts) : ListsCycles g.Edge g.place (g.cyclesAmong parts) := by
  have hnode : ∀ part ∈ parts, ∀ a ∈ part, a ∈ g.nodes :=
    fun part hpart a ha => (h.mem_nodes a).mp ⟨part, hpart, ha⟩
  have hplace : ∀ part ∈ parts,
      (sortBy g.place part).Pairwise fun a b => g.place a < g.place b := by
    intro part hpart
    refine pairwise_sortBy_lt ((h.nodup part hpart).imp_of_mem fun {a b} ha _ hne => ?_)
    exact place_ne (hnode part hpart a ha) hne
  refine ⟨fun members => ?_, ?_, ?_⟩
  · rw [mem_cyclesAmong]
    constructor
    · rintro ⟨part, hpart, hlength, rfl⟩
      have hperm := perm_sortBy g.place part
      refine ⟨hperm.length_eq ▸ hlength, hplace part hpart, ?_⟩
      obtain ⟨a, ha⟩ := List.exists_mem_of_length_pos (Nat.lt_of_lt_of_le Nat.two_pos hlength)
      exact ⟨a, fun b => hperm.mem_iff.trans (h.mem_iff part hpart a ha b)⟩
    · rintro ⟨hlength, hrank, a, hmem⟩
      have hnodup := nodup_of_pairwise_lt hrank
      -- Two members lead to each other, so that edges start at them.
      obtain ⟨b, hb, hne⟩ := exists_mem_ne hnodup hlength a
      obtain ⟨c, he, -⟩ := TransGen.head'_iff.mp (((hmem b).mp hb).transGen_self hne)
      obtain ⟨part, hpart, ha⟩ := (h.mem_nodes a).mpr (hg.source_mem he)
      have hperm := perm_sortBy g.place part
      have hsame : sortBy g.place part = members := by
        refine eq_of_pairwise_lt (hplace part hpart) hrank fun x => ?_
        rw [hperm.mem_iff, h.mem_iff part hpart a ha x, hmem x]
      exact ⟨part, hpart, hperm.length_eq ▸ hsame ▸ hlength, hsame⟩
  · refine ((perm_sortBy _ _).pairwise_iff List.disjoint_symm).mpr (List.pairwise_map.mpr ?_)
    refine (h.disjoint.filter _).imp fun {p q} hdisjoint a hap haq => ?_
    exact hdisjoint ((perm_sortBy _ p).mem_iff.mp hap) ((perm_sortBy _ q).mem_iff.mp haq)
  · rw [cyclesAmong]
    refine pairwise_sortBy_lt (List.pairwise_map.mpr ?_)
    refine (h.disjoint.filter _).imp_of_mem fun {p q} hp hq hdisjoint => ?_
    have hhead : ∀ part ∈ parts.filter (fun members => 2 ≤ members.length),
        (sortBy g.place part).headD "" ∈ part := by
      intro part hpart
      have hlength := of_decide_eq_true (List.mem_filter.mp hpart).2
      rw [← (perm_sortBy g.place part).length_eq] at hlength
      refine (perm_sortBy g.place part).mem_iff.mp ?_
      cases hsorted : sortBy g.place part with
      | nil => rw [hsorted] at hlength; cases hlength
      | cons a rest => exact List.mem_cons_self
    refine place_ne (hnode p (List.mem_of_mem_filter hp) _ (hhead p hp)) fun heq => ?_
    exact hdisjoint (hhead p hp) (heq ▸ hhead q hq)

theorem listsCycles_cycles (hg : g.WellFormed) : ListsCycles g.Edge g.place g.cycles :=
  (isPartition_components hg).listsCycles hg

/-- **Whatever search has found the classes, the same cycles are told.** -/
theorem IsPartition.cyclesAmong_eq (hg : g.WellFormed) {parts : List (List String)}
    (h : g.IsPartition parts) : g.cyclesAmong parts = g.cycles :=
  (h.listsCycles hg).eq (listsCycles_cycles hg)

/-- **The components of two or more nodes are there exactly when some path
leads back to where it started.** -/
theorem cycles_eq_nil_iff (hg : g.WellFormed) : g.cycles = [] ↔ g.Acyclic := by
  rw [List.eq_nil_iff_forall_not_mem]
  constructor
  · intro hnone a hloop
    -- The loop starts with an edge to another node, which is in the same component.
    obtain ⟨b, he, hba⟩ := TransGen.head'_iff.mp hloop
    have hparts := isPartition_components hg
    obtain ⟨part, hpart, ha⟩ := (hparts.mem_nodes a).mpr (hg.source_mem he)
    have hb := (hparts.mem_iff part hpart a ha b).mpr ⟨.single he, hba⟩
    refine hnone _ (mem_cyclesAmong.mpr ⟨part, hpart, ?_, rfl⟩)
    have hsub : [a, b] ⊆ part := List.cons_subset.mpr ⟨ha, List.cons_subset.mpr ⟨hb, by simp⟩⟩
    exact (List.subperm_of_subset (by simpa using hg.ne he) hsub).length_le
  · intro hac members hm
    obtain ⟨hlength, -, -⟩ := ((listsCycles_cycles hg).mem_iff members).mp hm
    obtain ⟨a, ha⟩ := List.exists_mem_of_length_pos (Nat.lt_of_lt_of_le Nat.two_pos hlength)
    exact hac a ((listsCycles_cycles hg).transGen_self hm ha)

end Graph

end SolidityCanvas
