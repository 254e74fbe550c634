/-
What is told when a canvas cannot be arranged.

Components that have to come before each other are told class by class: each
finding with the code of a cycle is about the earliest member of a class and
names the others in the order of the canvas (`Canvas.listsCycles_of_resolve`).
The classes are those of the graph of the constraints, which has none exactly
if it can be sorted (`cycles_are_told`).

Where no components depend on each other in a circle, arranging a canvas stops at
the constraints that ask for something of a later section before something of an
earlier one.  Each of them is told once, and nothing else is.  A constraint that
comes from a connection is told at one end of the connection, and the finding relates
the other end.  A mention of a type is no connection: its finding is about an empty
id, and relates that.

* `Canvas.isSome_conflictFinding?_iff`, `Canvas.tellsConflict_of_conflictFinding?`:
  which constraints are told, and how;
* `Canvas.pointsAt_iff`: which findings point at the canvas;
* `Canvas.section_conflicts_are_told`: what is told when arranging stops.
-/
import SolidityCanvas.Proofs.Arrangement.Order
import SolidityCanvas.Proofs.Catalog.Build
import SolidityCanvas.Proofs.Graph.Sort

open Relation

namespace SolidityCanvas

namespace Canvas

variable {c : Canvas} {catalog : Catalog} {ks : List Component} {fs : List Diagnostic}

/-- The instances that a finding names, the one it is about first. -/
def named (d : Diagnostic) : List String := d.instanceId :: d.related

/-- The instances that each finding about a cycle names. -/
def namedCycles (ds : List Diagnostic) : List (List String) :=
  (ds.filter (·.code == Code.cycle)).map named

theorem namedCycles_map_cycleFinding {classes : List (List String)}
    (h : ∀ members ∈ classes, members ≠ []) : namedCycles (classes.map cycleFinding) = classes := by
  have hcode : (classes.map cycleFinding).filter (·.code == Code.cycle) =
      classes.map cycleFinding := by
    refine List.filter_eq_self.mpr fun d hd => ?_
    obtain ⟨members, -, rfl⟩ := List.mem_map.mp hd
    rfl
  rw [namedCycles, hcode, List.map_map]
  refine (List.map_congr_left fun members hm => ?_).trans (List.map_id classes)
  cases members with
  | nil => exact absurd rfl (h [] hm)
  | cons a rest => rfl

theorem namedCycles_eq_nil {ds : List Diagnostic} (h : ∀ d ∈ ds, d.code ≠ Code.cycle) :
    namedCycles ds = [] := by
  rw [namedCycles, List.map_eq_nil_iff, List.filter_eq_nil_iff]
  exact fun d hd => by simpa using h d hd

/-- In a list in the order of keys, places stand for keys. -/
theorem idxOf_lt_idxOf_iff {l : List String} {key : String → Nat}
    (h : l.Pairwise fun a b => key a < key b) {a b : String} (ha : a ∈ l) (hb : b ∈ l) :
    l.idxOf a < l.idxOf b ↔ key a < key b := by
  have hkey : ∀ {x y : String}, x ∈ l → y ∈ l → l.idxOf x < l.idxOf y → key x < key y := by
    intro x y hx hy hlt
    have hpair := List.pairwise_iff_getElem.mp h _ _ (List.idxOf_lt_length_iff.mpr hx)
      (List.idxOf_lt_length_iff.mpr hy) hlt
    rwa [List.getElem_idxOf, List.getElem_idxOf] at hpair
  refine ⟨hkey ha hb, fun hlt => ?_⟩
  rcases Nat.lt_trichotomy (l.idxOf a) (l.idxOf b) with hab | hab | hba
  · exact hab
  · rw [(List.idxOf_inj ha).mp hab] at hlt
    exact absurd hlt (Nat.lt_irrefl _)
  · exact absurd (hkey hb ha hba) (Nat.lt_asymm hlt)

/-- The cycles of the graph of constraints are those of the canvas. -/
theorem listsCycles_of_graph (hks : c.components catalog = .ok (ks, fs)) {g : Graph}
    (hg : addPrecedences ((ks.map (·.id)).foldl Graph.addNode Graph.empty)
      (precedences ks (usableConnections catalog ks c.connections)) = .ok g) :
    Graph.ListsCycles (c.Precedes catalog) c.place g.cycles := by
  obtain ⟨hwf, hedge⟩ := edge_iff_precedes hks hg
  have hsame : g.Edge = c.Precedes catalog := funext fun a => funext fun b => propext (hedge a b)
  have hnodes : g.nodes = ks.map (·.id) := by
    obtain ⟨_, hnodes, _⟩ := addPrecedences_eq_ok _ hg (Graph.wellFormed_empty.foldl_addNode _)
    rw [hnodes]
    exact Graph.foldl_addNode_nodes _ (by simpa [Graph.empty] using components_nodup hks)
  have hpair : (ks.map (·.id)).Pairwise fun a b => c.place a < c.place b :=
    List.pairwise_map.mpr (components_pairwise hks)
  have hmem : ∀ {a : String}, TransGen (c.Precedes catalog) a a → a ∈ ks.map (·.id) := by
    intro a ha
    obtain ⟨b, hab, -⟩ := TransGen.head'_iff.mp ha
    rw [← hnodes]
    exact hwf.source_mem ((hedge a b).mpr hab)
  have hcycles := Graph.listsCycles_cycles hwf
  rw [hsame] at hcycles
  refine hcycles.congr_rank fun a b ha hb => ?_
  rw [Graph.place, Graph.place, hnodes]
  exact idxOf_lt_idxOf_iff hpair (hmem ha) (hmem hb)

/-- **What is told of cycles.** -/
theorem listsCycles_of_resolve {soFar own : List Diagnostic} {sections : Option Arrangement}
    (h : c.resolve catalog soFar = .ok (sections, soFar ++ own)) :
    Graph.ListsCycles (c.Precedes catalog) c.place (namedCycles own) := by
  rw [resolve_eq] at h
  cases hr : c.arrange catalog with
  | error e => rw [hr] at h; cases h
  | ok verdict =>
    obtain ⟨ks, fs, g, hks, hg, hcases⟩ := arrange_cases hr
    have hcycles := listsCycles_of_graph hks hg
    -- Whatever the verdict, the findings name the cycles of the graph.
    have hnamed : namedCycles own = g.cycles := by
      rw [hr] at h
      obtain ⟨-, rfl⟩ | ⟨hnil, -, rfl⟩ | ⟨hnil, -, sections, rfl, -⟩ := hcases
      · obtain ⟨-, hown⟩ := Prod.mk.inj (Except.ok.inj h)
        rw [← List.append_cancel_left hown]
        refine namedCycles_map_cycleFinding fun members hm hnil => ?_
        exact absurd (hcycles.headD_mem hm) (by simp [hnil])
      · obtain ⟨-, hown⟩ := Prod.mk.inj (Except.ok.inj h)
        rw [hnil, ← List.append_cancel_left hown]
        refine namedCycles_eq_nil fun d hd => ?_
        obtain ⟨p, -, hp⟩ := List.mem_filterMap.mp hd
        rw [(code_conflictFinding? hp).1]
        decide
      · obtain ⟨-, hown⟩ := Prod.mk.inj (Except.ok.inj h)
        rw [hnil, List.self_eq_append_right.mp hown]
        rfl
    rwa [hnamed]

end Canvas

/-- **Cycles are told exactly.** A graph that calls have made lists the classes
of two or more nodes that lead to each other, whatever search has found the
components, and none as long as it can be sorted. The findings about a canvas
name the classes of the order of its components, and nothing that is on no
cycle. -/
theorem cycles_are_told :
    (∀ steps, Graph.ListsCycles (Graph.ofSteps steps).Edge (Graph.ofSteps steps).place
        (Graph.ofSteps steps).cycles ∧
      (∀ parts, (Graph.ofSteps steps).IsPartition parts →
        (Graph.ofSteps steps).cyclesAmong parts = (Graph.ofSteps steps).cycles) ∧
      ∀ less, (Graph.ofSteps steps).cycles = [] ↔
        ∃ order, (Graph.ofSteps steps).sort? less = some order) ∧
    ∀ (c : Canvas) catalog soFar sections own,
      c.resolve catalog soFar = .ok (sections, soFar ++ own) →
        Graph.ListsCycles (c.Precedes catalog) c.place (Canvas.namedCycles own) ∧
        ∀ d ∈ own, d.code = Code.cycle →
          ∀ id ∈ Canvas.named d, TransGen (c.Precedes catalog) id id := by
  refine ⟨fun steps => ?_, fun c catalog soFar sections own h => ?_⟩
  · have hg := Graph.wellFormed_ofSteps steps
    refine ⟨Graph.listsCycles_cycles hg, fun parts hparts => hparts.cyclesAmong_eq hg,
      fun less => ?_⟩
    rw [Graph.cycles_eq_nil_iff hg, ← Option.ne_none_iff_exists']
    exact (not_exists.symm.trans (not_congr (Graph.sortAlong_eq_none_iff hg)).symm)
  · have hcycles := Canvas.listsCycles_of_resolve h
    refine ⟨hcycles, fun d hd hcode id hid => hcycles.transGen_self ?_ hid⟩
    exact List.mem_map_of_mem (List.mem_filter.mpr ⟨hd, beq_iff_eq.mpr hcode⟩)

/-- Two functions that use each other, and one that uses the first. -/
def Canvas.knot : Canvas where
  instances := [⟨"f", "function", [("name", .string "even")]⟩,
    ⟨"h", "function", [("name", .string "half")]⟩,
    ⟨"g", "function", [("name", .string "odd")]⟩]
  connections := [⟨"g", "f"⟩, ⟨"f", "g"⟩, ⟨"h", "f"⟩]

theorem knot_is_told :
    Canvas.knot.resolve .sample [] = .ok (none, [] ++ [Canvas.cycleFinding ["f", "g"]]) ∧
    Graph.ListsCycles (Canvas.knot.Precedes .sample) Canvas.knot.place [["f", "g"]] :=
  ⟨rfl, (cycles_are_told.2 Canvas.knot .sample [] none [Canvas.cycleFinding ["f", "g"]] rfl).1⟩

/-! ### Conflicts between sections -/

/-- A finding tells a constraint: it is an error about the source of the connection
that the constraint comes from, and relates the target. -/
structure Diagnostic.TellsConflict (d : Diagnostic) (p : Precedence) : Prop where
  code : d.code = Code.sectionConflict
  severity : d.severity = .error
  instanceId : d.instanceId = (p.connection.map (·.source)).getD ""
  related : d.related = [(p.connection.map (·.target)).getD ""]

namespace Canvas

variable {c : Canvas} {catalog : Catalog} {ks : List Component} {fs : List Diagnostic}
  {p : Precedence} {d : Diagnostic}

/-- What has to come before is of a later section. -/
def Conflicts (c : Canvas) (catalog : Catalog) (before after : String) : Prop :=
  ∃ first second, c.componentAt? catalog before = some first ∧
    c.componentAt? catalog after = some second ∧
    second.template.category.zone.rank < first.template.category.zone.rank

/-- A finding is about an instance of the canvas that is one end of a constraint,
and relates the other end. -/
def PointsAt (c : Canvas) (d : Diagnostic) (p : Precedence) : Prop :=
  (∃ i ∈ c.instances, i.id = d.instanceId) ∧
    ((d.instanceId = p.before ∧ d.related = [p.after]) ∨
      (d.instanceId = p.after ∧ d.related = [p.before]))

/-- **A constraint is told if it runs against the order of the sections.** -/
theorem isSome_conflictFinding?_iff (h : c.components catalog = .ok (ks, fs)) :
    (conflictFinding? ks p).isSome = true ↔ c.Conflicts catalog p.before p.after := by
  rw [Option.isSome_iff_ne_none, ne_eq, conflictFinding?_eq_none_iff h, Conflicts]
  constructor
  · intro hnot
    by_contra hnone
    refine hnot fun {first second} hfirst hsecond => Nat.le_of_not_lt fun hlt => hnone ?_
    exact ⟨first, second, hfirst, hsecond, hlt⟩
  · rintro ⟨first, second, hfirst, hsecond, hlt⟩ hle
    exact Nat.not_le_of_lt hlt (hle hfirst hsecond)

theorem tellsConflict_of_conflictFinding? (h : conflictFinding? ks p = some d) :
    d.TellsConflict p := by
  simp only [conflictFinding?, Option.bind_eq_bind, Option.bind_eq_some_iff] at h
  obtain ⟨first, -, second, -, h⟩ := h
  split at h
  · cases h
  · obtain rfl := Option.some_inj.mp h
    refine ⟨rfl, rfl, ?_, ?_⟩
    · cases p.connection <;> rfl
    · cases p.connection <;> rfl

/-- **Only conflicts of connections point at the canvas.** -/
theorem pointsAt_iff (hp : c.Requires catalog p) (hd : d.TellsConflict p) :
    c.PointsAt d p ↔ p.connection.isSome = true := by
  have hends := (precedes_iff_exists_requires.mpr ⟨p, hp, rfl, rfl⟩).mem_instances
  rw [PointsAt, hd.instanceId, hd.related]
  cases hp with
  | forward _ _ => exact iff_of_true ⟨hends.1, .inl ⟨rfl, rfl⟩⟩ rfl
  | reverse _ _ => exact iff_of_true ⟨hends.2, .inr ⟨rfl, rfl⟩⟩ rfl
  | mention _ _ _ hne =>
    -- Both ends would have the empty id.
    refine iff_of_false ?_ Bool.false_ne_true
    rintro ⟨-, ⟨hbefore, hafter⟩ | ⟨hafter, hbefore⟩⟩
    · exact hne (hbefore.symm.trans (List.cons.inj hafter).1)
    · exact hne ((List.cons.inj hbefore).1.symm.trans hafter)

/-- **What is told when arranging stops at the sections.**  Then no components
depend on each other in a circle, and each constraint that runs against the order
of the sections is told by one error, in the order in which they are collected,
and no other is.  The error is about one end of the constraint and relates the
other end exactly if the constraint comes from a connection. -/
theorem section_conflicts_are_told {own : List Diagnostic}
    (h : c.arrange catalog = .ok (.error own))
    (hconflict : ∃ d ∈ own, d.code = Code.sectionConflict) :
    c.Unentangled catalog ∧ ∃ ps : List Precedence, ps.Nodup ∧
      (∀ p, p ∈ ps ↔ c.Requires catalog p ∧ c.Conflicts catalog p.before p.after) ∧
      List.Forall₂ (fun p d => d.TellsConflict p ∧
        (c.PointsAt d p ↔ p.connection.isSome = true)) ps own := by
  obtain ⟨ks, fs, g, hks, hg, ⟨-, hr⟩ | ⟨hnil, -, hr⟩ | ⟨-, -, _, hr, -⟩⟩ := arrange_cases h
  · -- Findings about circles have another code.
    obtain rfl := Except.error.inj hr
    obtain ⟨d, hd, hcode⟩ := hconflict
    obtain ⟨members, -, rfl⟩ := List.mem_map.mp hd
    exact absurd (show Code.cycle = Code.sectionConflict from hcode) (by decide)
  · obtain rfl := Except.error.inj hr
    refine ⟨(cycles_eq_nil_iff_unentangled hks hg).mp hnil,
      (precedences ks (usableConnections catalog ks c.connections)).filter
        fun p => (conflictFinding? ks p).isSome, (nodup_precedences hks).filter _, fun p => ?_, ?_⟩
    · rw [List.mem_filter, mem_precedences hks, isSome_conflictFinding?_iff hks]
    · refine forall₂_filterMap fun p hp d hd => ?_
      have htells := tellsConflict_of_conflictFinding? hd
      exact ⟨htells, pointsAt_iff ((mem_precedences hks).mp hp) htells⟩
  · cases hr

end Canvas

/-! ### Declarations in a late section -/

/-- Types that are declared among the functions, and variables, which come before
them and may mention them. -/
def Catalog.lateFiles : List (String × Definitions) :=
  let text (name check : String) : PropertyDefinition := ⟨name, .string, true, none, check, [], ""⟩
  [("late", {
    categories := [
      ⟨"late", "functions", "late", true, "name", false, true⟩,
      ⟨"early", "state", "", false, "", false, false⟩]
    rules := [⟨"late", "early", "forward", "", ""⟩]
    templates := [
      sampleTemplate "late" [text "name" ""], sampleTemplate "early" [text "type" "type"]] })]

/-- The catalog of these definitions. -/
def Catalog.late : Catalog := ((build lateFiles).toOption).getD {}

/-- A type and a variable, with the type that the variable mentions. -/
def Canvas.lateType (mentioned : String) (connections : List Connection) : Canvas where
  instances := [
    ⟨"a", "late", [("name", .string "Pair")]⟩, ⟨"b", "early", [("type", .string mentioned)]⟩]
  connections

/-- A conflict that comes from a connection is told at its ends. -/
theorem Canvas.connected_conflict_is_told :
    ∃ own, (lateType "uint256" [⟨"a", "b"⟩]).arrange .late = .ok (.error own) ∧
      (lateType "uint256" [⟨"a", "b"⟩]).Unentangled .late ∧
      own.map (fun d => (d.instanceId, d.related)) = [("a", ["b"])] := by
  obtain ⟨own, hown, hcode, hends⟩ : ∃ own,
      (lateType "uint256" [⟨"a", "b"⟩]).arrange .late = .ok (.error own) ∧
      (∃ d ∈ own, d.code = Code.sectionConflict) ∧
      own.map (fun d => (d.instanceId, d.related)) = [("a", ["b"])] :=
    ⟨_, rfl, by decide, by decide⟩
  exact ⟨own, hown, (section_conflicts_are_told hown hcode).1, hends⟩

/-- A conflict that comes from a mention is about no instance of the canvas. -/
theorem Canvas.mentioned_conflict_is_about_nothing :
    Catalog.build Catalog.lateFiles = .ok .late ∧
    ∃ own, (lateType "Pair" []).arrange .late = .ok (.error own) ∧
      ∃ d ∈ own, d.code = Code.sectionConflict ∧
        (∀ i ∈ (lateType "Pair" []).instances, i.id ≠ d.instanceId) ∧ d.related = [""] :=
  ⟨rfl, _, rfl, by decide⟩

end SolidityCanvas
