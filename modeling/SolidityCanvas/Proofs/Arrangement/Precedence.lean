/-
What has to come before what on a canvas.

`Canvas.Precedes` says it without the search that `Canvas.arrange` makes: a
connection that can be used orders its ends as its rule says, and a component
of which a type is read comes after the first one on the canvas that declares
the type.  The constraints that are collected are these and no others
(`mem_precedences`), each once (`nodup_precedences`), and so are the edges of the
graph (`edge_iff_precedes`).  Hence an arrangement is refused exactly when the
relation has a cycle or runs against the order of the sections
(`arrange_eq_ok`).
-/
import SolidityCanvas.Arrangement
import SolidityCanvas.Proofs.Canvas.Components
import SolidityCanvas.Proofs.Graph.Cycles

namespace SolidityCanvas

open Relation

/-- A name stands in a type that is read of a component. -/
def Component.ReadsType (k : Component) (name : String) : Prop :=
  ∃ p ∈ k.template.properties, ∃ s ∈ Canvas.typeTexts k p, name ∈ Solidity.identifiers s

namespace Canvas

/-- A connection of the canvas that can be used: its ends are two different
components, and a rule allows it. -/
structure Connects (c : Canvas) (catalog : Catalog) (k : Connection) (rule : Rule) : Prop where
  mem : k ∈ c.connections
  ne : k.source ≠ k.target
  allowed : ∃ source target, c.componentAt? catalog k.source = some source ∧
    c.componentAt? catalog k.target = some target ∧
    catalog.rule? source.template.category.name target.template.category.name = some rule

/-- The component with an id declares a type. -/
def Declares (c : Canvas) (catalog : Catalog) (id name : String) : Prop :=
  ∃ k, c.componentAt? catalog id = some k ∧ k.declaredType? = some name

/-- The component with an id is the first on the canvas to declare a type. -/
def FirstDeclares (c : Canvas) (catalog : Catalog) (id name : String) : Prop :=
  c.Declares catalog id name ∧ ∀ other, c.Declares catalog other name → c.place id ≤ c.place other

/-- The component with the first id has to come before that with the
second. -/
inductive Precedes (c : Canvas) (catalog : Catalog) : String → String → Prop
  | forward {k : Connection} {rule : Rule} (h : c.Connects catalog k rule)
      (ho : rule.order = .forward) : Precedes c catalog k.source k.target
  | reverse {k : Connection} {rule : Rule} (h : c.Connects catalog k rule)
      (ho : rule.order = .reverse) : Precedes c catalog k.target k.source
  | mention {id provider name : String} {k : Component} (hk : c.componentAt? catalog id = some k)
      (hm : k.ReadsType name) (hp : c.FirstDeclares catalog provider name) (hne : provider ≠ id) :
      Precedes c catalog provider id

/-- The constraints on the order of components, each with the connection it comes
from.  A mention of a type comes from none. -/
inductive Requires (c : Canvas) (catalog : Catalog) : Precedence → Prop
  | forward {k : Connection} {rule : Rule} (h : c.Connects catalog k rule)
      (ho : rule.order = .forward) : Requires c catalog ⟨k.source, k.target, some k⟩
  | reverse {k : Connection} {rule : Rule} (h : c.Connects catalog k rule)
      (ho : rule.order = .reverse) : Requires c catalog ⟨k.target, k.source, some k⟩
  | mention {id provider name : String} {k : Component} (hk : c.componentAt? catalog id = some k)
      (hm : k.ReadsType name) (hp : c.FirstDeclares catalog provider name) (hne : provider ≠ id) :
      Requires c catalog ⟨provider, id, none⟩

/-- No component has, in the end, to come before itself. -/
def Unentangled (c : Canvas) (catalog : Catalog) : Prop :=
  ∀ id, ¬ TransGen (c.Precedes catalog) id id

/-- Nothing has to come before what stands in an earlier section. -/
def RespectsSections (c : Canvas) (catalog : Catalog) : Prop :=
  ∀ {a b : String} {k l : Component}, c.Precedes catalog a b → c.componentAt? catalog a = some k →
    c.componentAt? catalog b = some l →
    k.template.category.zone.rank ≤ l.template.category.zone.rank

variable {c : Canvas} {catalog : Catalog} {ks : List Component} {fs : List Diagnostic}

/-! ### Connections -/

theorem usable?_eq_some (h : c.components catalog = .ok (ks, fs)) {k : Connection}
    {u : UsableConnection} :
    usable? catalog ks k = some u ↔ k.source ≠ k.target ∧ u.connection = k ∧
      c.componentAt? catalog k.source = some u.source ∧
      c.componentAt? catalog k.target = some u.target ∧
      catalog.rule? u.source.template.category.name u.target.template.category.name =
        some u.rule := by
  rw [usable?]
  by_cases hne : k.source = k.target
  · simp [hne]
  · simp only [beq_iff_eq, hne, if_false, Option.pure_def, Option.bind_eq_bind,
      Option.bind_eq_some_iff, componentWith?_eq_componentAt? h,
      Option.some.injEq, ne_eq, not_false_eq_true, true_and]
    constructor
    · rintro ⟨source, hs, target, ht, rule, hr, rfl⟩
      exact ⟨rfl, hs, ht, hr⟩
    · rintro ⟨rfl, hs, ht, hr⟩
      exact ⟨u.source, hs, u.target, ht, u.rule, hr, rfl⟩

theorem mem_usableConnections (h : c.components catalog = .ok (ks, fs)) {u : UsableConnection}
    (hu : u ∈ usableConnections catalog ks c.connections) :
    c.Connects catalog u.connection u.rule ∧
      c.componentAt? catalog u.connection.source = some u.source ∧
      c.componentAt? catalog u.connection.target = some u.target := by
  rw [usableConnections, List.mem_filterMap] at hu
  obtain ⟨k, hk, hu⟩ := hu
  rw [List.mem_eraseDups] at hk
  obtain ⟨hne, rfl, hs, ht, hr⟩ := (usable?_eq_some h).mp hu
  exact ⟨⟨hk, hne, u.source, u.target, hs, ht, hr⟩, hs, ht⟩

theorem exists_mem_usableConnections (h : c.components catalog = .ok (ks, fs)) {k : Connection}
    {rule : Rule} (hk : c.Connects catalog k rule) :
    ∃ u ∈ usableConnections catalog ks c.connections, u.connection = k ∧ u.rule = rule := by
  obtain ⟨source, target, hs, ht, hr⟩ := hk.allowed
  refine ⟨⟨k, source, target, rule⟩, ?_, rfl, rfl⟩
  rw [usableConnections, List.mem_filterMap]
  exact ⟨k, List.mem_eraseDups.mpr hk.mem, (usable?_eq_some h).mpr ⟨hk.ne, rfl, hs, ht, hr⟩⟩

theorem nodup_connections_usableConnections (catalog : Catalog) (ks : List Component)
    (connections : List Connection) :
    ((usableConnections catalog ks connections).map (·.connection)).Nodup := by
  have hconnection : ∀ {k : Connection} {u : UsableConnection},
      usable? catalog ks k = some u → u.connection = k := by
    intro k u hu
    simp only [usable?, Option.bind_eq_bind, Option.pure_def] at hu
    split at hu
    · cases hu
    · simp only [Option.bind_eq_some_iff, Option.some_inj] at hu
      obtain ⟨_, _, _, _, _, _, rfl⟩ := hu
      rfl
  rw [List.Nodup, List.pairwise_map, usableConnections]
  refine List.Pairwise.filterMap _ (fun k k' hne u hu u' hu' heq => hne ?_)
    (Graph.nodup_eraseDups connections)
  rw [← hconnection hu, ← hconnection hu', heq]

/-! ### Types -/

/-- In a list whose places grow, what is found is before all else that could
be. -/
theorem place_le_of_find? {place : Component → Nat} {p : Component → Bool} {k : Component} :
    ∀ {ks : List Component}, ks.Pairwise (fun k k' => place k < place k') →
      ks.find? p = some k → ∀ k' ∈ ks, p k' = true → place k ≤ place k' := by
  intro ks
  induction ks with
  | nil => exact fun _ _ k' hk' => absurd hk' List.not_mem_nil
  | cons x rest ih =>
    intro hpair hfind k' hk' hp
    obtain ⟨hx, hrest⟩ := List.pairwise_cons.mp hpair
    by_cases hpx : p x = true
    · rw [List.find?_cons_of_pos hpx, Option.some_inj] at hfind
      subst hfind
      rcases List.mem_cons.mp hk' with rfl | hk'
      · exact Nat.le_refl _
      · exact Nat.le_of_lt (hx k' hk')
    · rw [List.find?_cons_of_neg hpx] at hfind
      rcases List.mem_cons.mp hk' with rfl | hk'
      · exact absurd hp hpx
      · exact ih hrest hfind k' hk' hp

theorem mem_of_declares (h : c.components catalog = .ok (ks, fs)) {id name : String}
    (hd : c.Declares catalog id name) :
    ∃ k ∈ ks, k.id = id ∧ (k.declaredType? == some name) = true := by
  obtain ⟨k, hk, hname⟩ := hd
  exact ⟨k, mem_components_of_componentAt? h hk, componentAt?_id hk, by simp [hname]⟩

theorem typeDeclarer?_eq_some (h : c.components catalog = .ok (ks, fs)) {id name : String} :
    typeDeclarer? ks name = some id ↔ c.FirstDeclares catalog id name := by
  rw [typeDeclarer?, Option.map_eq_some_iff]
  have hle : ∀ {k}, ks.find? (·.declaredType? == some name) = some k →
      ∀ other, c.Declares catalog other name → c.place k.id ≤ c.place other := by
    intro k hfind other hother
    obtain ⟨k', hk', rfl, hp⟩ := mem_of_declares h hother
    exact place_le_of_find? (components_pairwise h) hfind k' hk' hp
  constructor
  · rintro ⟨k, hfind, rfl⟩
    refine ⟨⟨k, (mem_components h).mp (List.mem_of_find?_eq_some hfind), ?_⟩, hle hfind⟩
    simpa using List.find?_some hfind
  · rintro ⟨hd, hfirst⟩
    obtain ⟨k, hk, rfl, hp⟩ := mem_of_declares h hd
    obtain ⟨k', hfind⟩ : ∃ k', ks.find? (·.declaredType? == some name) = some k' :=
      Option.isSome_iff_exists.mp (List.find?_isSome.mpr ⟨k, hk, hp⟩)
    have hk' := List.mem_of_find?_eq_some hfind
    have hd' : c.Declares catalog k'.id name :=
      ⟨k', (mem_components h).mp hk', by simpa using List.find?_some hfind⟩
    -- Both come first, and no two components share a place.
    exact ⟨k', hfind, eq_of_place_eq ((mem_components h).mp hk')
      (Nat.le_antisymm (hle hfind _ hd) (hfirst _ hd'))⟩

theorem mem_typeProviders (h : c.components catalog = .ok (ks, fs)) {k : Component}
    {provider : String} :
    provider ∈ typeProviders ks k ↔
      provider ≠ k.id ∧ ∃ name, k.ReadsType name ∧ c.FirstDeclares catalog provider name := by
  rw [typeProviders, List.mem_eraseDups, List.mem_filter, List.mem_filterMap]
  simp only [List.mem_flatMap, typeDeclarer?_eq_some h, bne_iff_ne]
  constructor
  · rintro ⟨⟨name, ⟨p, hp, s, hs, hn⟩, hfirst⟩, hne⟩
    exact ⟨hne, name, ⟨p, hp, s, hs, hn⟩, hfirst⟩
  · rintro ⟨hne, name, ⟨p, hp, s, hs, hn⟩, hfirst⟩
    exact ⟨⟨name, ⟨p, hp, s, hs, hn⟩, hfirst⟩, hne⟩

/-! ### Constraints -/

theorem precedes_iff_exists_requires {a b : String} :
    c.Precedes catalog a b ↔ ∃ p, c.Requires catalog p ∧ p.before = a ∧ p.after = b := by
  constructor
  · rintro (⟨hk, ho⟩ | ⟨hk, ho⟩ | ⟨hk, hm, hp, hne⟩)
    · exact ⟨_, .forward hk ho, rfl, rfl⟩
    · exact ⟨_, .reverse hk ho, rfl, rfl⟩
    · exact ⟨_, .mention hk hm hp hne, rfl, rfl⟩
  · rintro ⟨p, hp, rfl, rfl⟩
    cases hp with
    | forward hk ho => exact .forward hk ho
    | reverse hk ho => exact .reverse hk ho
    | mention hk hm hp hne => exact .mention hk hm hp hne

/-- The constraint of a connection that can be used. -/
theorem precedence?_eq_some (h : c.components catalog = .ok (ks, fs)) {u : UsableConnection}
    (hu : u ∈ usableConnections catalog ks c.connections) {p : Precedence} :
    u.precedence? = some p ↔
      (u.rule.order = .forward ∧
        p = ⟨u.connection.source, u.connection.target, some u.connection⟩) ∨
      (u.rule.order = .reverse ∧
        p = ⟨u.connection.target, u.connection.source, some u.connection⟩) := by
  obtain ⟨_, hs, ht⟩ := mem_usableConnections h hu
  rw [UsableConnection.precedence?, componentAt?_id hs, componentAt?_id ht]
  cases u.rule.order <;> simp [eq_comm]

/-- **The constraints that are collected are those of the canvas.** -/
theorem mem_precedences (h : c.components catalog = .ok (ks, fs)) {p : Precedence} :
    p ∈ precedences ks (usableConnections catalog ks c.connections) ↔ c.Requires catalog p := by
  rw [precedences, List.mem_append, List.mem_filterMap, List.mem_flatMap]
  constructor
  · rintro (⟨u, hu, hp⟩ | ⟨k, hk, hp⟩)
    · have hconnects := (mem_usableConnections h hu).1
      obtain ⟨ho, rfl⟩ | ⟨ho, rfl⟩ := (precedence?_eq_some h hu).mp hp
      · exact .forward hconnects ho
      · exact .reverse hconnects ho
    · obtain ⟨provider, hprovider, rfl⟩ := List.mem_map.mp hp
      obtain ⟨hne, name, hm, hfirst⟩ := (mem_typeProviders h).mp hprovider
      exact .mention ((mem_components h).mp hk) hm hfirst hne
  · intro hp
    cases hp with
    | forward hk ho =>
      obtain ⟨u, hu, rfl, rfl⟩ := exists_mem_usableConnections h hk
      exact .inl ⟨u, hu, (precedence?_eq_some h hu).mpr (.inl ⟨ho, rfl⟩)⟩
    | reverse hk ho =>
      obtain ⟨u, hu, rfl, rfl⟩ := exists_mem_usableConnections h hk
      exact .inl ⟨u, hu, (precedence?_eq_some h hu).mpr (.inr ⟨ho, rfl⟩)⟩
    | mention hk hm hfirst hne =>
      -- The constraint is collected at the component that mentions the type.
      rw [← componentAt?_id hk] at hne ⊢
      exact .inr ⟨_, mem_components_of_componentAt? h hk,
        List.mem_map_of_mem ((mem_typeProviders h).mpr ⟨hne, _, hm, hfirst⟩)⟩

theorem exists_mem_precedences_iff (h : c.components catalog = .ok (ks, fs)) {a b : String} :
    (∃ p ∈ precedences ks (usableConnections catalog ks c.connections),
      p.before = a ∧ p.after = b) ↔ c.Precedes catalog a b := by
  simp only [mem_precedences h, precedes_iff_exists_requires]

/-- **Each constraint is collected once.** -/
theorem nodup_precedences (h : c.components catalog = .ok (ks, fs)) :
    (precedences ks (usableConnections catalog ks c.connections)).Nodup := by
  refine List.nodup_append.mpr ⟨?_, ?_, ?_⟩
  · have hus := nodup_connections_usableConnections catalog ks c.connections
    rw [List.Nodup, List.pairwise_map] at hus
    refine List.Pairwise.filterMap _ ?_ (List.Pairwise.and_mem.mp hus)
    rintro u u' ⟨hu, hu', hne⟩ p hp p' hp' rfl
    -- A constraint names the connection it comes from.
    refine hne ?_
    obtain ⟨-, rfl⟩ | ⟨-, rfl⟩ := (precedence?_eq_some h hu).mp hp
    all_goals
      obtain ⟨-, heq⟩ | ⟨-, heq⟩ := (precedence?_eq_some h hu').mp hp'
      all_goals exact Option.some.inj (congrArg Precedence.connection heq)
  · refine List.nodup_flatMap.mpr ⟨fun k _ => ?_, ?_⟩
    · refine (Graph.nodup_eraseDups _).map fun p p' heq => ?_
      exact congrArg Precedence.before heq
    · have hks := components_nodup h
      rw [List.Nodup, List.pairwise_map] at hks
      refine hks.imp fun hne => List.disjoint_left.mpr fun p hp hp' => hne ?_
      obtain ⟨_, -, rfl⟩ := List.mem_map.mp hp
      obtain ⟨_, -, heq⟩ := List.mem_map.mp hp'
      exact (congrArg Precedence.after heq).symm
  · rintro p hp p' hp' rfl
    obtain ⟨u, hu, hp⟩ := List.mem_filterMap.mp hp
    obtain ⟨k, -, hp'⟩ := List.mem_flatMap.mp hp'
    obtain ⟨_, -, rfl⟩ := List.mem_map.mp hp'
    obtain ⟨-, heq⟩ | ⟨-, heq⟩ := (precedence?_eq_some h hu).mp hp
    all_goals cases congrArg Precedence.connection heq

/-- What adding constraints to a graph does: each becomes an edge beside those
before. -/
theorem addPrecedences_eq_ok : ∀ (ps : List Precedence) {g g' : Graph},
    addPrecedences g ps = .ok g' → g.WellFormed →
    g'.WellFormed ∧ g'.nodes = g.nodes ∧
      ∀ a b, g'.Edge a b ↔ g.Edge a b ∨ ∃ p ∈ ps, p.before = a ∧ p.after = b := by
  intro ps
  induction ps with
  | nil =>
    intro g g' h hg
    obtain rfl := Except.ok.inj h
    exact ⟨hg, rfl, fun a b => by simp⟩
  | cons p rest ih =>
    intro g g' h hg
    obtain ⟨g₁, hp, h⟩ := except_bind_eq_ok.mp h
    -- The fault of an edge is reworded on its way out, and its graph is not.
    have hp : g.addEdge p.before p.after = .ok g₁ := by
      cases he : g.addEdge p.before p.after with
      | error f => rw [he] at hp; cases hp
      | ok g₂ => rw [he] at hp; cases hp; rfl
    obtain ⟨_, _, _, hnodes, hedge⟩ := Graph.addEdge_eq_ok hp
    obtain ⟨hwf, hnodes', hedge'⟩ := ih h (hg.addEdge hp)
    refine ⟨hwf, hnodes'.trans hnodes, fun a b => ?_⟩
    rw [hedge', hedge, List.exists_mem_cons_iff, or_assoc, eq_comm (a := a), eq_comm (a := b)]

/-- The graph on the components of a canvas has the order of the canvas as its
edges. -/
theorem edge_iff_precedes (h : c.components catalog = .ok (ks, fs)) {g : Graph}
    (hg : addPrecedences ((ks.map (·.id)).foldl Graph.addNode Graph.empty)
      (precedences ks (usableConnections catalog ks c.connections)) = .ok g) :
    g.WellFormed ∧ ∀ a b, g.Edge a b ↔ c.Precedes catalog a b := by
  obtain ⟨hwf, _, hedge⟩ :=
    addPrecedences_eq_ok _ hg (Graph.wellFormed_empty.foldl_addNode _)
  refine ⟨hwf, fun a b => ?_⟩
  rw [hedge, exists_mem_precedences_iff h, Graph.Edge, Graph.foldl_addNode_edges]
  exact or_iff_right List.not_mem_nil

theorem cycles_eq_nil_iff_unentangled (h : c.components catalog = .ok (ks, fs)) {g : Graph}
    (hg : addPrecedences ((ks.map (·.id)).foldl Graph.addNode Graph.empty)
      (precedences ks (usableConnections catalog ks c.connections)) = .ok g) :
    g.cycles = [] ↔ c.Unentangled catalog := by
  obtain ⟨hwf, hedge⟩ := edge_iff_precedes h hg
  have hsame : g.Edge = c.Precedes catalog := funext fun a => funext fun b => propext (hedge a b)
  rw [Graph.cycles_eq_nil_iff hwf, Graph.Acyclic, hsame, Unentangled]

/-! ### Verdicts -/

theorem zoneOf?_eq (h : c.components catalog = .ok (ks, fs)) (id : String) :
    zoneOf? ks id = (c.componentAt? catalog id).map (·.template.category.zone) := by
  rw [zoneOf?, componentWith?_eq_componentAt? h]

theorem conflictFinding?_eq_none_iff (h : c.components catalog = .ok (ks, fs)) {p : Precedence} :
    conflictFinding? ks p = none ↔ ∀ {k l : Component}, c.componentAt? catalog p.before = some k →
      c.componentAt? catalog p.after = some l →
      k.template.category.zone.rank ≤ l.template.category.zone.rank := by
  rw [conflictFinding?, zoneOf?_eq h, zoneOf?_eq h]
  cases hk : c.componentAt? catalog p.before with
  | none => simp
  | some k =>
    cases hl : c.componentAt? catalog p.after with
    | none => simp
    | some l =>
      by_cases hle : k.template.category.zone.rank ≤ l.template.category.zone.rank
      · simp [hle]
      · simp [hle]

/-- A conflict is an error with a code of its own. -/
theorem code_conflictFinding? {p : Precedence} {d : Diagnostic}
    (h : conflictFinding? ks p = some d) : d.code = Code.sectionConflict ∧ d.isError = true := by
  simp only [conflictFinding?, Option.bind_eq_bind, Option.bind_eq_some_iff] at h
  obtain ⟨first, -, second, -, h⟩ := h
  split at h
  · cases h
  · obtain rfl := Option.some_inj.mp h
    exact ⟨rfl, rfl⟩

theorem filterMap_conflictFinding?_eq_nil_iff (h : c.components catalog = .ok (ks, fs)) :
    (precedences ks (usableConnections catalog ks c.connections)).filterMap
      (conflictFinding? ks) = [] ↔ c.RespectsSections catalog := by
  rw [List.filterMap_eq_nil_iff]
  constructor
  · intro hnone a b k l hab
    obtain ⟨p, hp, rfl, rfl⟩ := (exists_mem_precedences_iff h).mpr hab
    exact (conflictFinding?_eq_none_iff h).mp (hnone p hp)
  · intro hresp p hp
    refine (conflictFinding?_eq_none_iff h).mpr fun {k l} => ?_
    exact hresp ((exists_mem_precedences_iff h).mp ⟨p, hp, rfl, rfl⟩)

/-- Binding instances to arrange them passes over the same ones as binding them
to check them. -/
theorem bindOnto_eq (catalog : Catalog) : ∀ (is : List Instance) {bound : List Component}
    {seen : List String}, (∀ id, (componentWith? bound id).isSome = seen.contains id) →
    bindOnto catalog bound is = (bindFrom catalog seen is).map fun r => bound ++ r.1 := by
  intro is
  induction is with
  | nil =>
    intro bound seen _
    rw [bindOnto, bindFrom, Except.map, List.append_nil]
  | cons i rest ih =>
    intro bound seen hseen
    rw [bindOnto, bindFrom, hseen i.id]
    split
    · rw [ih hseen]
      cases bindFrom catalog seen rest <;> rfl
    · cases catalog.template? i.template with
      | none => rfl
      | some t =>
        have hnext : ∀ id, (componentWith? (bound ++ [Component.ofInstance i t]) id).isSome =
            (i.id :: seen).contains id := by
          intro id
          rw [List.contains_cons, ← hseen id, componentWith?, componentWith?, List.find?_append,
            Option.isSome_or, List.find?_singleton, Component.ofInstance_id, Bool.or_comm,
            Bool.beq_comm]
          split
          · rename_i heq
            rw [heq]
            rfl
          · rename_i hne
            rw [Bool.eq_false_iff.mpr hne]
            rfl
        dsimp only
        rw [ih hnext]
        cases bindFrom catalog (i.id :: seen) rest with
        | error e => rfl
        | ok r =>
          rw [Except.map, List.append_assoc]
          rfl

/-- What is arranged are the components of the canvas. -/
theorem arrange_eq (c : Canvas) (catalog : Catalog) : c.arrange catalog = (do
    let (components, _) ← c.components catalog
    arrangeComponents catalog components c.connections) := by
  have hnone : ∀ id, (componentWith? [] id).isSome = [].contains id := fun _ => rfl
  rw [arrange, components, bindOnto_eq catalog c.instances hnone]
  cases bindFrom catalog [] c.instances <;> rfl

/-- Without the components there is no verdict. -/
theorem arrange_of_error {e : InvariantError} (h : c.components catalog = .error e) :
    c.arrange catalog = .error e := by
  rw [arrange_eq, h]
  rfl

/-- What has been found before is kept. -/
theorem resolve_eq (c : Canvas) (catalog : Catalog) (soFar : List Diagnostic) :
    c.resolve catalog soFar = match c.arrange catalog with
      | .error e => .error e
      | .ok (.error own) => .ok (none, soFar ++ own)
      | .ok (.ok a) => .ok (some a, soFar) := by
  rw [resolve]
  cases c.arrange catalog with
  | error e => rfl
  | ok r => cases r <;> rfl

/-- What arranging a canvas can do: it names the cycles, or else the conflicts
between sections, or else puts each section in order. -/
theorem arrange_cases {r : Except (List Diagnostic) Arrangement} (h : c.arrange catalog = .ok r) :
    ∃ ks fs g, c.components catalog = .ok (ks, fs) ∧
      addPrecedences ((ks.map (·.id)).foldl Graph.addNode Graph.empty)
        (precedences ks (usableConnections catalog ks c.connections)) = .ok g ∧
      ((g.cycles ≠ [] ∧ r = .error (g.cycles.map cycleFinding)) ∨
        (g.cycles = [] ∧ (precedences ks (usableConnections catalog ks c.connections)).filterMap
          (conflictFinding? ks) ≠ [] ∧
          r = .error ((precedences ks (usableConnections catalog ks c.connections)).filterMap
            (conflictFinding? ks))) ∨
        (g.cycles = [] ∧ (precedences ks (usableConnections catalog ks c.connections)).filterMap
          (conflictFinding? ks) = [] ∧
          ∃ sections, r = .ok ⟨sections⟩ ∧
            Section.all.mapM (fun zone => do
              let inOrder ← sectionEntries
                (ks.map (entryOf ks (usableConnections catalog ks c.connections)))
                (precedences ks (usableConnections catalog ks c.connections)) zone
              return (zone, inOrder)) = .ok sections)) := by
  rw [arrange_eq] at h
  obtain ⟨⟨ks, fs⟩, hks, h⟩ := except_bind_eq_ok.mp h
  obtain ⟨g, hg, h⟩ := except_bind_eq_ok.mp h
  refine ⟨ks, fs, g, hks, hg, ?_⟩
  dsimp only at h
  split at h
  · rename_i hnil
    split at h
    · rename_i hnone
      obtain ⟨sections, hs, h⟩ := except_bind_eq_ok.mp h
      exact .inr (.inr ⟨hnil, hnone, sections, (Except.ok.inj h).symm, hs⟩)
    · rename_i hsome
      exact .inr (.inl ⟨hnil, hsome, (Except.ok.inj h).symm⟩)
  · rename_i hsome
    exact .inl ⟨hsome, (Except.ok.inj h).symm⟩

/-- What arranging a canvas can do, once its components are known. -/
theorem arrange_eq_ok {r : Except (List Diagnostic) Arrangement}
    (h : c.arrange catalog = .ok r) :
    ∃ ks fs, c.components catalog = .ok (ks, fs) ∧
      ((c.Unentangled catalog ∧ c.RespectsSections catalog ∧
          ∃ sections, r = .ok ⟨sections⟩ ∧
            Section.all.mapM (fun zone => do
              let inOrder ← sectionEntries
                (ks.map (entryOf ks (usableConnections catalog ks c.connections)))
                (precedences ks (usableConnections catalog ks c.connections)) zone
              return (zone, inOrder)) = .ok sections) ∨
        (¬ (c.Unentangled catalog ∧ c.RespectsSections catalog) ∧ ∃ ds, r = .error ds)) := by
  obtain ⟨ks, fs, g, hks, hg, hcases⟩ := arrange_cases h
  refine ⟨ks, fs, hks, ?_⟩
  have hcycles := cycles_eq_nil_iff_unentangled hks hg
  have hconflicts := filterMap_conflictFinding?_eq_nil_iff hks
  obtain ⟨hsome, hr⟩ | ⟨_, hsome, hr⟩ | ⟨hnil, hnone, hr⟩ := hcases
  · exact .inr ⟨fun hfine => hsome (hcycles.mpr hfine.1), _, hr⟩
  · exact .inr ⟨fun hfine => hsome (hconflicts.mpr hfine.2), _, hr⟩
  · exact .inl ⟨hcycles.mp hnil, hconflicts.mp hnone, hr⟩

end Canvas

end SolidityCanvas
