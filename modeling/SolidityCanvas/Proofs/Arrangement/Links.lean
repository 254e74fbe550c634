/-
The names that links hold.

A connection whose rule has a link gives the name of one of its ends, the
provider, to the other one.  Two components can be joined by two connections, one
each way, and the rules of both may have the same link; then the name is given
twice.

* `Canvas.perm_givings`: of the connections that can be used, at most two give the
  name of one component to a link of another one;
* `Canvas.linked_entryOf`: a link holds a name for each of these, in the order of
  the providers on the canvas;
* `Canvas.linked_eq_nil`: it holds names only if the template receives it;
* `Canvas.links_name_providers`: each provider is named once exactly if none gives
  its name both ways.
-/
import Mathlib.Algebra.Order.BigOperators.Group.List
import SolidityCanvas.Proofs.Arrangement.Order
import SolidityCanvas.Proofs.Catalog.Contents
import SolidityCanvas.Proofs.Validation.Verdict

namespace SolidityCanvas

/-- The ends of a connection that a rule allows: the provider and the one that
receives its name. -/
def Rule.ends (r : Rule) (k : Connection) : String × String :=
  if r.order == .reverse then (k.target, k.source) else (k.source, k.target)

theorem Rule.eq_of_ends {r : Rule} {k : Connection} {provider dependent : String}
    (h : r.ends k = (provider, dependent)) :
    k = ⟨provider, dependent⟩ ∨ k = ⟨dependent, provider⟩ := by
  rw [ends] at h
  split at h <;> cases h
  · exact .inr rfl
  · exact .inl rfl

theorem Catalog.rule?_ends {catalog : Catalog} {a b : String} {r : Rule}
    (h : catalog.rule? a b = some r) : r.source = a ∧ r.target = b := by
  simpa using List.find?_some h

namespace Canvas

variable {c : Canvas} {catalog : Catalog} {ks : List Component} {fs : List Diagnostic}
  {a : Arrangement} {e : Entry} {link provider dependent : String} {k : Connection}

/-- A connection gives the name of the provider to a link of the other end. -/
def GivesThrough (c : Canvas) (catalog : Catalog) (link provider dependent : String)
    (k : Connection) : Prop :=
  ∃ rule, c.Connects catalog k rule ∧ rule.link = link ∧ link ≠ "" ∧
    rule.ends k = (provider, dependent)

/-- Some connection gives the name of the provider to a link of the other end. -/
def Gives (c : Canvas) (catalog : Catalog) (link provider dependent : String) : Prop :=
  ∃ k, c.GivesThrough catalog link provider dependent k

theorem GivesThrough.eq_or_eq (h : c.GivesThrough catalog link provider dependent k) :
    k = ⟨provider, dependent⟩ ∨ k = ⟨dependent, provider⟩ := by
  obtain ⟨rule, _, _, _, hends⟩ := h
  exact rule.eq_of_ends hends

theorem GivesThrough.ne (h : c.GivesThrough catalog link provider dependent k) :
    provider ≠ dependent := by
  obtain ⟨rule, hk, _, _, hends⟩ := h
  obtain rfl | rfl := rule.eq_of_ends hends
  · exact hk.ne
  · exact hk.ne.symm

theorem Gives.iff : c.Gives catalog link provider dependent ↔
    c.GivesThrough catalog link provider dependent ⟨provider, dependent⟩ ∨
      c.GivesThrough catalog link provider dependent ⟨dependent, provider⟩ := by
  constructor
  · rintro ⟨k, hk⟩
    obtain rfl | rfl := hk.eq_or_eq
    · exact .inl hk
    · exact .inr hk
  · rintro (hk | hk)
    · exact ⟨_, hk⟩
    · exact ⟨_, hk⟩

/-- The rules give the link to the category of the end that receives the name. -/
theorem GivesThrough.mem_linkNames (h : c.GivesThrough catalog link provider dependent k) :
    ∃ l, c.componentAt? catalog dependent = some l ∧
      link ∈ catalog.linkNames l.template.category.name := by
  obtain ⟨rule, hk, rfl, hlink, hends⟩ := h
  obtain ⟨source, target, hs, ht, hr⟩ := hk.allowed
  obtain ⟨hsource, htarget⟩ := Catalog.rule?_ends hr
  have hmem : ∀ {name}, rule.dependent = name → rule.link ∈ catalog.linkNames name :=
    fun hname => Catalog.mem_linkNames.mpr
      ⟨hlink, rule, List.mem_of_find?_eq_some hr, hname, rfl⟩
  rw [Rule.ends] at hends
  split at hends
  · rename_i horder
    cases hends
    exact ⟨source, hs, hmem (by rw [Rule.dependent, if_pos horder, hsource])⟩
  · rename_i horder
    cases hends
    exact ⟨target, ht, hmem (by rw [Rule.dependent, if_neg horder, htarget])⟩

/-! ### Connections that can be used -/

theorem ends_of_mem_usableConnections (hks : c.components catalog = .ok (ks, fs))
    {u : UsableConnection} (hu : u ∈ usableConnections catalog ks c.connections) :
    u.rule.ends u.connection = (u.provider.id, u.dependent.id) := by
  obtain ⟨_, hs, ht⟩ := mem_usableConnections hks hu
  rw [Rule.ends, UsableConnection.provider, UsableConnection.dependent]
  split
  · rw [componentAt?_id hs, componentAt?_id ht]
  · rw [componentAt?_id hs, componentAt?_id ht]

/-- The connections through which a name is given are those of the usable
connections that give it. -/
theorem givesThrough_iff (hks : c.components catalog = .ok (ks, fs)) :
    c.GivesThrough catalog link provider dependent k ↔
      link ≠ "" ∧ ∃ u ∈ usableConnections catalog ks c.connections, u.connection = k ∧
        u.rule.link = link ∧ u.provider.id = provider ∧ u.dependent.id = dependent := by
  constructor
  · rintro ⟨rule, hk, rfl, hlink, hends⟩
    obtain ⟨u, hu, rfl, rfl⟩ := exists_mem_usableConnections hks hk
    rw [ends_of_mem_usableConnections hks hu] at hends
    obtain ⟨rfl, rfl⟩ := Prod.mk.inj hends
    exact ⟨hlink, u, hu, rfl, rfl, rfl, rfl⟩
  · rintro ⟨hlink, u, hu, rfl, rfl, rfl, rfl⟩
    exact ⟨u.rule, (mem_usableConnections hks hu).1, rfl, hlink,
      ends_of_mem_usableConnections hks hu⟩

/-! ### Names -/

section

open scoped Classical

/-- The connections through which a component gives its name to a link of
another one: at most one each way. -/
noncomputable def givings (c : Canvas) (catalog : Catalog) (link provider dependent : String) :
    List Connection :=
  [⟨provider, dependent⟩, ⟨dependent, provider⟩].filter
    fun k => c.GivesThrough catalog link provider dependent k

theorem mem_givings : k ∈ c.givings catalog link provider dependent ↔
    c.GivesThrough catalog link provider dependent k := by
  rw [givings, List.mem_filter, decide_eq_true_iff, List.mem_cons, List.mem_singleton,
    and_iff_right_iff_imp]
  exact GivesThrough.eq_or_eq

theorem nodup_givings : (c.givings catalog link provider dependent).Nodup := by
  by_cases hne : provider = dependent
  · have hnil : c.givings catalog link provider dependent = [] :=
      List.eq_nil_iff_forall_not_mem.mpr fun k hk => (mem_givings.mp hk).ne hne
    rw [hnil]
    exact List.nodup_nil
  · refine List.Nodup.filter _ (List.nodup_cons.mpr ⟨?_, List.nodup_singleton _⟩)
    rw [List.mem_singleton]
    intro heq
    exact hne (Connection.mk.inj heq).1

theorem length_givings : (c.givings catalog link provider dependent).length =
    (if c.GivesThrough catalog link provider dependent ⟨provider, dependent⟩ then 1 else 0) +
      if c.GivesThrough catalog link provider dependent ⟨dependent, provider⟩ then 1 else 0 := by
  simp only [givings, List.filter_cons, decide_eq_true_eq, List.filter_nil]
  split <;> split <;> rfl

/-- **Connections give a name at most once each way.** -/
theorem perm_givings (hks : c.components catalog = .ok (ks, fs)) (hlink : link ≠ "") :
    (((usableConnections catalog ks c.connections).filter fun u =>
        u.rule.link == link && u.dependent.id == dependent && u.provider.id == provider).map
      (·.connection)).Perm (c.givings catalog link provider dependent) := by
  refine (List.perm_ext_iff_of_nodup ?_ nodup_givings).mpr fun k => ?_
  · exact (nodup_connections_usableConnections catalog ks c.connections).sublist
      (List.filter_sublist.map _)
  · rw [mem_givings, givesThrough_iff hks, and_iff_right hlink, List.mem_map]
    simp only [List.mem_filter, Bool.and_eq_true, beq_iff_eq]
    constructor
    · rintro ⟨u, ⟨hu, ⟨hl, hd⟩, hp⟩, hk⟩
      exact ⟨u, hu, hk, hl, hp, hd⟩
    · rintro ⟨u, hu, hk, hl, hp, hd⟩
      exact ⟨u, ⟨hu, ⟨hl, hd⟩, hp⟩, hk⟩

theorem linkedNames_eq (hks : c.components catalog = .ok (ks, fs)) (hlink : link ≠ "")
    (k : Component) :
    linkedNames ks (usableConnections catalog ks c.connections) k link =
      ks.flatMap fun p => (c.givings catalog link p.id k.id).map fun _ => p.displayName := by
  rw [linkedNames]
  refine List.flatMap_congr fun p _ => ?_
  rw [List.map_const', List.map_const', ← (perm_givings hks hlink).length_eq, List.length_map]

/-- **A link holds the name of each provider**, in the order of the canvas, as
often as it is given. -/
theorem linked_entryOf (hks : c.components catalog = .ok (ks, fs)) (k : Component)
    (link : String) :
    (entryOf ks (usableConnections catalog ks c.connections) k).linked link =
      ks.flatMap fun p => (c.givings catalog link p.id k.id).map fun _ => p.displayName := by
  rw [Entry.linked, entryOf, lookup_map_self]
  split
  · rename_i hmem
    obtain ⟨u, hu, rfl⟩ := List.mem_map.mp (Text.mem_sortedDistinct.mp hmem)
    have hgives := (List.mem_filter.mp hu).2
    rw [Bool.and_eq_true] at hgives
    exact linkedNames_eq hks (by simpa using hgives.1) k
  · rename_i hmem
    rw [Option.getD_none, eq_comm, List.flatMap_eq_nil_iff]
    intro p _
    rw [List.map_eq_nil_iff, List.eq_nil_iff_forall_not_mem]
    intro k' hk'
    obtain ⟨hlink, u, hu, -, rfl, -, hdependent⟩ := (givesThrough_iff hks).mp (mem_givings.mp hk')
    refine hmem (Text.mem_sortedDistinct.mpr (List.mem_map.mpr ⟨u, ?_, rfl⟩))
    exact List.mem_filter.mpr ⟨hu, by simp [hlink, hdependent]⟩

theorem linked_of_arrange (h : c.arrange catalog = .ok (.ok a)) (he : e ∈ a.entries) :
    ∃ ks fs, c.components catalog = .ok (ks, fs) ∧ e.component ∈ ks ∧ ∀ link,
      e.linked link =
        ks.flatMap fun p => (c.givings catalog link p.id e.id).map fun _ => p.displayName := by
  obtain ⟨ks, fs, us, hks, rfl, _, _, _, hblocks⟩ := blocks_of_arrange h
  obtain ⟨s, hs, hes⟩ := List.mem_flatMap.mp he
  obtain ⟨k, hk, rfl⟩ := List.mem_map.mp (((hblocks s hs).mem_iff e).mp hes).1
  exact ⟨ks, fs, hks, hk, linked_entryOf hks k⟩

/-- **A link holds names only if the template receives it.** -/
theorem linked_eq_nil (hlinks : ∀ t ∈ catalog.templates,
    t.links = catalog.linkNames t.category.name) (h : c.arrange catalog = .ok (.ok a))
    (he : e ∈ a.entries) {l : String} (hl : l ∉ e.component.template.links) :
    e.linked l = [] := by
  obtain ⟨ks, fs, hks, hmem, hlinked⟩ := linked_of_arrange h he
  rw [hlinked, List.flatMap_eq_nil_iff]
  intro p _
  rw [List.map_eq_nil_iff, List.eq_nil_iff_forall_not_mem]
  intro k hk
  obtain ⟨d, hd, hlink⟩ := (mem_givings.mp hk).mem_linkNames
  -- The end with the id of the entry is the component of the entry.
  rw [Entry.id, (mem_components hks).mp hmem] at hd
  obtain rfl := Option.some.inj hd
  exact hl (hlinks _ (template_mem_of_mem_components hks hmem) ▸ hlink)

/-- Each provider is named once exactly if none gives its name both ways. -/
theorem flatMap_givings_eq_iff :
    (ks.flatMap fun p => (c.givings catalog link p.id dependent).map fun _ => p.displayName) =
        (ks.filter fun p => c.Gives catalog link p.id dependent).map (·.displayName) ↔
      ∀ p ∈ ks, ¬ (c.GivesThrough catalog link p.id dependent ⟨p.id, dependent⟩ ∧
        c.GivesThrough catalog link p.id dependent ⟨dependent, p.id⟩) := by
  have honce : (ks.filter fun p => c.Gives catalog link p.id dependent).map (·.displayName) =
      ks.flatMap fun p => if c.Gives catalog link p.id dependent then [p.displayName] else [] := by
    induction ks with
    | nil => rfl
    | cons p ks ih =>
      rw [List.filter_cons, List.flatMap_cons, ← ih]
      by_cases hp : c.Gives catalog link p.id dependent <;> simp [hp]
  rw [honce]
  constructor
  · -- A provider that is named twice makes the list longer.
    rintro heq p hp ⟨halong, hagainst⟩
    have hlength := congrArg List.length heq
    rw [List.length_flatMap, List.length_flatMap] at hlength
    refine absurd hlength (Nat.ne_of_gt (List.sum_lt_sum _ _ (fun q _ => ?_) ⟨p, hp, ?_⟩))
    · rw [List.length_map, length_givings, Gives.iff]
      split_ifs <;> simp_all
    · rw [List.length_map, length_givings, Gives.iff, if_pos halong, if_pos hagainst,
        if_pos (.inl halong)]
      exact Nat.lt_succ_self 1
  · intro hone
    refine List.flatMap_congr fun p hp => ?_
    rw [List.map_const', length_givings, Gives.iff]
    have := hone p hp
    split_ifs <;> simp_all

/-- **Links name their providers.**  With a catalog that was built, a link of an
entry holds names only if the template receives it.  It holds the name of each
component that gives it, in the order of the canvas: once for a connection from
there to the entry, and once more for a connection back, if the rules of both have
the link.  So each provider is named just once exactly if none is joined with the
entry both ways. -/
theorem links_name_providers {files : List (String × Definitions)}
    (hbuild : Catalog.build files = .ok catalog) (h : c.arrange catalog = .ok (.ok a))
    (he : e ∈ a.entries) (link : String) :
    (e.linked link ≠ [] → link ∈ e.component.template.links) ∧
    ∃ ks fs, c.components catalog = .ok (ks, fs) ∧
      (e.linked link =
        ks.flatMap fun p => (c.givings catalog link p.id e.id).map fun _ => p.displayName) ∧
      (e.linked link =
          (ks.filter fun p => c.Gives catalog link p.id e.id).map (·.displayName) ↔
        ∀ p ∈ ks, ¬ (c.GivesThrough catalog link p.id e.id ⟨p.id, e.id⟩ ∧
          c.GivesThrough catalog link p.id e.id ⟨e.id, p.id⟩)) := by
  have hmade := Catalog.made_of_build hbuild
  obtain ⟨ks, fs, hks, _, hlinked⟩ := linked_of_arrange h he
  refine ⟨fun hsome => ?_, ks, fs, hks, hlinked link, ?_⟩
  · by_contra hlink
    exact hsome (linked_eq_nil (fun t ht => hmade.links_eq ht) h he hlink)
  · rw [hlinked]
    exact flatMap_givings_eq_iff

end

end Canvas

/-! ### Events and functions -/

/-- Functions that list the events they are connected with, whichever way the
connection is drawn. -/
def Catalog.eventFiles : List (String × Definitions) :=
  let name : PropertyDefinition := ⟨"name", .string, true, none, "identifier", [], ""⟩
  [("events", {
    categories := [
      ⟨"event", "events", "members", true, "name", false, false⟩,
      ⟨"function", "functions", "members", true, "name", false, false⟩]
    rules := [
      ⟨"event", "function", "forward", "events", ""⟩,
      ⟨"function", "event", "reverse", "events", ""⟩]
    templates := [sampleTemplate "event" [name], sampleTemplate "function" [name]] })]

/-- The catalog of these definitions. -/
def Catalog.events : Catalog := ((build eventFiles).toOption).getD {}

/-- A function with two events, connected one way and the other. -/
def Canvas.moving : Canvas where
  instances := [
    ⟨"p", "event", [("name", .string "Paused")]⟩,
    ⟨"m", "event", [("name", .string "Moved")]⟩,
    ⟨"f", "function", [("name", .string "move")]⟩]
  connections := [⟨"f", "m"⟩, ⟨"p", "f"⟩]

theorem Canvas.moving_names_events : ∃ a, moving.arrange .events = .ok (.ok a) ∧
    ∃ e ∈ a.entries, e.linked "events" = ["Paused", "Moved"] ∧
      "events" ∈ e.component.template.links := by
  have hbuild : Catalog.build Catalog.eventFiles = .ok .events := rfl
  obtain ⟨a, ha, hlinked⟩ : ∃ a, moving.arrange .events = .ok (.ok a) ∧
      a.entries.map (·.linked "events") = [[], [], ["Paused", "Moved"]] :=
    ⟨_, rfl, by decide⟩
  have hmem : ["Paused", "Moved"] ∈ a.entries.map (·.linked "events") := by simp [hlinked]
  obtain ⟨e, he, hlinked⟩ := List.mem_map.mp hmem
  refine ⟨a, ha, e, he, hlinked, (links_name_providers hbuild ha he "events").1 ?_⟩
  rw [hlinked]
  exact List.cons_ne_nil _ _

/-- The function, connected with one event both ways. -/
def Canvas.movingTwice : Canvas :=
  { moving with connections := [⟨"m", "f"⟩, ⟨"f", "m"⟩] }

open scoped Classical in
/-- An event that is connected both ways is named twice. -/
theorem Canvas.moved_is_named_twice :
    Catalog.build Catalog.eventFiles = .ok .events ∧
    ∃ a ks fs, movingTwice.arrange .events = .ok (.ok a) ∧
      movingTwice.components .events = .ok (ks, fs) ∧
      (∃ e ∈ a.entries, e.id = "f" ∧ e.linked "events" = ["Moved", "Moved"]) ∧
      (ks.filter fun p => movingTwice.Gives .events "events" p.id "f").map (·.displayName) =
        ["Moved"] := by
  obtain ⟨a, ha, hlinked⟩ : ∃ a, movingTwice.arrange .events = .ok (.ok a) ∧
      a.entries.map (fun e => (e.id, e.linked "events")) =
        [("p", []), ("m", []), ("f", ["Moved", "Moved"])] := ⟨_, rfl, by decide⟩
  obtain ⟨p, m, f, fs, hks, hids, hname⟩ : ∃ p m f fs,
      movingTwice.components .events = .ok ([p, m, f], fs) ∧
      [p, m, f].map (·.id) = ["p", "m", "f"] ∧ m.displayName = "Moved" :=
    ⟨_, _, _, _, rfl, rfl, rfl⟩
  have hmem : ("f", ["Moved", "Moved"]) ∈ a.entries.map fun e => (e.id, e.linked "events") := by
    simp [hlinked]
  obtain ⟨e, he, heq⟩ := List.mem_map.mp hmem
  obtain ⟨hid, hlinked⟩ := Prod.mk.inj heq
  -- Of the three components only the event is connected with the function.
  have hgives : ∀ id, movingTwice.Gives .events "events" id "f" ↔ id = "m" := by
    intro id
    rw [Gives.iff]
    constructor
    · rintro (⟨_, hk, _⟩ | ⟨_, hk, _⟩)
      · simpa [movingTwice] using hk.mem
      · simpa [movingTwice] using hk.mem
    · rintro rfl
      exact .inl ⟨⟨"event", "function", .forward, "events", ""⟩,
        ⟨by simp [movingTwice], by decide, _, _, rfl, rfl, rfl⟩, rfl, by decide, rfl⟩
  obtain ⟨hp, hm, hf⟩ : p.id = "p" ∧ m.id = "m" ∧ f.id = "f" := by simpa using hids
  refine ⟨rfl, a, _, fs, ha, hks, ⟨e, he, hid, hlinked⟩, ?_⟩
  simp [hgives, hp, hm, hf, hname]

end SolidityCanvas
