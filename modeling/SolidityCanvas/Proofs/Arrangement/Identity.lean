/-
Arrangements of canvases whose instances have other ids.

Components come in the order of the canvas where nothing else decides, and what has
to come before what does not depend on their ids.  A link shows the id of a component
that has no name; where all of them have one (`Canvas.LinksNamed`), ids are shown
nowhere.

* `Canvas.precedes_rename_iff`: the constraints are those of the canvas;
* `Canvas.entryOf_rename`: components have the links they had;
* `Canvas.arrange_rename`: so the arrangement is the one it was, under other ids.
-/
import SolidityCanvas.Proofs.Arrangement.Redrawn
import SolidityCanvas.Proofs.Canvas.Renaming

namespace SolidityCanvas

open Relation

variable (σ : String → String)

/-- The connection between components with other ids. -/
def UsableConnection.rename (u : UsableConnection) : UsableConnection :=
  ⟨u.connection.rename σ, u.source.rename σ, u.target.rename σ, u.rule⟩

/-- The entry of a component with another id.  Its links stay as they are. -/
def Entry.rename (e : Entry) : Entry := { e with component := e.component.rename σ }

/-- The arrangement of components with other ids. -/
def Arrangement.rename (a : Arrangement) : Arrangement :=
  ⟨a.sections.map fun s => (s.1, s.2.map (·.rename σ))⟩

namespace UsableConnection

variable {σ}

@[simp] theorem rename_rule (u : UsableConnection) : (u.rename σ).rule = u.rule := rfl

@[simp] theorem dependent_rename (u : UsableConnection) :
    (u.rename σ).dependent = u.dependent.rename σ := by
  rw [dependent, dependent, rename_rule, apply_ite (Component.rename σ)]
  rfl

@[simp] theorem provider_rename (u : UsableConnection) :
    (u.rename σ).provider = u.provider.rename σ := by
  rw [provider, provider, rename_rule, apply_ite (Component.rename σ)]
  rfl

end UsableConnection

namespace Canvas

variable {σ} {c : Canvas} {catalog : Catalog} {ks : List Component} {fs : List Diagnostic}

/-- Components that give their names to a link have one. -/
def LinksNamed (c : Canvas) (catalog : Catalog) : Prop :=
  ∀ ks fs, c.components catalog = .ok (ks, fs) →
    ∀ u ∈ usableConnections catalog ks c.connections, u.rule.link ≠ "" → u.provider.name ≠ ""

theorem Connects.mem_ids {k : Connection} {rule : Rule} (h : c.Connects catalog k rule) :
    k.source ∈ c.ids ∧ k.target ∈ c.ids := by
  obtain ⟨source, target, hs, ht, _⟩ := h.allowed
  exact ⟨List.mem_map.mp (mem_ids_of_componentAt? hs), List.mem_map.mp (mem_ids_of_componentAt? ht)⟩

/-- Connections are usable by one rule. -/
theorem Connects.rule_eq {k : Connection} {rule rule' : Rule} (h : c.Connects catalog k rule)
    (h' : c.Connects catalog k rule') : rule = rule' := by
  obtain ⟨source, target, hs, ht, hr⟩ := h.allowed
  obtain ⟨source', target', hs', ht', hr'⟩ := h'.allowed
  obtain rfl := Option.some.inj (hs.symm.trans hs')
  obtain rfl := Option.some.inj (ht.symm.trans ht')
  exact Option.some.inj (hr.symm.trans hr')

section renamed

variable (hσ : Set.InjOn σ c.ids)

include hσ

/-! ### Constraints -/

theorem Connects.rename {k : Connection} {rule : Rule} (h : c.Connects catalog k rule) :
    (c.rename σ).Connects catalog (k.rename σ) rule := by
  obtain ⟨hsource, htarget⟩ := h.mem_ids
  obtain ⟨source, target, hs, ht, hr⟩ := h.allowed
  refine ⟨List.mem_map_of_mem h.mem, fun heq => h.ne (hσ hsource htarget heq),
    source.rename σ, target.rename σ, ?_, ?_, hr⟩
  · exact (componentAt?_rename hσ hsource).trans (by rw [hs]; rfl)
  · exact (componentAt?_rename hσ htarget).trans (by rw [ht]; rfl)

/-- The first component to declare a type is the one it was. -/
theorem firstDeclares_rename (hks : c.components catalog = .ok (ks, fs)) {x name : String} :
    (c.rename σ).FirstDeclares catalog x name ↔
      ∃ p, c.FirstDeclares catalog p name ∧ σ p = x := by
  obtain ⟨fs', hks'⟩ := components_rename hσ hks
  have hdeclarer : typeDeclarer? (ks.map (·.rename σ)) name =
      (typeDeclarer? ks name).map σ := by
    rw [typeDeclarer?, typeDeclarer?, List.find?_map, Option.map_map, Option.map_map]
    rfl
  rw [← typeDeclarer?_eq_some hks', hdeclarer, Option.map_eq_some_iff]
  simp only [typeDeclarer?_eq_some hks]

variable (hconnected : ∀ k ∈ c.connections, ∃ rule, c.Connects catalog k rule)

include hconnected

/-- **What has to come before what is what it was.** -/
theorem precedes_rename (hks : c.components catalog = .ok (ks, fs)) {x y : String} :
    (c.rename σ).Precedes catalog x y ↔ ∃ a b, c.Precedes catalog a b ∧ σ a = x ∧ σ b = y := by
  have hfrom : ∀ {k' : Connection} {rule : Rule}, (c.rename σ).Connects catalog k' rule →
      ∃ k, c.Connects catalog k rule ∧ k.rename σ = k' := by
    intro k' rule h
    obtain ⟨k, hk, rfl⟩ := List.mem_map.mp h.mem
    obtain ⟨rule', h'⟩ := hconnected k hk
    exact ⟨k, (h'.rename hσ).rule_eq h ▸ h', rfl⟩
  constructor
  · intro h
    cases h with
    | forward h ho =>
      obtain ⟨k, hk, rfl⟩ := hfrom h
      exact ⟨_, _, .forward hk ho, rfl, rfl⟩
    | reverse h ho =>
      obtain ⟨k, hk, rfl⟩ := hfrom h
      exact ⟨_, _, .reverse hk ho, rfl, rfl⟩
    | mention hk hm hp hne =>
      obtain ⟨a, ha, rfl⟩ := mem_ids_rename.mp (List.mem_map.mp (mem_ids_of_componentAt? hk))
      obtain ⟨p, hfirst, rfl⟩ := (firstDeclares_rename hσ hks).mp hp
      rw [componentAt?_rename hσ ha, Option.map_eq_some_iff] at hk
      obtain ⟨k, hk, rfl⟩ := hk
      exact ⟨p, a, .mention hk hm hfirst fun heq => hne (congrArg σ heq), rfl, rfl⟩
  · rintro ⟨a, b, h, rfl, rfl⟩
    obtain ⟨ha, hb⟩ := h.mem_instances
    cases h with
    | forward hk ho => exact .forward (hk.rename hσ) ho
    | reverse hk ho => exact .reverse (hk.rename hσ) ho
    | mention hk hm hp hne =>
      rename_i name k
      have hk' : (c.rename σ).componentAt? catalog (σ b) = some (k.rename σ) := by
        rw [componentAt?_rename hσ hb, hk, Option.map_some]
      exact .mention hk' hm ((firstDeclares_rename hσ hks).mpr ⟨a, hp, rfl⟩)
        fun heq => hne (hσ ha hb heq)

theorem precedes_rename_iff (hks : c.components catalog = .ok (ks, fs)) {a b : String}
    (ha : a ∈ c.ids) (hb : b ∈ c.ids) :
    (c.rename σ).Precedes catalog (σ a) (σ b) ↔ c.Precedes catalog a b := by
  rw [precedes_rename hσ hconnected hks]
  constructor
  · rintro ⟨a', b', h, haa, hbb⟩
    obtain ⟨ha', hb'⟩ := h.mem_instances
    rwa [← hσ ha' ha haa, ← hσ hb' hb hbb]
  · exact fun h => ⟨a, b, h, rfl, rfl⟩

/-- Nothing comes before itself that did not. -/
theorem unentangled_rename (hks : c.components catalog = .ok (ks, fs))
    (h : c.Unentangled catalog) : (c.rename σ).Unentangled catalog := by
  have hpath : ∀ {x y : String}, TransGen ((c.rename σ).Precedes catalog) x y →
      ∃ a ∈ c.ids, ∃ b ∈ c.ids, TransGen (c.Precedes catalog) a b ∧ σ a = x ∧ σ b = y := by
    intro x y hxy
    induction hxy with
    | single hstep =>
      obtain ⟨a, b, hab, rfl, rfl⟩ := (precedes_rename hσ hconnected hks).mp hstep
      exact ⟨a, hab.mem_instances.1, b, hab.mem_instances.2, .single hab, rfl, rfl⟩
    | tail _ hstep ih =>
      obtain ⟨a, ha, b, hb, hab, rfl, rfl⟩ := ih
      obtain ⟨b', d, hbd, heq, rfl⟩ := (precedes_rename hσ hconnected hks).mp hstep
      obtain rfl := hσ hbd.mem_instances.1 hb heq
      exact ⟨a, ha, d, hbd.mem_instances.2, hab.tail hbd, rfl, rfl⟩
  intro x hx
  obtain ⟨a, ha, b, hb, hab, rfl, heq⟩ := hpath hx
  obtain rfl := hσ hb ha heq
  exact h _ hab

theorem respectsSections_rename (hks : c.components catalog = .ok (ks, fs))
    (h : c.RespectsSections catalog) : (c.rename σ).RespectsSections catalog := by
  intro x y k' l' hxy hk hl
  obtain ⟨a, b, hab, rfl, rfl⟩ := (precedes_rename hσ hconnected hks).mp hxy
  obtain ⟨ha, hb⟩ := hab.mem_instances
  rw [componentAt?_rename hσ ha, Option.map_eq_some_iff] at hk
  rw [componentAt?_rename hσ hb, Option.map_eq_some_iff] at hl
  obtain ⟨k, hk, rfl⟩ := hk
  obtain ⟨l, hl, rfl⟩ := hl
  have hrank := h hab hk hl
  exact hrank

/-! ### Links -/

/-- **The same connections can be used.** -/
theorem usableConnections_rename (hks : c.components catalog = .ok (ks, fs)) :
    (usableConnections catalog (ks.map (·.rename σ)) (c.rename σ).connections).Perm
      ((usableConnections catalog ks c.connections).map (·.rename σ)) := by
  obtain ⟨fs', hks'⟩ := components_rename hσ hks
  have husable : ∀ k ∈ c.connections.eraseDups,
      usable? catalog (ks.map (·.rename σ)) (k.rename σ) =
        (usable? catalog ks k).map (·.rename σ) := by
    intro k hk
    obtain ⟨rule, h⟩ := hconnected k (List.mem_eraseDups.mp hk)
    obtain ⟨source, target, hs, ht, hr⟩ := h.allowed
    have hu : usable? catalog ks k = some ⟨k, source, target, rule⟩ :=
      (usable?_eq_some hks).mpr ⟨h.ne, rfl, hs, ht, hr⟩
    obtain ⟨hsource, htarget⟩ := h.mem_ids
    rw [hu]
    refine (usable?_eq_some hks').mpr ⟨(h.rename hσ).ne, rfl, ?_, ?_, hr⟩
    · exact (componentAt?_rename hσ hsource).trans (by rw [hs]; rfl)
    · exact (componentAt?_rename hσ htarget).trans (by rw [ht]; rfl)
  have hinj : ∀ k ∈ c.connections, ∀ l ∈ c.connections, k.rename σ = l.rename σ → k = l := by
    intro k hk l hl heq
    obtain ⟨_, hk⟩ := hconnected k hk
    obtain ⟨_, hl⟩ := hconnected l hl
    obtain ⟨hsource, htarget⟩ := Connection.mk.inj heq
    obtain ⟨source, target⟩ := k
    obtain rfl := hσ hk.mem_ids.1 hl.mem_ids.1 hsource
    obtain rfl := hσ hk.mem_ids.2 hl.mem_ids.2 htarget
    rfl
  have hdistinct : (c.connections.map (·.rename σ)).eraseDups.Perm
      (c.connections.eraseDups.map (·.rename σ)) := by
    have hnd : (c.connections.eraseDups.map (·.rename σ)).Nodup :=
      (Graph.nodup_eraseDups _).map_on fun k hk l hl =>
        hinj k (List.mem_eraseDups.mp hk) l (List.mem_eraseDups.mp hl)
    refine (List.perm_ext_iff_of_nodup (Graph.nodup_eraseDups _) hnd).mpr fun k => ?_
    simp only [List.mem_eraseDups, List.mem_map]
  rw [usableConnections, usableConnections, List.map_filterMap]
  refine (hdistinct.filterMap _).trans (.of_eq ?_)
  rw [List.filterMap_map]
  exact List.filterMap_congr husable

end renamed

/-- The ends of a connection that can be used are components. -/
theorem mem_components_of_mem_usableConnections (hks : c.components catalog = .ok (ks, fs))
    {u : UsableConnection} (hu : u ∈ usableConnections catalog ks c.connections) :
    u.dependent ∈ ks ∧ u.provider ∈ ks := by
  obtain ⟨_, hs, ht⟩ := mem_usableConnections hks hu
  have hsource := mem_components_of_componentAt? hks hs
  have htarget := mem_components_of_componentAt? hks ht
  rw [UsableConnection.dependent, UsableConnection.provider]
  split
  · exact ⟨hsource, htarget⟩
  · exact ⟨htarget, hsource⟩

/-- **A component has the links it had**, if whoever gives its name has one. -/
theorem entryOf_rename (hσ : Set.InjOn σ c.ids) (hks : c.components catalog = .ok (ks, fs))
    (hnamed : c.LinksNamed catalog) {k : Component} (hk : k ∈ ks) :
    entryOf (ks.map (·.rename σ)) ((usableConnections catalog ks c.connections).map (·.rename σ))
      (k.rename σ) = (entryOf ks (usableConnections catalog ks c.connections) k).rename σ := by
  have hmem : ∀ l ∈ ks, l.id ∈ c.ids := fun l hl => (exists_mem_components_iff hks).mp ⟨l, hl, rfl⟩
  have hnames := hnamed ks fs hks
  have hends := fun u => mem_components_of_mem_usableConnections (u := u) hks
  generalize usableConnections catalog ks c.connections = us at hnames hends
  have hsame : ∀ l ∈ ks, ∀ m ∈ ks, (σ l.id == σ m.id) = (l.id == m.id) := by
    intro l hl m hm
    rw [Bool.eq_iff_iff, beq_iff_eq, beq_iff_eq]
    exact ⟨hσ (hmem l hl) (hmem m hm), congrArg σ⟩
  have hlinks : (us.filter fun u => !u.rule.link.isEmpty && σ u.dependent.id == σ k.id) =
      us.filter fun u => !u.rule.link.isEmpty && u.dependent.id == k.id :=
    List.filter_congr fun u hu => by rw [hsame _ (hends u hu).1 _ hk]
  have hlinked : ∀ link ≠ "", linkedNames (ks.map (·.rename σ)) (us.map (·.rename σ))
      (k.rename σ) link = linkedNames ks us k link := by
    intro link hlink
    rw [linkedNames, linkedNames, List.flatMap_map]
    refine List.flatMap_congr fun p hp => ?_
    rw [List.filter_map, List.map_map]
    have hfilter : us.filter ((fun u : UsableConnection => u.rule.link == link &&
        u.dependent.id == (k.rename σ).id && u.provider.id == (p.rename σ).id) ∘
          fun u => u.rename σ) =
        us.filter fun u => u.rule.link == link && u.dependent.id == k.id &&
          u.provider.id == p.id := by
      refine List.filter_congr fun u hu => ?_
      obtain ⟨hdependent, hprovider⟩ := hends u hu
      simp [hsame _ hdependent _ hk, hsame _ hprovider _ hp]
    rw [hfilter]
    refine List.map_congr_left fun u hu => ?_
    obtain ⟨hmem, hreceives⟩ := List.mem_filter.mp hu
    simp only [Bool.and_eq_true, beq_iff_eq] at hreceives
    obtain ⟨⟨rfl, _⟩, hid⟩ := hreceives
    -- The component with the id of the provider is the provider, which has a name.
    have hprovider := (mem_components hks).mp (hends u hmem).2
    rw [hid, (mem_components hks).mp hp, Option.some_inj] at hprovider
    exact Component.displayName_rename (hprovider ▸ hnames u hmem hlink)
  have hentry : ∀ link ∈ Text.sortedDistinct ((us.filter fun u =>
      !u.rule.link.isEmpty && u.dependent.id == k.id).map (·.rule.link)),
      (link, linkedNames (ks.map (·.rename σ)) (us.map (·.rename σ)) (k.rename σ) link) =
        (link, linkedNames ks us k link) := by
    intro link hmem
    obtain ⟨u, hu, rfl⟩ := List.mem_map.mp (Text.mem_sortedDistinct.mp hmem)
    have hreceives := (List.mem_filter.mp hu).2
    rw [Bool.and_eq_true] at hreceives
    rw [hlinked _ (by simpa using hreceives.1)]
  simp only [entryOf, Entry.rename, List.filter_map, List.map_map, Function.comp_def,
    UsableConnection.rename_rule, UsableConnection.dependent_rename, Component.rename_id, hlinks]
  rw [List.map_congr_left hentry]

/-- **The arrangement is the one it was**, under other ids. -/
theorem arrange_rename (hσ : Set.InjOn σ c.ids)
    (hconnected : ∀ k ∈ c.connections, ∃ rule, c.Connects catalog k rule)
    (hnamed : c.LinksNamed catalog) {a : Arrangement} (h : c.arrange catalog = .ok (.ok a)) :
    (c.rename σ).arrange catalog = .ok (.ok (a.rename σ)) := by
  obtain ⟨ks, fs, hks, ⟨hfree, hresp, sections, hr, hsections⟩ | ⟨_, _, hr⟩⟩ := arrange_eq_ok h
  case inr => cases hr
  obtain rfl := Except.ok.inj hr
  obtain ⟨fs', hks'⟩ := components_rename hσ hks
  obtain ⟨r', hr'⟩ := exists_arrange_of_components hks'
  obtain ⟨ks', _, hbound, ⟨_, _, sections', rfl, hsections'⟩ | ⟨hnot, _⟩⟩ := arrange_eq_ok hr'
  case inr =>
    exact absurd ⟨unentangled_rename hσ hconnected hks hfree,
      respectsSections_rename hσ hconnected hks hresp⟩ hnot
  obtain ⟨rfl, _⟩ := Prod.mk.inj (Except.ok.inj (hbound.symm.trans hks'))
  have hentries : (ks.map (·.rename σ)).map (entryOf (ks.map (·.rename σ))
      (usableConnections catalog (ks.map (·.rename σ)) (c.rename σ).connections)) =
        (ks.map (entryOf ks (usableConnections catalog ks c.connections))).map
          (·.rename σ) := by
    rw [List.map_map, List.map_map]
    refine List.map_congr_left fun k hk => ?_
    rw [Function.comp_apply, entryOf_perm (usableConnections_rename hσ hconnected hks)]
    exact entryOf_rename hσ hks hnamed hk
  rw [hentries] at hsections'
  have hids : ∀ id ∈ (ks.map (entryOf ks (usableConnections catalog ks c.connections))).map (·.id),
      id ∈ c.ids := by
    intro id hid
    rw [map_entryOf_id] at hid
    exact (exists_mem_components_iff hks).mp (List.mem_map.mp hid)
  have hnd := components_nodup hks
  rw [← map_entryOf_id ks (usableConnections catalog ks c.connections)] at hnd
  have hid : ∀ e ∈ ks.map (entryOf ks (usableConnections catalog ks c.connections)),
      (e.rename σ).id = σ e.id := fun _ _ => rfl
  have heq := mapM_sectionEntries_renamed hnd (hσ.mono hids) hid (fun _ _ => rfl)
    (fun a ha b hb => by
      rw [exists_mem_precedences_iff hks', exists_mem_precedences_iff hks]
      exact precedes_rename_iff hσ hconnected hks (hids a ha) (hids b hb))
    hsections hsections'
  rw [hr', heq]
  rfl

end Canvas

/-! ### What is arranged -/

namespace Arrangement

variable {σ}

theorem entries_rename (a : Arrangement) : (a.rename σ).entries = a.entries.map (·.rename σ) := by
  rw [entries, entries, rename, List.flatMap_map, List.map_flatMap]

theorem order_rename (a : Arrangement) : (a.rename σ).order = a.order.map σ := by
  rw [order, order, entries_rename, List.map_map, List.map_map]
  rfl

end Arrangement

end SolidityCanvas
