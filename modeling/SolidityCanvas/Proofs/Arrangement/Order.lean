/-
The order in which a canvas is written.

Inside a section the order comes from sorting a graph of its own, and between
sections it comes from nothing but the row of the sections.  Both together
respect every constraint of the canvas:

* `sectionEntries_eq_ok`: what a section holds, each constraint between two of
  its members respected;
* `idxOf_lt_of_blocks`: sections written one after another respect a
  constraint that does not lead back to an earlier section;
* `order_respects_precedence`: an arrangement lists every id of the canvas
  once, in its own section, and after everything that has to come before it.
-/
import SolidityCanvas.Proofs.Arrangement.Precedence
import SolidityCanvas.Proofs.Catalog.Build
import SolidityCanvas.Proofs.Graph.Sort

namespace SolidityCanvas

/-- The section of an entry. -/
def Entry.zone (e : Entry) : Section := e.component.template.category.zone

namespace Section

theorem mem_all (zone : Section) : zone ∈ all := by cases zone <;> decide

theorem all_pairwise : all.Pairwise fun zone later => zone.rank < later.rank := by decide

end Section

namespace Canvas

variable {entries : List Entry} {ps : List Precedence}

/-! ### One section -/

/-- What a section has to hold: the entries that belong there, each once, in
an order that respects the constraints between them. -/
structure Block (entries : List Entry) (ps : List Precedence) (zone : Section)
    (es : List Entry) : Prop where
  mem_iff : ∀ e, e ∈ es ↔ e ∈ entries ∧ e.zone = zone
  nodup : (es.map (·.id)).Nodup
  before : ∀ p ∈ ps, p.before ∈ es.map (·.id) → p.after ∈ es.map (·.id) →
    (es.map (·.id)).idxOf p.before < (es.map (·.id)).idxOf p.after

/-- The entries with some ids, in the order of the ids. -/
theorem map_id_filterMap_find? (hnd : (entries.map (·.id)).Nodup) {ids : List String}
    (h : ∀ id ∈ ids, id ∈ entries.map (·.id)) :
    (ids.filterMap fun id => entries.find? (·.id == id)).map (·.id) = ids := by
  induction ids with
  | nil => rfl
  | cons id rest ih =>
    obtain ⟨e, he, hid⟩ := List.mem_map.mp (h id List.mem_cons_self)
    have hfind : entries.find? (·.id == id) = some e := (find?_name_eq_some hnd).mpr ⟨he, hid⟩
    have hrest := ih fun other hother => h other (List.mem_cons_of_mem _ hother)
    rw [List.filterMap_cons, hfind, List.map_cons, hid, hrest]

/-- What a section is made of: a graph on its ids, in the order of the canvas, with
the constraints between them as its edges. -/
theorem exists_sort_of_sectionEntries (hnd : (entries.map (·.id)).Nodup) {zone : Section}
    {es : List Entry} (h : sectionEntries entries ps zone = .ok es) :
    ∃ (g : Graph) (order : List String), g.WellFormed ∧
      g.nodes = (entries.filter (·.component.template.category.zone == zone)).map (·.id) ∧
      (∀ a ∈ g.nodes, ∀ b ∈ g.nodes,
        (g.Edge a b ↔ ∃ p ∈ ps, p.before = a ∧ p.after = b)) ∧
      g.sort? g.addedBefore = some order ∧
      es = order.filterMap fun id =>
        (entries.filter (·.component.template.category.zone == zone)).find? (·.id == id) := by
  rw [sectionEntries] at h
  set own := entries.filter (·.component.template.category.zone == zone)
  have hown : (own.map (·.id)).Nodup := hnd.sublist (List.filter_sublist.map _)
  obtain ⟨g, hg, h⟩ := except_bind_eq_ok.mp h
  obtain ⟨hwf, hnodes, hedge⟩ :=
    addPrecedences_eq_ok _ hg (Graph.wellFormed_empty.foldl_addNode _)
  have hids : g.nodes = own.map (·.id) :=
    hnodes.trans (Graph.foldl_addNode_nodes _ (by simpa [Graph.empty] using hown))
  split at h
  · cases h
  rename_i order hsort
  refine ⟨g, order, hwf, hids, fun a ha b hb => ?_, hsort, (Except.ok.inj h).symm⟩
  have hempty : ¬((own.map (·.id)).foldl Graph.addNode Graph.empty).Edge a b := by
    rw [Graph.Edge, Graph.foldl_addNode_edges]
    exact List.not_mem_nil
  rw [hedge, or_iff_right hempty]
  constructor
  · rintro ⟨p, hp, rfl, rfl⟩
    exact ⟨p, (List.mem_filter.mp hp).1, rfl, rfl⟩
  · rintro ⟨p, hp, rfl, rfl⟩
    refine ⟨p, List.mem_filter.mpr ⟨hp, ?_⟩, rfl, rfl⟩
    rw [Bool.and_eq_true, List.contains_iff_mem, List.contains_iff_mem, ← hids]
    exact ⟨ha, hb⟩

/-- **What the entries of a section are.** -/
theorem sectionEntries_eq_ok (hnd : (entries.map (·.id)).Nodup) {zone : Section}
    {es : List Entry} (h : sectionEntries entries ps zone = .ok es) :
    Block entries ps zone es := by
  obtain ⟨g, order, hwf, hids, hedge, hsort, rfl⟩ := exists_sort_of_sectionEntries hnd h
  set own := entries.filter (·.component.template.category.zone == zone) with hown
  have hown_nd : (own.map (·.id)).Nodup := hnd.sublist (List.filter_sublist.map _)
  have hperm : order.Perm (own.map (·.id)) := hids ▸ Graph.sort?_perm hwf hsort
  have hmap : (order.filterMap fun id => own.find? (·.id == id)).map (·.id) = order :=
    map_id_filterMap_find? hown_nd fun id hid => hperm.mem_iff.mp hid
  refine ⟨fun e => ?_, ?_, fun p hp hb ha => ?_⟩
  · have hmem : e ∈ entries ∧ e.zone = zone ↔ e ∈ own := by
      rw [hown, List.mem_filter, beq_iff_eq]
      rfl
    rw [hmem, List.mem_filterMap]
    simp only [find?_name_eq_some hown_nd]
    constructor
    · rintro ⟨_, _, he, _⟩
      exact he
    · exact fun he => ⟨e.id, hperm.mem_iff.mpr (List.mem_map_of_mem he), he, rfl⟩
  · rw [hmap]
    exact hperm.nodup_iff.mpr hown_nd
  -- A constraint with both ends in the section is an edge of its graph.
  · rw [hmap] at hb ha ⊢
    have hnode : ∀ id ∈ order, id ∈ g.nodes := fun id hid => hids ▸ hperm.mem_iff.mp hid
    refine Graph.idxOf_lt_of_edge hwf hsort ?_
    exact (hedge _ (hnode _ hb) _ (hnode _ ha)).mpr ⟨p, hp, rfl, rfl⟩

/-! ### Section after section -/

/-- The sections come out in the order in which they were asked for. -/
theorem mapM_sectionEntries : ∀ {zones : List Section} {sections : List (Section × List Entry)},
    (zones.mapM fun zone => do
      let inOrder ← sectionEntries entries ps zone
      return (zone, inOrder)) = .ok sections →
    sections.map (·.1) = zones ∧ ∀ s ∈ sections, sectionEntries entries ps s.1 = .ok s.2 := by
  intro zones
  induction zones with
  | nil =>
    intro sections h
    obtain rfl := Except.ok.inj h
    exact ⟨rfl, fun s hs => absurd hs List.not_mem_nil⟩
  | cons zone zones ih =>
    intro sections h
    rw [List.mapM_cons] at h
    obtain ⟨s, hs, h⟩ := except_bind_eq_ok.mp h
    obtain ⟨es, hes, hs⟩ := except_bind_eq_ok.mp hs
    obtain ⟨rest, hrest, h⟩ := except_bind_eq_ok.mp h
    obtain rfl := Except.ok.inj hs
    obtain rfl := Except.ok.inj h
    obtain ⟨hzones, hall⟩ := ih hrest
    exact ⟨by rw [List.map_cons, hzones], List.forall_mem_cons.mpr ⟨hes, hall⟩⟩

theorem order_cons (s : Section × List Entry) (rest : List (Section × List Entry)) :
    (Arrangement.mk (s :: rest)).order = s.2.map (·.id) ++ (Arrangement.mk rest).order := by
  rw [Arrangement.order, Arrangement.entries, List.flatMap_cons, List.map_append]
  rfl

theorem mem_order {sections : List (Section × List Entry)} {id : String} :
    id ∈ (Arrangement.mk sections).order ↔ ∃ s ∈ sections, ∃ e ∈ s.2, e.id = id := by
  rw [Arrangement.order, Arrangement.entries, List.mem_map]
  constructor
  · rintro ⟨e, he, rfl⟩
    obtain ⟨s, hs, he⟩ := List.mem_flatMap.mp he
    exact ⟨s, hs, e, he, rfl⟩
  · rintro ⟨s, hs, e, he, rfl⟩
    exact ⟨e, List.mem_flatMap.mpr ⟨s, hs, he⟩, rfl⟩

/-- An id that is written in a later section is that of an entry of a later
section. -/
theorem exists_entry_of_mem_order {s : Section × List Entry}
    {rest : List (Section × List Entry)} (hlt : ∀ t ∈ rest, s.1.rank < t.1.rank)
    (hrest : ∀ t ∈ rest, Block entries ps t.1 t.2) {id : String}
    (h : id ∈ (Arrangement.mk rest).order) :
    ∃ e ∈ entries, e.id = id ∧ s.1.rank < e.zone.rank := by
  obtain ⟨t, ht, e, he, hid⟩ := mem_order.mp h
  obtain ⟨hmem, hzone⟩ := ((hrest t ht).mem_iff e).mp he
  exact ⟨e, hmem, hid, hzone ▸ hlt t ht⟩

theorem order_nodup_of_blocks (hnd : (entries.map (·.id)).Nodup) :
    ∀ {sections : List (Section × List Entry)},
      sections.Pairwise (fun s t => s.1.rank < t.1.rank) →
      (∀ s ∈ sections, Block entries ps s.1 s.2) → (Arrangement.mk sections).order.Nodup := by
  intro sections
  induction sections with
  | nil => exact fun _ _ => List.nodup_nil
  | cons s rest ih =>
    intro hpair hall
    obtain ⟨hlt, hpair⟩ := List.pairwise_cons.mp hpair
    obtain ⟨hs, hall⟩ := List.forall_mem_cons.mp hall
    rw [order_cons, List.nodup_append]
    refine ⟨hs.nodup, ih hpair hall, fun id hid id' hid' heq => ?_⟩
    -- One id is that of one entry, which has one section only.
    obtain ⟨e, he, rfl⟩ := List.mem_map.mp hid
    obtain ⟨hmem, hzone⟩ := (hs.mem_iff e).mp he
    obtain ⟨f, hf, hid, hrank⟩ := exists_entry_of_mem_order hlt hall hid'
    obtain rfl := List.inj_on_of_nodup_map hnd hf hmem (hid.trans heq.symm)
    exact absurd hrank (hzone ▸ Nat.lt_irrefl _)

/-- **Sections written one after another respect a constraint** that does not
lead back to an earlier section. -/
theorem idxOf_lt_of_blocks {p : Precedence} (hp : p ∈ ps)
    (hrank : ∀ e ∈ entries, ∀ f ∈ entries, e.id = p.before → f.id = p.after →
      e.zone.rank ≤ f.zone.rank) :
    ∀ {sections : List (Section × List Entry)},
      sections.Pairwise (fun s t => s.1.rank < t.1.rank) →
      (∀ s ∈ sections, Block entries ps s.1 s.2) →
      p.before ∈ (Arrangement.mk sections).order → p.after ∈ (Arrangement.mk sections).order →
      (Arrangement.mk sections).order.idxOf p.before <
        (Arrangement.mk sections).order.idxOf p.after := by
  intro sections
  induction sections with
  | nil => exact fun _ _ hb => absurd hb List.not_mem_nil
  | cons s rest ih =>
    intro hpair hall hb ha
    obtain ⟨hlt, hpair⟩ := List.pairwise_cons.mp hpair
    obtain ⟨hs, hall⟩ := List.forall_mem_cons.mp hall
    rw [order_cons] at hb ha ⊢
    by_cases hbs : p.before ∈ s.2.map (·.id)
    · rw [List.idxOf_append_of_mem hbs]
      by_cases has : p.after ∈ s.2.map (·.id)
      · rw [List.idxOf_append_of_mem has]
        exact hs.before p hp hbs has
      · rw [List.idxOf_append_of_notMem has]
        exact Nat.lt_of_lt_of_le (List.idxOf_lt_length_iff.mpr hbs) (Nat.le_add_right _ _)
    · have hb := (List.mem_append.mp hb).resolve_left hbs
      by_cases has : p.after ∈ s.2.map (·.id)
      · -- The constraint would lead back to this section from a later one.
        obtain ⟨f, hf, hfid⟩ := List.mem_map.mp has
        obtain ⟨hfmem, hzone⟩ := (hs.mem_iff f).mp hf
        obtain ⟨e, he, heid, hrank'⟩ := exists_entry_of_mem_order hlt hall hb
        have hle := hrank e he f hfmem heid hfid
        rw [hzone] at hle
        exact absurd hrank' (Nat.not_lt.mpr hle)
      · rw [List.idxOf_append_of_notMem hbs, List.idxOf_append_of_notMem has]
        have ha := (List.mem_append.mp ha).resolve_left has
        exact Nat.add_lt_add_left (ih hpair hall hb ha) _

/-! ### The whole canvas -/

variable {c : Canvas} {catalog : Catalog}

theorem map_entryOf_id (ks : List Component) (us : List UsableConnection) :
    (ks.map (entryOf ks us)).map (·.id) = ks.map (·.id) := by
  rw [List.map_map]
  rfl

theorem Precedes.mem_instances {x y : String} (h : c.Precedes catalog x y) :
    (∃ i ∈ c.instances, i.id = x) ∧ ∃ i ∈ c.instances, i.id = y := by
  have hmem : ∀ {id : String} {k : Component}, c.componentAt? catalog id = some k →
      ∃ i ∈ c.instances, i.id = id := fun hk => List.mem_map.mp (mem_ids_of_componentAt? hk)
  cases h with
  | forward hk _ =>
    obtain ⟨_, _, hs, ht, _⟩ := hk.allowed
    exact ⟨hmem hs, hmem ht⟩
  | reverse hk _ =>
    obtain ⟨_, _, hs, ht, _⟩ := hk.allowed
    exact ⟨hmem ht, hmem hs⟩
  | mention hk _ hp _ =>
    obtain ⟨⟨_, hprovider, _⟩, _⟩ := hp
    exact ⟨hmem hprovider, hmem hk⟩

/-- What an arrangement is made of: a block for each section, in the order of
a contract. -/
theorem blocks_of_arrange {a : Arrangement} (h : c.arrange catalog = .ok (.ok a)) :
    ∃ ks fs us, c.components catalog = .ok (ks, fs) ∧
      us = usableConnections catalog ks c.connections ∧
      c.Unentangled catalog ∧ c.RespectsSections catalog ∧
      a.sections.map (·.1) = Section.all ∧
      ∀ s ∈ a.sections, Block (ks.map (entryOf ks us)) (precedences ks us) s.1 s.2 := by
  obtain ⟨ks, fs, hks, ⟨hfree, hresp, sections, hr, hsections⟩ | ⟨_, _, hr⟩⟩ := arrange_eq_ok h
  case inr => cases hr
  obtain rfl := Except.ok.inj hr
  obtain ⟨hzones, hok⟩ := mapM_sectionEntries hsections
  refine ⟨ks, fs, _, hks, rfl, hfree, hresp, hzones, fun s hs => sectionEntries_eq_ok ?_ (hok s hs)⟩
  rw [map_entryOf_id]
  exact components_nodup hks

/-- The ids that are written are those of the canvas. -/
theorem mem_order_iff_of_blocks {ks : List Component} {fs : List Diagnostic}
    {us : List UsableConnection} {a : Arrangement} (hks : c.components catalog = .ok (ks, fs))
    (hzones : a.sections.map (·.1) = Section.all)
    (hblocks : ∀ s ∈ a.sections, Block (ks.map (entryOf ks us)) ps s.1 s.2) {id : String} :
    id ∈ a.order ↔ ∃ i ∈ c.instances, i.id = id := by
  rw [← exists_mem_components_iff hks, mem_order]
  constructor
  · rintro ⟨s, hs, e, he, rfl⟩
    obtain ⟨k, hk, rfl⟩ := List.mem_map.mp (((hblocks s hs).mem_iff e).mp he).1
    exact ⟨k, hk, rfl⟩
  · rintro ⟨k, hk, rfl⟩
    have hzone : k.template.category.zone ∈ a.sections.map (·.1) := hzones ▸ Section.mem_all _
    obtain ⟨s, hs, hzone⟩ := List.mem_map.mp hzone
    refine ⟨s, hs, entryOf ks us k, ?_, rfl⟩
    exact ((hblocks s hs).mem_iff _).mpr ⟨List.mem_map_of_mem hk, hzone.symm⟩

/-- Every id is listed once. -/
theorem nodup_order_of_arrange {a : Arrangement} (h : c.arrange catalog = .ok (.ok a)) :
    a.order.Nodup := by
  obtain ⟨ks, fs, us, hks, -, -, -, hzones, hblocks⟩ := blocks_of_arrange h
  have hnd := components_nodup hks
  rw [← map_entryOf_id ks us] at hnd
  refine order_nodup_of_blocks hnd ?_ hblocks
  have hall := Section.all_pairwise
  rwa [← hzones, List.pairwise_map] at hall

/-- **What has to come before is written before.**  An arrangement lists every
id of the canvas once, as the component of the first instance with the id; the
sections stand in the order of a contract, each entry in that of its category;
and whatever has to come before an id is listed before it. -/
theorem order_respects_precedence {a : Arrangement} (h : c.arrange catalog = .ok (.ok a)) :
    a.order.Nodup ∧ (∀ id, id ∈ a.order ↔ ∃ i ∈ c.instances, i.id = id) ∧
      (∀ e ∈ a.entries, c.componentAt? catalog e.id = some e.component) ∧
      a.sections.map (·.1) = Section.all ∧
      (∀ s ∈ a.sections, ∀ e ∈ s.2, e.component.template.category.zone = s.1) ∧
      ∀ x y, c.Precedes catalog x y → a.order.idxOf x < a.order.idxOf y := by
  obtain ⟨ks, fs, us, hks, rfl, _, hresp, hzones, hblocks⟩ := blocks_of_arrange h
  have hnd := components_nodup hks
  rw [← map_entryOf_id ks (usableConnections catalog ks c.connections)] at hnd
  have hpair : a.sections.Pairwise fun s t => s.1.rank < t.1.rank := by
    have hall := Section.all_pairwise
    rwa [← hzones, List.pairwise_map] at hall
  have hmem : ∀ id, id ∈ a.order ↔ ∃ i ∈ c.instances, i.id = id :=
    fun _ => mem_order_iff_of_blocks hks hzones hblocks
  refine ⟨order_nodup_of_blocks hnd hpair hblocks, hmem, fun e he => ?_, hzones,
    fun s hs e he => (((hblocks s hs).mem_iff e).mp he).2, fun x y hxy => ?_⟩
  · obtain ⟨s, hs, he⟩ := List.mem_flatMap.mp he
    obtain ⟨k, hk, rfl⟩ := List.mem_map.mp (((hblocks s hs).mem_iff e).mp he).1
    exact (mem_components hks).mp hk
  · obtain ⟨hx, hy⟩ := hxy.mem_instances
    obtain ⟨p, hp, rfl, rfl⟩ := (exists_mem_precedences_iff hks).mpr hxy
    refine idxOf_lt_of_blocks hp ?_ hpair hblocks ((hmem _).mpr hx) ((hmem _).mpr hy)
    intro e he f hf heid hfid
    obtain ⟨k, hk, rfl⟩ := List.mem_map.mp he
    obtain ⟨l, hl, rfl⟩ := List.mem_map.mp hf
    -- Between sections only the check of the ranks stands behind the order.
    refine hresp hxy ?_ ?_
    · rw [← heid]
      exact (mem_components hks).mp hk
    · rw [← hfid]
      exact (mem_components hks).mp hl

/-! ### A component that stands alone -/

/-- Its section holds nothing else. -/
theorem sectionEntries_single (e : Entry) (zone : Section) : sectionEntries [e] [] zone =
    .ok (if zone = e.component.template.category.zone then [e] else []) := by
  rw [sectionEntries]
  by_cases hzone : zone = e.component.template.category.zone
  · have hown : [e].filter (·.component.template.category.zone == zone) = [e] :=
      List.filter_cons_of_pos (beq_iff_eq.mpr hzone.symm)
    have hgraph : addPrecedences (([e].map (·.id)).foldl Graph.addNode Graph.empty) [] =
        .ok { nodes := [e.id] } := rfl
    have hsort : ({ nodes := [e.id] } : Graph).sort? (Graph.addedBefore { nodes := [e.id] }) =
        some [e.id] := rfl
    rw [if_pos hzone, hown]
    refine except_bind_eq_ok.mpr ⟨_, hgraph, ?_⟩
    rw [hsort]
    simp
  · have hown : [e].filter (·.component.template.category.zone == zone) = [] :=
      List.filter_cons_of_neg fun h => hzone (beq_iff_eq.mp h).symm
    rw [if_neg hzone, hown]
    rfl

/-- A component that stands alone is arranged in its section. -/
theorem arrangeComponents_single (catalog : Catalog) (k : Component) :
    arrangeComponents catalog [k] [] = .ok (.ok ⟨Section.all.map fun zone =>
      (zone, if zone = k.template.category.zone then [⟨k, []⟩] else [])⟩) := by
  have hproviders : typeProviders [k] k = [] := by
    refine List.eq_nil_iff_forall_not_mem.mpr fun id hid => ?_
    rw [typeProviders, List.mem_eraseDups, List.mem_filter, List.mem_filterMap] at hid
    obtain ⟨⟨name, -, hname⟩, hne⟩ := hid
    obtain ⟨l, hl, rfl⟩ := Option.map_eq_some_iff.mp hname
    rw [List.mem_singleton.mp (List.mem_of_find?_eq_some hl)] at hne
    simp at hne
  have hps : precedences [k] (usableConnections catalog [k] []) = [] := by
    rw [precedences, List.flatMap_singleton, hproviders]
    rfl
  have hcycles : ({ nodes := [k.id] } : Graph).cycles = [] := by
    refine (Graph.cycles_eq_nil_iff ?_).mpr fun a ha => ?_
    · exact Graph.wellFormed_empty.foldl_addNode [k.id]
    · obtain ⟨b, hab, -⟩ := Relation.TransGen.head'_iff.mp ha
      exact absurd hab List.not_mem_nil
  have hsections : (Section.all.mapM fun zone => do
      let inOrder ← sectionEntries [⟨k, []⟩] [] zone
      return (zone, inOrder)) = (.ok (Section.all.map fun zone =>
        (zone, if zone = k.template.category.zone then [⟨k, []⟩] else [])) :
          Except InvariantError (List (Section × List Entry))) := by
    simp only [sectionEntries_single]
    exact List.mapM_pure
  have hgraph : addPrecedences (([k].map (·.id)).foldl Graph.addNode Graph.empty) [] =
      .ok { nodes := [k.id] } := rfl
  rw [arrangeComponents]
  dsimp only
  rw [hps]
  refine except_bind_eq_ok.mpr ⟨_, hgraph, ?_⟩
  rw [hcycles]
  exact except_bind_eq_ok.mpr ⟨_, hsections, rfl⟩

/-- A canvas of one instance, in the section of its template. -/
theorem arrange_single {catalog : Catalog} {canvas : Canvas} {i : Instance} {t : Template}
    (hi : canvas.instances = [i]) (hks : canvas.connections = [])
    (ht : catalog.template? i.template = some t) :
    canvas.arrange catalog = .ok (.ok ⟨Section.all.map fun zone =>
      (zone, if zone = t.category.zone then [⟨Component.ofInstance i t, []⟩] else [])⟩) := by
  have hbound : bindOnto catalog [] [i] = .ok [Component.ofInstance i t] := by
    simp [bindOnto, componentWith?, ht]
  rw [arrange, hi, hks, hbound]
  exact arrangeComponents_single catalog (Component.ofInstance i t)

/-- A canvas that stands upside down: everything comes before what it
needs. -/
def sample : Canvas where
  instances := [
    ⟨"f", "function", [("name", .string "first")]⟩,
    ⟨"g", "function", [("name", .string "second")]⟩,
    ⟨"v", "variable", [("name", .string "pairs"), ("type", .string "Pair[]")]⟩,
    ⟨"p", "record", [("fields", .string "Entry e"), ("name", .string "Pair")]⟩,
    ⟨"e", "record", [("fields", .string "uint256 n"), ("name", .string "Entry")]⟩ ]
  connections := [⟨"f", "g"⟩, ⟨"v", "f"⟩, ⟨"f", "g"⟩]

end Canvas

end SolidityCanvas
