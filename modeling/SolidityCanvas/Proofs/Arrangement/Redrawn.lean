/-
Canvases that are arranged alike.

Where the entries of a section and the constraints between them correspond to those
of another one, so do the orders in which they are written: neither the ids nor the
order of the constraints matter.

A connection says that two instances belong together, and it does not matter when
it was drawn, or how often (`Canvas.Redrawn`).

* `sectionEntries_renamed`, `mapM_sectionEntries_renamed`: sections under other ids;
* `Redrawn.usableConnections_perm`, `entryOf_perm`: the connections that can be used
  are the same ones, and give the same links;
* `Redrawn.arrange`: a canvas is arranged in one way, and where it cannot be, the
  same is reported;
* `Compiler.redrawn_connections`: hence it is written as before.
-/
import Mathlib.Data.List.Find
import SolidityCanvas.Proofs.Arrangement.Total
import SolidityCanvas.Proofs.Graph.Renaming
import SolidityCanvas.Proofs.Text.Distinct
import SolidityCanvas.Proofs.Validation.Verdict

namespace SolidityCanvas

/-! ### Sections under other ids -/

namespace Canvas

variable {entries : List Entry} {ps ps' : List Precedence} {zone : Section}

section renamed

variable {σ : String → String} {form : Entry → Entry} (hnd : (entries.map (·.id)).Nodup)
  (hinj : Set.InjOn σ {id | id ∈ entries.map (·.id)})
  (hid : ∀ e ∈ entries, (form e).id = σ e.id) (hzone : ∀ e ∈ entries, (form e).zone = e.zone)
  (hps : ∀ a ∈ entries.map (·.id), ∀ b ∈ entries.map (·.id),
    ((∃ p ∈ ps', p.before = σ a ∧ p.after = σ b) ↔ ∃ p ∈ ps, p.before = a ∧ p.after = b))

include hnd hinj hid hzone hps

/-- **Sections that correspond are written in one order.** -/
theorem sectionEntries_renamed {es es' : List Entry} (h : sectionEntries entries ps zone = .ok es)
    (h' : sectionEntries (entries.map form) ps' zone = .ok es') : es' = es.map form := by
  have hids : (entries.map form).map (·.id) = (entries.map (·.id)).map σ := by
    rw [List.map_map, List.map_map]
    exact List.map_congr_left hid
  have hnd' : ((entries.map form).map (·.id)).Nodup := by
    rw [hids]
    exact hnd.map_on fun a ha b hb => hinj ha hb
  have hown : (entries.map form).filter (·.component.template.category.zone == zone) =
      (entries.filter (·.component.template.category.zone == zone)).map form := by
    rw [List.filter_map]
    congr 1
    refine List.filter_congr fun e he => ?_
    have hsame := hzone e he
    rw [Entry.zone, Entry.zone] at hsame
    rw [Function.comp_apply, hsame]
  obtain ⟨g, order, hwf, hnodes, hedge, hsort, rfl⟩ := exists_sort_of_sectionEntries hnd h
  obtain ⟨g', order', hwf', hnodes', hedge', hsort', rfl⟩ := exists_sort_of_sectionEntries hnd' h'
  rw [hown] at hnodes' ⊢
  have hown : ∀ e ∈ entries.filter (·.component.template.category.zone == zone), e ∈ entries :=
    fun e he => (List.mem_filter.mp he).1
  generalize entries.filter (·.component.template.category.zone == zone) = own at *
  have hsub : ∀ a ∈ g.nodes, a ∈ entries.map (·.id) := by
    intro a ha
    rw [hnodes] at ha
    obtain ⟨e, he, rfl⟩ := List.mem_map.mp ha
    exact List.mem_map_of_mem (hown e he)
  have hrenamed : Graph.Renamed σ g g' := by
    have hnodes' : g'.nodes = g.nodes.map σ := by
      rw [hnodes', hnodes, List.map_map, List.map_map]
      exact List.map_congr_left fun e he => hid e (hown e he)
    refine ⟨fun a ha b hb => hinj (hsub a ha) (hsub b hb), hnodes', fun a ha b hb => ?_⟩
    have hmem : ∀ x ∈ g.nodes, σ x ∈ g'.nodes := fun x hx => hnodes' ▸ List.mem_map_of_mem hx
    rw [hedge' _ (hmem a ha) _ (hmem b hb), hedge a ha b hb]
    exact hps a (hsub a ha) b (hsub b hb)
  obtain rfl : order' = order.map σ := by
    have heq := hrenamed.sort?_eq hwf hwf'
    rw [hsort, hsort'] at heq
    exact Option.some_inj.mp heq
  rw [List.filterMap_map, List.map_filterMap]
  refine List.filterMap_congr fun id hmem => ?_
  have hmem : id ∈ entries.map (·.id) := hsub id ((Graph.sort?_perm hwf hsort).mem_iff.mp hmem)
  rw [Function.comp_apply, List.find?_map]
  congr 1
  -- Entries are found by their ids, and these are told apart.
  refine List.find?_congr fun e he => ?_
  rw [Function.comp_apply, hid e (hown e he), Bool.eq_iff_iff, beq_iff_eq, beq_iff_eq]
  exact ⟨hinj (List.mem_map_of_mem (hown e he)) hmem, congrArg σ⟩

/-- **All sections that correspond are.** -/
theorem mapM_sectionEntries_renamed {zones : List Section}
    {sections sections' : List (Section × List Entry)}
    (h : (zones.mapM fun zone => do
      let inOrder ← sectionEntries entries ps zone
      return (zone, inOrder)) = .ok sections)
    (h' : (zones.mapM fun zone => do
      let inOrder ← sectionEntries (entries.map form) ps' zone
      return (zone, inOrder)) = .ok sections') :
    sections' = sections.map fun s => (s.1, s.2.map form) := by
  induction zones generalizing sections sections' with
  | nil =>
    obtain rfl := Except.ok.inj h
    obtain rfl := Except.ok.inj h'
    rfl
  | cons zone zones ih =>
    rw [List.mapM_cons] at h h'
    obtain ⟨s, hs, h⟩ := except_bind_eq_ok.mp h
    obtain ⟨es, hes, hs⟩ := except_bind_eq_ok.mp hs
    obtain ⟨rest, hrest, h⟩ := except_bind_eq_ok.mp h
    obtain ⟨s', hs', h'⟩ := except_bind_eq_ok.mp h'
    obtain ⟨es', hes', hs'⟩ := except_bind_eq_ok.mp hs'
    obtain ⟨rest', hrest', h'⟩ := except_bind_eq_ok.mp h'
    obtain rfl := Except.ok.inj hs
    obtain rfl := Except.ok.inj h
    obtain rfl := Except.ok.inj hs'
    obtain rfl := Except.ok.inj h'
    rw [List.map_cons, ih hrest hrest', sectionEntries_renamed hnd hinj hid hzone hps hes hes']

end renamed

end Canvas

/-! ### Connections in another order -/

open Diagnostic

namespace Canvas

/-- The instances are the same, and so are the connections, in some order and
possibly some of them more than once. -/
structure Redrawn (c c' : Canvas) : Prop where
  instances : c'.instances = c.instances
  connections : ∀ k, k ∈ c'.connections ↔ k ∈ c.connections

variable {c c' : Canvas} {catalog : Catalog} {ks : List Component}
  {us us' : List UsableConnection}

/-! ### What connections give -/

/-- **The same connections can be used.** -/
theorem Redrawn.usableConnections_perm (h : Redrawn c c') (catalog : Catalog)
    (ks : List Component) : (usableConnections catalog ks c'.connections).Perm
      (usableConnections catalog ks c.connections) := by
  refine List.Perm.filterMap _ ?_
  refine (List.perm_ext_iff_of_nodup (Graph.nodup_eraseDups _) (Graph.nodup_eraseDups _)).mpr ?_
  intro k
  rw [List.mem_eraseDups, List.mem_eraseDups, h.connections]

/-- **A component has the same links**: names are listed in the order of their
components, as often as there are connections. -/
theorem entryOf_perm (h : us'.Perm us) (k : Component) : entryOf ks us' k = entryOf ks us k := by
  have hnames : ∀ link, linkedNames ks us' k link = linkedNames ks us k link := by
    intro link
    rw [linkedNames, linkedNames]
    refine congrArg (fun f => ks.flatMap f) (funext fun p => ?_)
    rw [List.map_const', List.map_const', (h.filter _).length_eq]
  rw [entryOf, entryOf, Text.sortedDistinct_congr fun l => ((h.filter _).map _).mem_iff]
  simp only [hnames]

theorem precedences_perm (ks : List Component) (h : us'.Perm us) :
    (precedences ks us').Perm (precedences ks us) :=
  (h.filterMap _).append_right _

/-! ### What is arranged -/

theorem Redrawn.components_eq (h : Redrawn c c') (catalog : Catalog) :
    c'.components catalog = c.components catalog := by
  rw [components, components, h.instances]

/-- The graph of constraints is the same but for the order of its edges. -/
theorem renamed_of_perm {ps ps' : List Precedence} (h : ps'.Perm ps) {start g g' : Graph}
    (hstart : start.WellFormed) (hg : addPrecedences start ps = .ok g)
    (hg' : addPrecedences start ps' = .ok g') : Graph.Renamed id g g' := by
  obtain ⟨_, hnodes, hedge⟩ := addPrecedences_eq_ok _ hg hstart
  obtain ⟨_, hnodes', hedge'⟩ := addPrecedences_eq_ok _ hg' hstart
  refine ⟨Function.injective_id.injOn, by rw [List.map_id, hnodes, hnodes'], fun a _ b _ => ?_⟩
  rw [hedge, id, id, hedge']
  simp only [h.mem_iff]

/-- **The verdict is the same**, up to the order in which conflicts between
sections are reported. -/
theorem Redrawn.arrange (h : Redrawn c c') (catalog : Catalog) :
    c'.arrange catalog = c.arrange catalog ∨ ∃ ds ds', c.arrange catalog = .ok (.error ds) ∧
      c'.arrange catalog = .ok (.error ds') ∧ ds'.Perm ds ∧
      ∀ d ∈ ds, d.code = Code.sectionConflict := by
  have hcomponents := h.components_eq catalog
  cases hbound : c.components catalog with
  | error e =>
    left
    rw [arrange_of_error hbound, arrange_of_error (hcomponents.trans hbound)]
  | ok bound =>
    obtain ⟨r, hr⟩ := exists_arrange_of_components hbound
    obtain ⟨r', hr'⟩ := exists_arrange_of_components (hcomponents.trans hbound)
    obtain ⟨ks, fs, g, hks, hg, hcases⟩ := arrange_cases hr
    obtain ⟨ks', fs', g', hks', hg', hcases'⟩ := arrange_cases hr'
    obtain ⟨rfl, rfl⟩ : ks' = ks ∧ fs' = fs :=
      Prod.mk.inj (Except.ok.inj (hks'.symm.trans (hcomponents.trans hks)))
    have hus := h.usableConnections_perm catalog ks'
    have hps := precedences_perm ks' hus
    have hconflicts := hps.filterMap (conflictFinding? ks')
    have hwf := Graph.wellFormed_empty.foldl_addNode (ks'.map (·.id))
    have hcycles : g'.cycles = g.cycles := by
      have heq := (renamed_of_perm hps hwf hg hg').cycles_eq (addPrecedences_eq_ok _ hg hwf).1
        (addPrecedences_eq_ok _ hg' hwf).1
      simpa using heq
    rw [hcycles] at hcases'
    rw [hr, hr']
    obtain ⟨hsome, rfl⟩ | ⟨hnil, hsome, rfl⟩ | ⟨hnil, hnone, sections, rfl, hsections⟩ := hcases
    · -- There are cycles, and they are found in the order of the canvas.
      obtain ⟨_, rfl⟩ | ⟨hnil, _⟩ | ⟨hnil, _⟩ := hcases'
      · exact .inl rfl
      · exact absurd hnil hsome
      · exact absurd hnil hsome
    · -- There are conflicts, and they are found in the order of the connections.
      obtain ⟨hsome', _⟩ | ⟨_, _, rfl⟩ | ⟨_, hnone, _⟩ := hcases'
      · exact absurd hnil hsome'
      · refine .inr ⟨_, _, rfl, rfl, hconflicts, fun d hd => ?_⟩
        obtain ⟨p, _, hp⟩ := List.mem_filterMap.mp hd
        exact (code_conflictFinding? hp).1
      · rw [hnone] at hconflicts
        exact absurd hconflicts.symm.eq_nil hsome
    · obtain ⟨hsome', _⟩ | ⟨_, hsome', _⟩ | ⟨_, _, sections', rfl, hsections'⟩ := hcases'
      · exact absurd hnil hsome'
      · rw [hnone] at hconflicts
        exact absurd hconflicts.eq_nil hsome'
      · -- Entries and constraints are the same, and so is the order of each section.
        have hentries : ks'.map (entryOf ks' (usableConnections catalog ks' c'.connections)) =
            (ks'.map (entryOf ks' (usableConnections catalog ks' c.connections))).map id := by
          rw [List.map_id]
          exact List.map_congr_left fun k _ => entryOf_perm hus k
        rw [hentries] at hsections'
        have hnd := components_nodup hks
        rw [← map_entryOf_id ks' (usableConnections catalog ks' c.connections)] at hnd
        have heq := mapM_sectionEntries_renamed (σ := id) hnd Function.injective_id.injOn
          (fun _ _ => rfl) (fun _ _ => rfl)
          (fun a _ b _ => by simp only [id, hps.mem_iff]) hsections hsections'
        exact .inl (by simpa using heq)

/-! ### What is written -/

theorem Redrawn.connects_iff (h : Redrawn c c') {k : Connection} {rule : Rule} :
    c'.Connects catalog k rule ↔ c.Connects catalog k rule := by
  have hat : ∀ id, c'.componentAt? catalog id = c.componentAt? catalog id := by
    intro id
    rw [componentAt?, componentAt?, instance?, instance?, h.instances]
  constructor
  · rintro ⟨hmem, hne, hallowed⟩
    simp only [hat] at hallowed
    exact ⟨(h.connections k).mp hmem, hne, hallowed⟩
  · rintro ⟨hmem, hne, hallowed⟩
    simp only [← hat] at hallowed
    exact ⟨(h.connections k).mpr hmem, hne, hallowed⟩

/-- **A canvas without errors stays one.**  That a connection is drawn twice is only
a warning. -/
theorem Redrawn.hasErrors_validate (h : Redrawn c c') {findings : List Diagnostic}
    (hv : c.validate catalog = .ok findings) (herr : hasErrors findings = false) :
    ∃ findings', c'.validate catalog = .ok findings' ∧ hasErrors findings' = false := by
  obtain ⟨ks, bound, hks, hparts⟩ := validate_eq_ok hv
  have hks' := (h.components_eq catalog).trans hks
  obtain ⟨findings', hv'⟩ := exists_validate hks'
  obtain ⟨ks', bound', hbound', hparts'⟩ := validate_eq_ok hv'
  obtain ⟨rfl, rfl⟩ : ks' = ks ∧ bound' = bound :=
    Prod.mk.inj (Except.ok.inj (hbound'.symm.trans hks'))
  obtain ⟨hbound, hnames, hsingle, hcollisions, hconnections⟩ := hparts.mp herr
  rw [hasErrors_connectionFindings_iff hks] at hconnections
  refine ⟨findings', hv', hparts'.mpr ⟨hbound, hnames, hsingle, hcollisions, ?_⟩⟩
  refine (hasErrors_connectionFindings_iff hks').mpr fun k hk => ?_
  obtain ⟨rule, hrule⟩ := hconnections k ((h.connections k).mp hk)
  exact ⟨rule, h.connects_iff.mpr hrule⟩

end Canvas

/-- **It does not matter in which order connections were drawn, or how often.**  Two
canvases differ in that only.  If one of them cannot be arranged at all, the other one
cannot either, for the same reason; the one has an arrangement if and only if the other
has it; and if both are refused, then for the same cycles, or for the same conflicts in
some order.  If a compiler writes the one, it writes the other with the same document,
interface and order. -/
theorem Compiler.redrawn_connections (catalog : Catalog) {c c' : Canvas} (h : c.Redrawn c') :
    (∀ e, c.arrange catalog = .error e ↔ c'.arrange catalog = .error e) ∧
    (∀ a, c.arrange catalog = .ok (.ok a) ↔ c'.arrange catalog = .ok (.ok a)) ∧
    (∀ ds ds', c.arrange catalog = .ok (.error ds) → c'.arrange catalog = .ok (.error ds') →
      ds'.filter (·.code == Code.cycle) = ds.filter (·.code == Code.cycle) ∧ ds'.Perm ds) ∧
    ∀ (capacity : Nat) (header : Header) (r : CompileResult),
      ((new catalog capacity).compile c header false).1 = .ok r → r.status = .emitted →
      ∃ r', ((new catalog capacity).compile c' header false).1 = .ok r' ∧ r'.status = .emitted ∧
        r'.document = r.document ∧ r'.interface = r.interface ∧ r'.order = r.order := by
  have harrange := h.arrange catalog
  refine ⟨fun e => ?_, fun a => ?_, fun ds ds' hds hds' => ?_, fun capacity header r hr hr' => ?_⟩
  · obtain heq | ⟨ds, ds', hds, hds', _⟩ := harrange
    · rw [heq]
    · simp [hds, hds']
  · obtain heq | ⟨ds, ds', hds, hds', _⟩ := harrange
    · rw [heq]
    · simp [hds, hds']
  · obtain heq | ⟨es, es', hes, hes', hperm, hcode⟩ := harrange
    · rw [hds, hds'] at heq
      obtain rfl := Except.error.inj (Except.ok.inj heq)
      exact ⟨rfl, .refl _⟩
    · obtain rfl := Except.error.inj (Except.ok.inj (hds.symm.trans hes))
      obtain rfl := Except.error.inj (Except.ok.inj (hds'.symm.trans hes'))
      -- Conflicts are not cycles.
      have hcycle : ∀ d ∈ ds, ¬(d.code == Code.cycle) = true := by
        intro d hd
        rw [hcode d hd]
        decide
      refine ⟨?_, hperm⟩
      rw [List.filter_eq_nil_iff.mpr hcycle,
        List.filter_eq_nil_iff.mpr fun d hd => hcycle d (hperm.mem_iff.mp hd)]
  · have hrejected : Status.rejected ≠ Status.emitted := by decide
    rw [compile_new] at hr
    obtain ⟨findings, hv, ⟨_, _, rfl⟩ | ⟨a, ha, ⟨_, rfl⟩ | ⟨herr, document, x, hdocument, hx, rfl⟩⟩⟩ :=
      run_eq_ok hr
    · exact absurd hr' hrejected
    · exact absurd hr' hrejected
    obtain ⟨findings', hv', herr'⟩ := h.hasErrors_validate hv herr
    have ha' : c'.arrange catalog = .ok (.ok a) := by
      obtain heq | ⟨ds, _, hds, _⟩ := harrange
      · exact heq.trans ha
      · cases hds.symm.trans ha
    have hrun := run_of_emit hv' ha' herr' hdocument hx
    exact ⟨_, (compile_new catalog capacity c' header false).trans hrun, rfl, rfl, rfl, rfl⟩

/-! ### Two ways to draw a canvas -/

/-- A function that comes after a variable and a function that it uses, where the
connections are drawn from the last one and one of them twice. -/
def Canvas.drawnTwice : Canvas where
  instances := [
    ⟨"f", "function", [("name", .string "first")]⟩,
    ⟨"g", "function", [("name", .string "second")]⟩,
    ⟨"v", "variable", [("name", .string "total"), ("type", .string "uint256")]⟩]
  connections := [⟨"f", "g"⟩, ⟨"v", "f"⟩, ⟨"f", "g"⟩]

theorem Compiler.drawn_twice_is_arranged :
    Canvas.Redrawn { Canvas.drawnTwice with connections := [⟨"v", "f"⟩, ⟨"f", "g"⟩] }
      Canvas.drawnTwice ∧
    ∃ a, Canvas.drawnTwice.arrange .sample = .ok (.ok a) ∧ a.order = ["v", "g", "f"] := by
  have hredrawn : Canvas.Redrawn
      { Canvas.drawnTwice with connections := [⟨"v", "f"⟩, ⟨"f", "g"⟩] } Canvas.drawnTwice := by
    refine ⟨rfl, fun k => ?_⟩
    simp only [Canvas.drawnTwice, List.mem_cons, List.not_mem_nil, or_false]
    tauto
  obtain ⟨a, ha, horder⟩ : ∃ a, Canvas.arrange
      { Canvas.drawnTwice with connections := [⟨"v", "f"⟩, ⟨"f", "g"⟩] } .sample = .ok (.ok a) ∧
      a.order = ["v", "g", "f"] := ⟨_, rfl, rfl⟩
  exact ⟨hredrawn, a, ((redrawn_connections .sample hredrawn).2.1 a).mp ha, horder⟩

end SolidityCanvas
