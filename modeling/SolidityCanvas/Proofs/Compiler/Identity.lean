/-
Contracts do not depend on ids.

With a catalog that hides ids, a canvas whose instances get other ids is accepted if
it was (`Canvas.Acceptable.rename`), is arranged as it was (`Canvas.arrange_rename`),
and each entry is rendered as it was (`Entry.rendering_rename`).  What is left are the
keys under which renderings are remembered.  Two entries that got different keys by
their ids may have one key after that, since texts are normalized, and the other way
round; but a key tells what is rendered (`Entry.Suits.rendering_eq`).

* `Compiler.renamed_ids`: the contract is the same, and its parts are listed under
  their other ids.
-/
import SolidityCanvas.Proofs.Arrangement.Identity
import SolidityCanvas.Proofs.Catalog.Standard
import SolidityCanvas.Proofs.Compiler.Extension

namespace SolidityCanvas

open Config

variable {σ : String → String} {catalog : Catalog} {canvas : Canvas} {a : Arrangement}
  {e f : Entry}

/-! ### Renderings -/

namespace Entry

theorem lookup_bindings_rename (e : Entry) {n : String} (hn : n ≠ "id") :
    (e.rename σ).bindings.lookup n = e.bindings.lookup n := by
  have hlookup := fun e : Entry => lookup_ofList_links e.component.properties.values
    e.component.template.links (fun l => Value.texts (e.linked l)) (.text e.id) n
  refine (hlookup (e.rename σ)).trans (Eq.trans ?_ (hlookup e).symm)
  rw [if_neg hn, if_neg hn]
  rfl

/-- **An entry is rendered as it was**, if its template does not read the id. -/
theorem rendering_rename (h : e.component.template.isAnonymous = true) :
    (e.rename σ).rendering = e.rendering :=
  Template.render_of_isAnonymous h fun _ hn => e.lookup_bindings_rename hn

/-- Where no variable is a number, all of them are plain. -/
theorem Suits.plain_bindings (hregular : catalog.isRegular = true)
    (hhides : catalog.hidesIds = true) (h : e.Suits catalog) :
    ∀ d ∈ e.bindings, d.2.Plain ∅ (some .string) := by
  have hmem := h.template_mem
  obtain ⟨i, t, ht, hc, _⟩ := h
  obtain ⟨component, links⟩ := e
  obtain rfl : component = Component.ofInstance i t := hc
  have hworded := (Catalog.isAnonymous_of_hidesIds hhides hmem).2
  have hfits := t.fits_variables (Catalog.isRegular_template? hregular ht) i
    (Entry.mk (Component.ofInstance i t) links).linked
  intro d hd
  refine plain_of_fitsKind hfits (fun k hk => ?_) d (Value.mem_of_mem_sortNamed hd)
  exact List.all_eq_true.mp hworded k (List.mem_reverse.mp hk)

/-- **Entries with one message are rendered alike.** -/
theorem Suits.rendering_eq (hregular : catalog.isRegular = true)
    (hhides : catalog.hidesIds = true) (h : e.Suits catalog) (h' : f.Suits catalog)
    (hmessage : e.message = f.message) : e.rendering = f.rendering := by
  have hplain := h.plain_bindings hregular hhides
  have hplain' := h'.plain_bindings hregular hhides
  obtain ⟨hid, hcanonical⟩ := eq_of_joined_eq_right
    (Bag.nul_notMem_canonical fun d hd => (hplain d hd).break_notMem_canonicalChars (.inl rfl))
    (Bag.nul_notMem_canonical fun d hd => (hplain' d hd).break_notMem_canonicalChars (.inl rfl))
    hmessage
  have hdistinct : Number.Distinct ∅ := fun m hm => absurd hm (Set.notMem_empty m)
  have hbindings : e.bindings = f.bindings := Bag.canonical_inj
    (fun d hd d' hd' => (hplain d hd).told_canonicalChars hdistinct (hplain' d' hd')) hcanonical
  rw [rendering, rendering, h.template_eq h' hid, hbindings]

end Entry

/-- Digests that tell messages apart make keys that tell renderings apart. -/
theorem Canvas.keysTell_of_digestsTell (hregular : catalog.isRegular = true)
    (hhides : catalog.hidesIds = true) (ha : canvas.arrange catalog = .ok (.ok a))
    (hsuits : ∀ e ∈ a.entries, e.Suits catalog) (htell : canvas.DigestsTell catalog) :
    Entry.KeysTell {e | e ∈ a.entries} := by
  intro e he f hf hkey
  rw [Entry.key_eq, Entry.key_eq] at hkey
  have hmessage := htell a ha ⟨e, he, rfl⟩ ⟨f, hf, rfl⟩ hkey
  exact (hsuits e he).rendering_eq hregular hhides (hsuits f hf) hmessage

theorem renderings_rename : ∀ {es : List Entry} {rendered : List (Entry × Rendered)},
    (∀ e ∈ es, e.component.template.isAnonymous = true) → renderings es = .ok rendered →
    renderings (es.map (·.rename σ)) = .ok (rendered.map fun p => (p.1.rename σ, p.2)) := by
  intro es
  induction es with
  | nil =>
    intro rendered _ h
    obtain rfl := Except.ok.inj h
    rfl
  | cons e es ih =>
    intro rendered hanonymous h
    obtain ⟨he, hes⟩ := List.forall_mem_cons.mp hanonymous
    rw [renderings] at h
    split at h
    · cases h
    · rename_i r hr
      cases hothers : renderings es with
      | error f =>
        rw [hothers] at h
        cases h
      | ok others =>
        rw [hothers] at h
        obtain rfl := Except.ok.inj h
        rw [List.map_cons, renderings, Entry.rendering_rename he, hr, ih hes hothers]
        rfl

/-! ### What is written -/

theorem Document.ofRendered_rename (h : Header) (sizes : List Nat)
    (rendered : List (Entry × Rendered)) :
    Document.ofRendered h sizes (rendered.map fun p => (p.1.rename σ, p.2)) =
      Document.ofRendered h sizes rendered := by
  have hblocks : Document.blocks sizes (rendered.map fun p => (p.1.rename σ, p.2)) =
      Document.blocks sizes rendered := by
    simp only [Document.blocks, List.map_map, Function.comp_def]
  simp only [Document.ofRendered, hblocks, List.flatMap_map, List.foldl_map]
  rfl

/-- The interface of components with other ids: those that it leaves out are listed
under their ids. -/
def Interface.rename (σ : String → String) (x : Interface) : Interface :=
  { x with skipped := x.skipped.map fun s => { s with instanceId := σ s.instanceId } }

theorem Interface.add_rename (u : UserTypes) (x : Interface) (e : Entry) :
    Interface.add u (x.rename σ) (e.rename σ) = (Interface.add u x e).map (·.rename σ) := by
  have hcontribution : (e.rename σ).contribution? u = e.contribution? u := rfl
  rw [add, add, hcontribution]
  split <;> simp [rename, push, Entry.rename, Entry.id]

namespace Arrangement

/-- **The interface has the entries and selectors it had.** -/
theorem interface?_rename (a : Arrangement) :
    (a.rename σ).interface? = a.interface?.map (·.rename σ) := by
  have htypes : UserTypes.ofEntries (a.entries.map (·.rename σ)) = UserTypes.ofEntries a.entries := by
    simp only [UserTypes.ofEntries, List.filter_map, List.map_map]
    rfl
  have hfold : ∀ (u : UserTypes) (es : List Entry) (x : Interface),
      (es.map (·.rename σ)).foldlM (Interface.add u) (x.rename σ) =
        (es.foldlM (Interface.add u) x).map (·.rename σ) := by
    intro u es
    induction es with
    | nil => exact fun _ => rfl
    | cons e es ih =>
      intro x
      rw [List.map_cons, List.foldlM_cons, List.foldlM_cons, Interface.add_rename]
      cases Interface.add u x e with
      | none => rfl
      | some y => exact ih y
  rw [interface?, interface?, entries_rename, htypes]
  exact hfold _ a.entries {}

/-- Where keys tell renderings apart, remembering them changes nothing. -/
theorem emit_eq_renderings (hkeys : Entry.KeysTell {e | e ∈ a.entries}) (h : Header)
    (capacity : Nat) : (a.emit h (RenderCache.new capacity)).1 =
      (renderings a.entries).map (Document.ofRendered h.withDefaults a.sizes) :=
  (emit_of_faithful hkeys (fun _ he => mem_of_mem_reached he) (Entry.faithful_new _ capacity) h).1

/-- **An arrangement is written as it was.** -/
theorem emit_rename (hanonymous : ∀ e ∈ a.entries, e.component.template.isAnonymous = true)
    (hkeys : Entry.KeysTell {e | e ∈ a.entries})
    (hkeys' : Entry.KeysTell {e | e ∈ (a.rename σ).entries}) {h : Header} {capacity : Nat}
    {document : Document} (hdocument : (a.emit h (RenderCache.new capacity)).1 = .ok document) :
    ((a.rename σ).emit h (RenderCache.new capacity)).1 = .ok document := by
  rw [emit_eq_renderings hkeys] at hdocument
  have hsizes : (a.rename σ).sizes = a.sizes := by
    simp [rename, sizes, Function.comp_def]
  cases hrendered : renderings a.entries with
  | error f =>
    rw [hrendered] at hdocument
    cases hdocument
  | ok rendered =>
    rw [hrendered] at hdocument
    obtain rfl := Except.ok.inj hdocument
    rw [emit_eq_renderings hkeys', entries_rename, renderings_rename hanonymous hrendered,
      hsizes]
    exact congrArg Except.ok (Document.ofRendered_rename _ _ rendered)

end Arrangement

/-! ### What is accepted -/

namespace Canvas

variable {c : Canvas} {ks : List Component} {fs : List Diagnostic}

/-- The category that gives its name to the link of a connection is that of the end
that gives it. -/
theorem provider_category (hks : c.components catalog = .ok (ks, fs)) {u : UsableConnection}
    (hu : u ∈ usableConnections catalog ks c.connections) :
    u.provider.template.category.name = u.rule.provider ∧ u.rule ∈ catalog.rules := by
  obtain ⟨hk, hs, ht⟩ := mem_usableConnections hks hu
  obtain ⟨source, target, hs', ht', hr⟩ := hk.allowed
  obtain rfl := Option.some.inj (hs.symm.trans hs')
  obtain rfl := Option.some.inj (ht.symm.trans ht')
  obtain ⟨hsource, htarget⟩ := Catalog.rule?_ends hr
  refine ⟨?_, List.mem_of_find?_eq_some hr⟩
  rw [Rule.provider, UsableConnection.provider]
  split
  · exact htarget.symm
  · exact hsource.symm

/-- Where ids are hidden, components that give their names to a link have one. -/
theorem Acceptable.linksNamed (hhides : catalog.hidesIds = true) (h : c.Acceptable catalog) :
    c.LinksNamed catalog := by
  intro ks fs hks u hu hlink hempty
  obtain ⟨hcategory, hrule⟩ := provider_category hks hu
  have hprovider := (mem_components_of_mem_usableConnections hks hu).2
  have hproperty := Catalog.isSome_nameProperty_of_hidesIds hhides hrule hlink
    (template_mem_of_mem_components hks hprovider) hcategory
  obtain ⟨hidentifier, _⟩ :=
    h.named _ ((mem_components_iff_holds hks h.ids_nodup).mp hprovider) hproperty
  rw [hempty] at hidentifier
  exact absurd hidentifier (by decide)

theorem holds_rename {k' : Component} :
    (c.rename σ).Holds catalog k' ↔ ∃ k, c.Holds catalog k ∧ k.rename σ = k' := by
  constructor
  · rintro ⟨_, hmem, hk⟩
    obtain ⟨i, hi, rfl⟩ := List.mem_map.mp hmem
    rw [componentOf?_rename, Option.map_eq_some_iff] at hk
    obtain ⟨k, hk, rfl⟩ := hk
    exact ⟨k, ⟨i, hi, hk⟩, rfl⟩
  · rintro ⟨k, ⟨i, hi, hk⟩, rfl⟩
    refine ⟨i.rename σ, List.mem_map_of_mem hi, ?_⟩
    rw [componentOf?_rename, hk]
    rfl

/-- **A canvas that is accepted stays so under other ids.** -/
theorem Acceptable.rename (hhides : catalog.hidesIds = true) (hσ : Set.InjOn σ c.ids)
    (hks : c.components catalog = .ok (ks, fs)) (h : c.Acceptable catalog) :
    (c.rename σ).Acceptable catalog := by
  -- Declared names do not depend on the id, and so neither do claims.
  have hdeclared : ∀ k, c.Holds catalog k → (k.rename σ).template.declaredNames (k.rename σ).id
      (k.rename σ).properties.bag = k.template.declaredNames k.id k.properties.bag := by
    rintro k ⟨i, _, hi⟩
    obtain ⟨t, ht, rfl⟩ := componentOf?_eq_some.mp hi
    have hmem : t ∈ catalog.templates := List.mem_of_find?_eq_some ht
    exact Template.declaredNames_of_isAnonymous
      (Catalog.isAnonymous_of_hidesIds hhides hmem).1 _ _ _
  have hclaims : ∀ k, c.Holds catalog k → ∀ nameSpace name,
      (k.rename σ).Claims nameSpace name → k.Claims nameSpace name := by
    intro k hk nameSpace name hclaim
    rw [Component.Claims, hdeclared k hk] at hclaim
    exact hclaim
  constructor
  · rw [Canvas.rename, List.map_map]
    have hnd := h.ids_nodup.map_on fun a ha b hb => hσ (List.mem_map.mp ha) (List.mem_map.mp hb)
    rwa [List.map_map] at hnd
  · intro _ hmem t ht p hp
    obtain ⟨i, hi, rfl⟩ := List.mem_map.mp hmem
    exact h.fits i hi t ht p hp
  · intro _ hheld
    obtain ⟨k, hk, rfl⟩ := holds_rename.mp hheld
    exact h.named k hk
  · intro _ _ hheld hheld' hsingle hname
    obtain ⟨k, hk, rfl⟩ := holds_rename.mp hheld
    obtain ⟨l, hl, rfl⟩ := holds_rename.mp hheld'
    exact congrArg σ (h.alone k l hk hl hsingle hname)
  · intro _ hheld
    obtain ⟨k, hk, rfl⟩ := holds_rename.mp hheld
    rw [hdeclared k hk]
    exact h.declares k hk
  · intro _ _ hheld hheld' nameSpace name hclaim hclaim'
    obtain ⟨k, hk, rfl⟩ := holds_rename.mp hheld
    obtain ⟨l, hl, rfl⟩ := holds_rename.mp hheld'
    exact congrArg σ (h.distinct k l hk hl nameSpace name (hclaims k hk _ _ hclaim)
      (hclaims l hl _ _ hclaim'))
  · intro _ hmem
    obtain ⟨k, hk, rfl⟩ := List.mem_map.mp hmem
    obtain ⟨rule, hrule⟩ := h.connected k hk
    exact ⟨rule, hrule.rename hσ⟩
  · exact unentangled_rename hσ h.connected hks h.unentangled
  · exact respectsSections_rename hσ h.connected hks h.respects

end Canvas

/-- A canvas is written as it was, by any catalog that hides ids. -/
theorem Compiler.exists_compile_rename (hcategories : catalog.CategoriesAgree)
    (hregular : catalog.isRegular = true) (hhides : catalog.hidesIds = true)
    (hσ : Set.InjOn σ canvas.ids) (htell : canvas.DigestsTell catalog)
    (htell' : (canvas.rename σ).DigestsTell catalog) {header : Header} {capacity : Nat}
    {r : CompileResult} (hr : ((new catalog capacity).compile canvas header false).1 = .ok r)
    (hemitted : r.status = .emitted) :
    ∃ r', ((new catalog capacity).compile (canvas.rename σ) header false).1 = .ok r' ∧
      r'.status = .emitted ∧ r'.document = r.document ∧
      (∃ x, r.interface = some x ∧ r'.interface = some (x.rename σ)) ∧
      r'.order = r.order.map σ := by
  have hrejected : Status.rejected ≠ Status.emitted := by decide
  rw [compile_new] at hr
  obtain ⟨findings, hv, ⟨_, _, rfl⟩ | ⟨a, ha, ⟨_, rfl⟩ | ⟨herr, document, x, hdocument, hx, rfl⟩⟩⟩ :=
    run_eq_ok hr
  · exact absurd hemitted hrejected
  · exact absurd hemitted hrejected
  obtain ⟨ks, fs, _, hks, _, hfree, hrespects, _, _⟩ := Canvas.blocks_of_arrange ha
  have haccepted := (Canvas.hasErrors_validate hcategories hv hfree hrespects).mp herr
  have haccepted' := haccepted.rename hhides hσ hks
  -- The canvas with the other ids is checked and arranged.
  have ha' := Canvas.arrange_rename hσ haccepted.connected (haccepted.linksNamed hhides) ha
  obtain ⟨fs', hks'⟩ := Canvas.components_rename hσ hks
  obtain ⟨findings', hv'⟩ := Canvas.exists_validate hks'
  have herr' := (Canvas.hasErrors_validate hcategories hv' haccepted'.unentangled
    haccepted'.respects).mpr haccepted'
  have hsuits := fun e => Canvas.suits_of_validate (e := e) hv herr ha
  have hsuits' := fun e => Canvas.suits_of_validate (e := e) hv' herr' ha'
  have hdocument' := Arrangement.emit_rename
    (fun e he => (Catalog.isAnonymous_of_hidesIds hhides (hsuits e he).template_mem).1)
    (Canvas.keysTell_of_digestsTell hregular hhides ha hsuits htell)
    (Canvas.keysTell_of_digestsTell hregular hhides ha' hsuits' htell') hdocument
  have hx' : (a.rename σ).interface? = some (x.rename σ) := by
    rw [a.interface?_rename, hx, Option.map_some]
  refine ⟨_, (compile_new _ _ _ _ _).trans (run_of_emit hv' ha' herr' hdocument' hx'), rfl, rfl, ?_,
    ?_⟩
  · exact ⟨x, rfl, rfl⟩
  · exact a.order_rename

/-- **A contract does not depend on the ids of instances.**  The standard catalog writes
a canvas.  Its instances get other ids, and ids that differ stay different; connections
follow their instances.  Then the canvas is still written, with the same document, an
interface with the same entries and selectors, and in the same order, where every
instance goes by its other id.  Digests tell apart what is rendered. -/
theorem Compiler.renamed_ids {header : Header} {capacity : Nat} {r : CompileResult}
    (hσ : Set.InjOn σ canvas.ids) (htell : canvas.DigestsTell Catalog.standard)
    (htell' : (canvas.rename σ).DigestsTell Catalog.standard)
    (hr : ((new Catalog.standard capacity).compile canvas header false).1 = .ok r)
    (hemitted : r.status = .emitted) :
    ∃ r', ((new Catalog.standard capacity).compile (canvas.rename σ) header false).1 = .ok r' ∧
      r'.status = .emitted ∧ r'.document = r.document ∧
      (∃ x, r.interface = some x ∧ r'.interface = some { x with
        skipped := x.skipped.map fun s => { s with instanceId := σ s.instanceId } }) ∧
      r'.order = r.order.map σ := by
  obtain ⟨-, hpasses⟩ := Catalog.passesStandard_standard
  exact exists_compile_rename Catalog.categoriesAgree_standard hpasses.regular hpasses.hidesIds hσ
    htell htell' hr hemitted

/-- A guard that tells of an event is written as it was when both get other ids. -/
theorem Compiler.watched_renamed : ∃ r r',
    ((new Catalog.standard 1).compile Canvas.watched {} false).1 = .ok r ∧ r.status = .emitted ∧
    ((new Catalog.standard 1).compile (Canvas.watched.rename ("copy-" ++ ·)) {} false).1 = .ok r' ∧
    r'.document = r.document ∧ r'.order = r.order.map ("copy-" ++ ·) := by
  obtain ⟨-, hpasses⟩ := Catalog.passesStandard_standard
  obtain ⟨r, hr, hemitted, -⟩ := exists_emitted_of_isSound hpasses.watched 1 {}
  have hσ : Set.InjOn ("copy-" ++ ·) Canvas.watched.ids :=
    fun a _ b _ h => (String.append_right_inj "copy-").mp h
  obtain ⟨r', hr', _, hdocument, _, horder⟩ := renamed_ids hσ
    (Canvas.digestsTell_of_hasMessages hpasses.messages (injOn_watchedMessages.mono (by simp [watchedMessages])))
    (Canvas.digestsTell_of_hasMessages hpasses.messages' (injOn_watchedMessages.mono (by simp [watchedMessages])))
    hr hemitted
  exact ⟨r, r', hr, hemitted, hr', hdocument, horder⟩

end SolidityCanvas
