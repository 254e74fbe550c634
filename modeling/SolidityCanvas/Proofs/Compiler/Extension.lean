/-
Packs and canvases that need none.

A canvas that a catalog has written is written alike with any pack that adds
files to the catalog.  Components, findings, order and interface are those
they were (`Canvas.validate_relink`, `Canvas.arrange_relink`), and so is the
rendering of each entry.  What is left are the keys under which renderings are
remembered: they name all links, and so they change.

Keys matter to a cache only in that some are equal and others are not.  Two caches
whose keys correspond one to one (`Cache.Alike`) therefore answer alike and keep
doing so, whatever is looked up or added, and whatever is dropped.  Two entries have
one key exactly if they had one before (`message_relink_eq_iff`), since the further
links hold nothing, so that it makes no difference what the keys are
(`renderAll_alike`).

* `Cache.Alike.get`, `Cache.Alike.add`: one operation;
* `Compiler.pack_keeps_emitted`: the result is the same in every part.
-/
import Mathlib.Data.List.Forall2
import SolidityCanvas.Proofs.Arrangement.Links
import SolidityCanvas.Proofs.Catalog.Lines
import SolidityCanvas.Proofs.Catalog.Relinked
import SolidityCanvas.Proofs.Catalog.Standard
import SolidityCanvas.Proofs.Compiler.Keys
import SolidityCanvas.Proofs.Compiler.Memory

namespace SolidityCanvas

/-! ### Caches whose keys have other names -/

namespace Cache

variable {κ κ' α : Type} [BEq κ] [LawfulBEq κ] [BEq κ'] [LawfulBEq κ'] {K : κ → κ' → Prop}
  {c : Cache κ α} {c' : Cache κ' α} {key : κ} {key' : κ'} {value : α}

/-- The same values under keys that correspond, in the same order. -/
structure Alike (K : κ → κ' → Prop) (c : Cache κ α) (c' : Cache κ' α) : Prop where
  capacity : c.capacity = c'.capacity
  entries : List.Forall₂ (fun e e' => K e.1 e'.1 ∧ e.2 = e'.2) c.entries c'.entries

variable (hK : Relator.BiUnique K)

include hK

omit [BEq κ] [LawfulBEq κ] [BEq κ'] [LawfulBEq κ'] in
theorem eq_iff_of_biUnique {a b : κ} {a' b' : κ'} (ha : K a a') (hb : K b b') :
    a = b ↔ a' = b' := by
  constructor
  · rintro rfl
    exact hK.2 ha hb
  · rintro rfl
    exact hK.1 ha hb

theorem beq_eq_beq {a b : κ} {a' b' : κ'} (ha : K a a') (hb : K b b') : (a == b) = (a' == b') := by
  rw [Bool.eq_iff_iff, beq_iff_eq, beq_iff_eq]
  exact eq_iff_of_biUnique hK ha hb

theorem Alike.find? (h : Alike K c c') (hkey : K key key') : c.find? key = c'.find? key' := by
  obtain ⟨_, hentries⟩ := h
  rw [Cache.find?, Cache.find?]
  generalize c.entries = entries at hentries
  generalize c'.entries = entries' at hentries
  induction hentries with
  | nil => rfl
  | cons he _ ih => rw [List.lookup_cons, List.lookup_cons, beq_eq_beq hK hkey he.1, he.2, ih]

theorem Alike.promote (h : Alike K c c') (hkey : K key key') :
    Alike K (c.promote key value) (c'.promote key' value) := by
  refine ⟨h.capacity, .cons ⟨hkey, rfl⟩ ?_⟩
  refine List.rel_filter (fun e e' he => ?_) h.entries
  dsimp only
  rw [beq_eq_beq hK he.1 hkey]

/-- **Looking up a value gives the same, and leaves caches alike.** -/
theorem Alike.get (h : Alike K c c') (hkey : K key key') :
    (c.get key).1 = (c'.get key').1 ∧ Alike K (c.get key).2 (c'.get key').2 := by
  rw [Cache.get, Cache.get, h.find? hK hkey]
  cases c'.find? key' with
  | none => exact ⟨rfl, h⟩
  | some value => exact ⟨rfl, h.promote hK hkey⟩

/-- **Adding a value leaves caches alike**: what is dropped stands at one place
in both. -/
theorem Alike.add (h : Alike K c c') (hkey : K key key') :
    Alike K (c.add key value) (c'.add key' value) := by
  have hgrown : Alike K (c.promote key value) (c'.promote key' value) := h.promote hK hkey
  refine ⟨hgrown.capacity, ?_⟩
  rw [Cache.add, Cache.add, h.capacity]
  exact List.forall₂_take _ hgrown.entries

end Cache

/-! ### Renderings -/

section renderings

variable {K : List UInt8 → List UInt8 → Prop} {cache cache' : RenderCache}

/-- An entry has corresponding keys and one rendering in two forms. -/
structure Entry.Twins (K : List UInt8 → List UInt8 → Prop) (e e' : Entry) : Prop where
  key : K e.key e'.key
  rendering : e.rendering = e'.rendering
  id : e.id = e'.id

theorem Entry.Twins.render {e e' : Entry} (hK : Relator.BiUnique K) (h : e.Twins K e')
    (hcache : Cache.Alike K cache cache') :
    (e.render cache).1 = (e'.render cache').1 ∧
      Cache.Alike K (e.render cache).2 (e'.render cache').2 := by
  have hfind := hcache.find? hK h.key
  cases hf : cache.find? e.key with
  | some r =>
    rw [render_of_some hf, render_of_some (hfind ▸ hf)]
    exact ⟨rfl, (hcache.get hK h.key).2⟩
  | none =>
    have hf' : cache'.find? e'.key = none := hfind ▸ hf
    cases hr : e.rendering with
    | error f =>
      rw [render_of_error hf hr, render_of_error hf' (h.rendering ▸ hr)]
      exact ⟨rfl, hcache⟩
    | ok r =>
      rw [render_of_none hf hr, render_of_none hf' (h.rendering ▸ hr)]
      exact ⟨rfl, hcache.add hK h.key⟩

/-- **Entries in two forms are rendered alike**, one after another. -/
theorem renderAll_alike (hK : Relator.BiUnique K) {form : Entry → Entry} :
    ∀ {es : List Entry} {cache cache' : RenderCache}, (∀ e ∈ es, e.Twins K (form e)) →
      Cache.Alike K cache cache' →
      (renderAll cache' (es.map form)).1 =
        (renderAll cache es).1.map fun rendered => rendered.map fun p => (form p.1, p.2) := by
  intro es
  induction es with
  | nil => exact fun _ _ => rfl
  | cons e rest ih =>
    intro cache cache' hes hcache
    obtain ⟨he, hrest⟩ := List.forall_mem_cons.mp hes
    obtain ⟨hfst, hsnd⟩ := he.render hK hcache
    rw [List.map_cons, renderAll, renderAll]
    generalize e.render cache = rendered at hfst hsnd
    generalize (form e).render cache' = rendered' at hfst hsnd
    obtain ⟨r, cache₁⟩ := rendered
    obtain ⟨r', cache₁'⟩ := rendered'
    obtain rfl : r = r' := hfst
    cases r with
    | error f =>
      dsimp only
      rw [he.id]
      rfl
    | ok r =>
      dsimp only
      rw [ih hrest hsnd]
      cases (renderAll cache₁ rest).1 <;> rfl

end renderings

/-! ### Canonical texts, name by name -/

namespace Bag

/-- No line feed stands in the canonical text of a value. -/
def Lined (b : Bag) : Prop := ∀ d ∈ b, '\n' ∉ d.2.canonicalChars

theorem names_eq_of_forall₂ {r : Value → Value → Prop} {b b' : Bag}
    (h : List.Forall₂ (SameName r) b b') : b.map (·.1) = b'.map (·.1) := by
  induction h with
  | nil => rfl
  | cons hd _ ih => rw [List.map_cons, List.map_cons, ih, hd.1]

/-- **Bags with the same names have one canonical text exactly if each value
has.** -/
theorem canonical_eq_iff {b b' : Bag} (hnames : List.Forall₂ (SameName fun _ _ => True) b b')
    (hb : b.Lined) (hb' : b'.Lined) (hnd : (b.map (·.1)).Nodup) :
    b.canonical = b'.canonical ↔
      ∀ n, (b.lookup n).map Value.canonical = (b'.lookup n).map Value.canonical := by
  rw [← String.toList_inj, toList_canonical, toList_canonical]
  induction hnames with
  | nil => simp
  | @cons d d' b b' hd hrest ih =>
    obtain ⟨n, v⟩ := d
    obtain ⟨n', w⟩ := d'
    obtain rfl : n = n' := hd.1
    obtain ⟨hv, hb⟩ := List.forall_mem_cons.mp hb
    obtain ⟨hw, hb'⟩ := List.forall_mem_cons.mp hb'
    obtain ⟨hnew, hnd⟩ := List.nodup_cons.mp hnd
    rw [List.flatMap_cons, List.flatMap_cons, lineChars_eq_iff hv hw, ih hb hb' hnd]
    constructor
    · rintro ⟨hvw, hrest⟩ m
      rw [List.lookup_cons, List.lookup_cons]
      cases m == n with
      | true => simp [hvw]
      | false => exact hrest m
    · intro h
      refine ⟨by simpa using h n, fun m => ?_⟩
      by_cases hm : m = n
      -- The name comes no second time.
      · subst hm
        have hnone : ∀ {l : Bag}, m ∉ l.map (·.1) → l.lookup m = none := by
          intro l hl
          rw [← Option.not_isSome_iff_eq_none, Value.isSome_lookup_iff]
          exact hl
        rw [hnone hnew, hnone (names_eq_of_forall₂ hrest ▸ hnew)]
      · have hm' := h m
        rwa [List.lookup_cons, List.lookup_cons, beq_eq_false_iff_ne.mpr hm] at hm'

end Bag

/-! ### Entries -/

variable {catalog catalog' : Catalog} {canvas : Canvas} {a : Arrangement} {e f : Entry}

/-- An entry of an instance whose properties suit its template. -/
structure Entry.Suits (e : Entry) (catalog : Catalog) : Prop where
  exists_instance : ∃ i t, catalog.template? i.template = some t ∧
    e.component = Component.ofInstance i t ∧ ∀ p ∈ t.properties, p.Fits i.properties

namespace Entry.Suits

theorem template_mem (h : e.Suits catalog) : e.component.template ∈ catalog.templates := by
  obtain ⟨i, t, ht, hc, _⟩ := h
  rw [hc]
  exact List.mem_of_find?_eq_some ht

/-- A template is found by its id. -/
theorem template_eq (h : e.Suits catalog) (h' : f.Suits catalog)
    (hid : e.component.template.id = f.component.template.id) :
    e.component.template = f.component.template := by
  obtain ⟨i, t, ht, hc, _⟩ := h
  obtain ⟨j, u, hu, hc', _⟩ := h'
  rw [hc, hc'] at hid ⊢
  have ht' : t.id = i.template := by simpa using List.find?_some ht
  have hu' : u.id = j.template := by simpa using List.find?_some hu
  have hids : t.id = u.id := hid
  rw [← ht', hids, hu', hu, Option.some_inj] at ht
  exact ht.symm

theorem relink (h : e.Suits catalog) (hext : catalog.Extends catalog') :
    (e.relink catalog').Suits catalog' := by
  obtain ⟨i, t, ht, hc, hfits⟩ := h
  refine ⟨i, catalog'.relink t, hext.template ht, ?_, hfits⟩
  rw [Entry.relink, hc]
  rfl

/-- What the template reads has no zero characters and no line feeds in its
canonical text. -/
theorem break_notMem (hsound : catalog.Sound) (h : e.Suits catalog) {x : Char}
    (hx : Text.IsBreak x) : ∀ d ∈ e.bindings, x ∉ d.2.canonicalChars := by
  obtain ⟨i, t, ht, hc, hfits⟩ := h
  intro d hd
  have hd := Value.mem_of_mem_sortNamed hd
  rw [List.mem_append, List.mem_append, hc, Component.values_ofInstance] at hd
  rcases hd with (hd | hd) | hd
  · obtain ⟨p, hp, rfl⟩ := List.mem_map.mp hd
    have hp' := hsound t (List.mem_of_find?_eq_some ht) p hp
    exact (p.plain_bind hp' (hfits p hp)).break_notMem_canonicalChars hx
  · obtain ⟨l, _, rfl⟩ := List.mem_map.mp hd
    obtain ⟨_, hplain, _⟩ := alike_texts Set.univ (e.linked l) []
    exact hplain.break_notMem_canonicalChars hx
  · rw [List.mem_singleton.mp hd]
    have hid (s : String) : (Value.string s).Plain ∅ none := .string s
    exact (hid _).break_notMem_canonicalChars hx

/-- Entries of one template bind the same names. -/
theorem sameNames (h : e.Suits catalog) (h' : f.Suits catalog)
    (htemplate : e.component.template = f.component.template) :
    List.Forall₂ (SameName fun _ _ => True) e.bindings f.bindings := by
  obtain ⟨i, t, ht, hc, _⟩ := h
  obtain ⟨j, u, hu, hc', _⟩ := h'
  obtain rfl : t = u := by
    rw [hc, hc'] at htemplate
    exact htemplate
  refine forall₂_sortNamed (List.rel_append (List.rel_append ?_ ?_) (.cons ⟨rfl, trivial⟩ .nil))
  · rw [hc, hc', Component.values_ofInstance, Component.values_ofInstance,
      List.forall₂_map_left_iff, List.forall₂_map_right_iff, List.forall₂_same]
    exact fun p _ => ⟨rfl, trivial⟩
  · rw [htemplate, List.forall₂_map_left_iff, List.forall₂_map_right_iff, List.forall₂_same]
    exact fun l _ => ⟨rfl, trivial⟩

/-- **When two entries are rendered under one message**: they have one
template, and what each name stands for has one canonical text. -/
theorem message_eq_iff (hsound : catalog.Sound) (h : e.Suits catalog) (h' : f.Suits catalog) :
    e.message = f.message ↔ e.component.template = f.component.template ∧
      ∀ n, (e.bindings.lookup n).map Value.canonical =
        (f.bindings.lookup n).map Value.canonical := by
  have hnul : ∀ {e : Entry}, e.Suits catalog → '\x00' ∉ e.bindings.canonical.toList :=
    fun h => Bag.nul_notMem_canonical (h.break_notMem hsound (.inl rfl))
  have hcanonical := fun htemplate => Bag.canonical_eq_iff (h.sameNames h' htemplate)
    (h.break_notMem hsound (.inr rfl)) (h'.break_notMem hsound (.inr rfl))
    (Value.ascending_sortNamed _).nodup
  constructor
  · intro hmessage
    obtain ⟨hid, hbindings⟩ := eq_of_joined_eq_right (hnul h) (hnul h') hmessage
    have htemplate := h.template_eq h' hid
    exact ⟨htemplate, (hcanonical htemplate).mp hbindings⟩
  · rintro ⟨htemplate, hbindings⟩
    rw [Entry.message, Entry.message, htemplate, (hcanonical htemplate).mpr hbindings]

end Entry.Suits

/-! ### Links -/

/-- What the names of an entry stand for, with further links. -/
theorem lookup_bindings_relink (hext : catalog.Extends catalog') (h : e.Suits catalog)
    (hlinked : ∀ l ∉ e.component.template.links, e.linked l = []) (n : String) :
    (e.relink catalog').bindings.lookup n =
      if n ∈ (catalog'.relink e.component.template).links ∧ n ∉ e.component.template.links ∧
        n ≠ "id" then some (Value.texts []) else e.bindings.lookup n := by
  have hsubset := hext.links_subset _ h.template_mem
  have hlookup := lookup_ofList_links e.component.properties.values e.component.template.links
    (fun l => Value.texts (e.linked l)) (.text e.id) n
  have hlookup' := lookup_ofList_links e.component.properties.values
    (catalog'.relink e.component.template).links (fun l => Value.texts (e.linked l)) (.text e.id) n
  refine hlookup'.trans ?_
  rw [show e.bindings.lookup n = _ from hlookup]
  by_cases hid : n = "id"
  · simp [hid]
  by_cases hold : n ∈ e.component.template.links
  · simp [hid, hold, hsubset hold]
  by_cases hnew : n ∈ (catalog'.relink e.component.template).links
  · simp [hid, hold, hnew, hlinked n hold]
  · simp [hid, hold, hnew]

/-- Further links have none of the names that were bound. -/
theorem lookup_bindings_eq_none (hext : catalog.Extends catalog') (h : e.Suits catalog) {n : String}
    (hnew : n ∈ (catalog'.relink e.component.template).links)
    (hold : n ∉ e.component.template.links) (hid : n ≠ "id") : e.bindings.lookup n = none := by
  have hmem := h.template_mem
  obtain ⟨i, t, ht, hc, _⟩ := h
  obtain ⟨component, links⟩ := e
  obtain rfl : component = Component.ofInstance i t := hc
  rw [← Option.not_isSome_iff_eq_none, Value.isSome_lookup_iff]
  intro hn
  rcases Component.mem_names_bindings.mp hn with hproperty | hlink | h
  · obtain ⟨p, hp, rfl⟩ := List.mem_map.mp hproperty
    exact (hext.unshadowed t hmem p hp).1 hnew
  · exact hold hlink
  · exact hid h

/-- **Two entries are rendered under one message exactly if they were before.** -/
theorem message_relink_eq_iff (hext : catalog.Extends catalog') (hsound : catalog.Sound)
    (hsound' : catalog'.Sound) (he : e.Suits catalog) (hf : f.Suits catalog)
    (hlinked : ∀ l ∉ e.component.template.links, e.linked l = [])
    (hlinked' : ∀ l ∉ f.component.template.links, f.linked l = []) :
    (e.relink catalog').message = (f.relink catalog').message ↔ e.message = f.message := by
  rw [(he.relink hext).message_eq_iff hsound' (hf.relink hext), he.message_eq_iff hsound hf]
  have htemplate : (e.relink catalog').component.template = (f.relink catalog').component.template ↔
      e.component.template = f.component.template := by
    constructor
    · intro h
      have hid : (e.relink catalog').component.template.id =
          (f.relink catalog').component.template.id := congrArg Template.id h
      exact he.template_eq hf hid
    · intro h
      exact congrArg catalog'.relink h
  rw [htemplate]
  refine and_congr_right fun hsame => forall_congr' fun n => ?_
  rw [lookup_bindings_relink hext he hlinked, lookup_bindings_relink hext hf hlinked', hsame]
  split
  · rename_i hnew
    rw [lookup_bindings_eq_none hext he (hsame ▸ hnew.1) (hsame ▸ hnew.2.1) hnew.2.2,
      lookup_bindings_eq_none hext hf hnew.1 hnew.2.1 hnew.2.2]
    simp
  · rfl

/-! ### The document -/

theorem Document.ofRendered_relink (h : Header) (sizes : List Nat)
    (rendered : List (Entry × Rendered)) :
    Document.ofRendered h sizes (rendered.map fun p => (p.1.relink catalog, p.2)) =
      Document.ofRendered h sizes rendered := by
  have hblocks : Document.blocks sizes (rendered.map fun p => (p.1.relink catalog, p.2)) =
      Document.blocks sizes rendered := by
    simp only [Document.blocks, List.map_map, Function.comp_def]
  simp only [Document.ofRendered, hblocks, List.flatMap_map, List.foldl_map]
  rfl

/-- The entries of a canvas that has no errors suit their templates. -/
theorem Canvas.suits_of_validate {findings : List Diagnostic}
    (hv : canvas.validate catalog = .ok findings) (herr : Diagnostic.hasErrors findings = false)
    (ha : canvas.arrange catalog = .ok (.ok a)) (he : e ∈ a.entries) : e.Suits catalog := by
  obtain ⟨ks, bound, hks, hparts⟩ := validate_eq_ok hv
  obtain ⟨_, hbad⟩ := (hasErrors_components hks).mp (hparts.mp herr).1
  obtain ⟨ks', _, us, hks', _, _, _, _, hblocks⟩ := blocks_of_arrange ha
  obtain ⟨rfl, _⟩ := Prod.mk.inj (Except.ok.inj (hks.symm.trans hks'))
  obtain ⟨s, hs, hes⟩ := List.mem_flatMap.mp he
  obtain ⟨k, hk, rfl⟩ := List.mem_map.mp (((hblocks s hs).mem_iff e).mp hes).1
  obtain ⟨i, _, t, ht, rfl⟩ := exists_instance_of_mem_components hks hk
  exact ⟨i, t, ht, rfl, Component.hasBad_ofInstance.mp (hbad _ hk)⟩

/-- **An arrangement is written as it was.** -/
theorem Arrangement.emit_relink (hext : catalog.Extends catalog') (hsound : catalog.Sound)
    (hsound' : catalog'.Sound) (ha : canvas.arrange catalog = .ok (.ok a))
    (ha' : canvas.arrange catalog' = .ok (.ok (a.relink catalog')))
    (hsuits : ∀ e ∈ a.entries, e.Suits catalog) (htell : canvas.DigestsTell catalog)
    (htell' : canvas.DigestsTell catalog') (h : Header) (capacity : Nat) :
    ((a.relink catalog').emit h (RenderCache.new capacity)).1 =
      (a.emit h (RenderCache.new capacity)).1 := by
  have hlinked : ∀ e ∈ a.entries, ∀ l ∉ e.component.template.links, e.linked l = [] :=
    fun e he l hl => Canvas.linked_eq_nil hext.links_eq ha he hl
  have hmem' : ∀ e ∈ a.entries, e.relink catalog' ∈ (a.relink catalog').entries := by
    intro e he
    rw [entries_relink]
    exact List.mem_map_of_mem he
  -- Keys correspond if they are those of one entry, before and after.
  let K : List UInt8 → List UInt8 → Prop :=
    fun key key' => ∃ e ∈ a.entries, e.key = key ∧ (e.relink catalog').key = key'
  have hkeys : ∀ e ∈ a.entries, ∀ f ∈ a.entries,
      (e.relink catalog').key = (f.relink catalog').key ↔ e.key = f.key := by
    intro e he f hf
    rw [Entry.key_eq, Entry.key_eq, Entry.key_eq, Entry.key_eq]
    refine ((htell' _ ha').eq_iff ⟨_, hmem' e he, rfl⟩ ⟨_, hmem' f hf, rfl⟩).trans ?_
    refine Iff.trans ?_ ((htell a ha).eq_iff ⟨e, he, rfl⟩ ⟨f, hf, rfl⟩).symm
    exact message_relink_eq_iff hext hsound hsound' (hsuits e he) (hsuits f hf) (hlinked e he)
      (hlinked f hf)
  have hK : Relator.BiUnique K := by
    constructor
    · rintro _ _ _ ⟨e, he, rfl, hkey⟩ ⟨f, hf, rfl, hkey'⟩
      exact (hkeys e he f hf).mp (hkey.trans hkey'.symm)
    · rintro _ _ _ ⟨e, he, hkey, rfl⟩ ⟨f, hf, hkey', rfl⟩
      exact (hkeys e he f hf).mpr (hkey.trans hkey'.symm)
  have htwins : ∀ e ∈ a.entries, e.Twins K (e.relink catalog') := fun e he =>
    ⟨⟨e, he, rfl, rfl⟩, (hext.rendering_relink (hsuits e he).template_mem).symm, rfl⟩
  have hsizes : (a.relink catalog').sizes = a.sizes := by
    simp [relink, sizes, Function.comp_def]
  rw [emit, emit, entries_relink, hsizes]
  dsimp only
  rw [renderAll_alike hK htwins ⟨rfl, .nil⟩]
  cases (renderAll (RenderCache.new capacity) a.entries).1 with
  | error e => rfl
  | ok rendered => exact congrArg Except.ok (Document.ofRendered_relink _ _ rendered)

/-- **A pack changes nothing for a canvas that needs none.**  Files are added to
those of a catalog, and both are catalogs.  If the smaller one writes a canvas,
so does the larger one, with the same document, the same interface, the same
findings and the same order, whatever categories, rules and links were added.
Digests tell apart what is rendered. -/
theorem Compiler.pack_keeps_emitted {files more : List (String × String)}
    (hfiles : Catalog.ofFiles files = .ok catalog)
    (hmore : Catalog.ofFiles (files ++ more) = .ok catalog') {header : Header} {capacity : Nat}
    {r : CompileResult} (htell : canvas.DigestsTell catalog) (htell' : canvas.DigestsTell catalog')
    (hr : ((new catalog capacity).compile canvas header false).1 = .ok r)
    (hemitted : r.status = .emitted) :
    ((new catalog' capacity).compile canvas header false).1 = .ok r := by
  have hext := Catalog.extends_of_ofFiles hfiles hmore
  have hrejected : Status.rejected ≠ Status.emitted := by decide
  rw [compile_new] at hr ⊢
  obtain ⟨findings, hv, ⟨_, _, rfl⟩ | ⟨a, ha, ⟨_, rfl⟩ | ⟨herr, document, x, hdocument, hx, rfl⟩⟩⟩ :=
    run_eq_ok hr
  · exact absurd hemitted hrejected
  · exact absurd hemitted hrejected
  -- A canvas without errors has connections that are allowed.
  obtain ⟨ks, bound, hks, hparts⟩ := Canvas.validate_eq_ok hv
  have hconnected := (Canvas.hasErrors_connectionFindings_iff hks).mp (hparts.mp herr).2.2.2.2
  have ha' := Canvas.arrange_relink hext ha hconnected
  have hemit := Arrangement.emit_relink hext (Catalog.sound_of_ofFiles hfiles)
    (Catalog.sound_of_ofFiles hmore) ha ha'
    (fun e he => Canvas.suits_of_validate hv herr ha he) htell htell' header.withDefaults
  have hx' : (a.relink catalog').interface? = some x := a.interface?_relink.trans hx
  refine (run_of_emit (Canvas.validate_relink hext hv hconnected) ha' herr
    ((hemit _).trans hdocument) hx').trans ?_
  rw [Arrangement.order_relink]

/-- A pack has a link for the guards of the standard catalog, and a guard that tells of an
event is written as it was. -/
theorem Compiler.pack_keeps_watched : ∃ catalog' r,
    Catalog.ofFiles (Catalog.standardFiles ++
      Catalog.auditLines.map fun f => (f.1, Catalog.textOfLines f.2)) = .ok catalog' ∧
    ((new Catalog.standard 1).compile Canvas.watched {} false).1 = .ok r ∧
    r.status = .emitted ∧ ((new catalog' 1).compile Canvas.watched {} false).1 = .ok r := by
  obtain ⟨hfiles, hpasses⟩ := Catalog.passesStandard_standard
  obtain ⟨catalog', hmore, haudited⟩ := Catalog.exists_audited
  obtain ⟨r, hr, hemitted, -⟩ := exists_emitted_of_isSound hpasses.watched 1 {}
  refine ⟨catalog', r, hmore, hr, hemitted, ?_⟩
  exact pack_keeps_emitted hfiles hmore
    (Canvas.digestsTell_of_hasMessages hpasses.messages (injOn_watchedMessages.mono (by simp [watchedMessages])))
    (Canvas.digestsTell_of_hasMessages haudited (injOn_watchedMessages.mono (by simp [watchedMessages])))
    hr hemitted

end SolidityCanvas
