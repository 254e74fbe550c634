/-
What the keys of a compiler say.

A key is the digest of a message.  Where digests do not collide:

* `Entry.rendering_eq_of_message_eq`: the key of a rendering tells what is
  rendered, if no two numbers are written alike;
* `Call.message_eq_iff`: the key of a result tells the content text of the canvas
  and the three texts of the header, joined by zero characters.

The content text tells the instances and the connections of a canvas that was
read from a document (`Canvas.eq_of_contentText_eq`), but the joined texts of
a header tell the header only if no zero character stands in the first two
(`Header.joined_inj`).
-/
import SolidityCanvas.Proofs.Arrangement.Order
import SolidityCanvas.Proofs.Catalog.Schema
import SolidityCanvas.Proofs.Compiler.Memory
import SolidityCanvas.Proofs.Validation.Verdict

namespace SolidityCanvas

/-! ### Texts joined by a zero character -/

theorem ne_nul_of_notMem {l : List Char} (h : '\x00' ∉ l) : ∀ c ∈ l, c ≠ '\x00' := by
  rintro c hc rfl
  exact h hc

/-- The first text is told if it has no zero character. -/
theorem eq_of_joined_eq {a b c d : String} (ha : '\x00' ∉ a.toList) (hb : '\x00' ∉ b.toList)
    (h : a ++ "\x00" ++ c = b ++ "\x00" ++ d) : a = b ∧ c = d := by
  simp only [← String.toList_inj, String.toList_append, List.append_assoc] at h ⊢
  have hstops : ∀ s, Text.Stops (· ≠ '\x00') ('\x00' :: s) := fun s => Text.stops_cons (by simp) s
  obtain ⟨hab, hcd⟩ := Text.eq_of_append_eq (ne_nul_of_notMem ha) (ne_nul_of_notMem hb)
    (hstops _) (hstops _) h
  exact ⟨hab, (List.cons.inj hcd).2⟩

/-- So is the second one. -/
theorem eq_of_joined_eq_right {a b c d : String} (hc : '\x00' ∉ c.toList)
    (hd : '\x00' ∉ d.toList) (h : a ++ "\x00" ++ c = b ++ "\x00" ++ d) : a = b ∧ c = d := by
  simp only [← String.toList_inj, String.toList_append, List.append_assoc] at h ⊢
  have hstops : ∀ s, Text.Stops (· ≠ '\x00') ('\x00' :: s) := fun s => Text.stops_cons (by simp) s
  -- Seen from the end it is the first one.
  have hrev : c.toList.reverse ++ '\x00' :: a.toList.reverse =
      d.toList.reverse ++ '\x00' :: b.toList.reverse := by
    simpa using congrArg List.reverse h
  obtain ⟨hcd, hab⟩ := Text.eq_of_append_eq (ne_nul_of_notMem (by simpa using hc))
    (ne_nul_of_notMem (by simpa using hd)) (hstops _) (hstops _) hrev
  exact ⟨List.reverse_inj.mp (List.cons.inj hab).2, List.reverse_inj.mp hcd⟩

/-! ### Headers -/

namespace Header

/-- The texts of a header with their defaults, joined by zero characters. -/
def joined (h : Header) : String :=
  h.withDefaults.contractName ++ "\x00" ++
    (h.withDefaults.license ++ "\x00" ++ h.withDefaults.pragma)

/-- No zero character stands where the key of a result puts one. -/
def Separated (h : Header) : Prop := '\x00' ∉ h.contractName.toList ∧ '\x00' ∉ h.license.toList

instance : DecidablePred Separated := fun _ => inferInstanceAs (Decidable (_ ∧ _))

theorem Separated.withDefaults {h : Header} (hs : h.Separated) : h.withDefaults.Separated := by
  constructor
  · change '\x00' ∉ (if h.contractName.isEmpty then _ else h.contractName : String).toList
    split
    · decide
    · exact hs.1
  · change '\x00' ∉ (if h.license.isEmpty then _ else h.license : String).toList
    split
    · decide
    · exact hs.2

theorem joined_inj {h k : Header} (hh : h.Separated) (hk : k.Separated)
    (heq : h.joined = k.joined) : h.withDefaults = k.withDefaults := by
  obtain ⟨hname, hlicense⟩ := hh.withDefaults
  obtain ⟨hname', hlicense'⟩ := hk.withDefaults
  obtain ⟨hnames, hrest⟩ := eq_of_joined_eq hname hname' heq
  obtain ⟨hlicenses, hpragmas⟩ := eq_of_joined_eq hlicense hlicense' hrest
  generalize h.withDefaults = h at hnames hlicenses hpragmas
  generalize k.withDefaults = k at hnames hlicenses hpragmas
  obtain ⟨_, _, _⟩ := h
  obtain ⟨_, _, _⟩ := k
  simp_all

end Header

/-! ### Messages -/

theorem length_digest (message : List UInt8) : (Keccak.digest message).length = 32 := by
  simp [Keccak.digest, Keccak.bytesOfWord, List.length_flatMap]

theorem bytes_joined (a b : String) :
    a.toUTF8.toList ++ 0 :: b.toUTF8.toList = (a ++ "\x00" ++ b).toUTF8.toList := by
  have hnul : "\x00".toUTF8.toList = [0] := by
    rw [Text.bytes_eq]
    decide
  rw [Text.bytes_append, Text.bytes_append, List.append_assoc, hnul]
  rfl

/-- What the key of a rendering is the digest of. -/
def Entry.message (e : Entry) : String :=
  e.component.template.id ++ "\x00" ++ e.bindings.canonical

theorem Entry.key_eq (e : Entry) : e.key = Keccak.digest e.message.toUTF8.toList := by
  rw [Entry.key, renderKey, bytes_joined]
  rfl

/-- The entries of a canvas have messages with different digests if the messages
are different. -/
def Canvas.DigestsTell (canvas : Canvas) (catalog : Catalog) : Prop :=
  ∀ a, canvas.arrange catalog = .ok (.ok a) →
    Set.InjOn keccak256 {s | ∃ e ∈ a.entries, e.message = s}

/-- Whether a canvas has entries with these messages. -/
def Canvas.hasMessages (canvas : Canvas) (messages : List String) (catalog : Catalog) : Bool :=
  match canvas.arrange catalog with
  | .ok (.ok a) => a.entries.map (·.message) == messages
  | _ => false

theorem Canvas.digestsTell_of_hasMessages {canvas : Canvas} {messages : List String}
    {catalog : Catalog} (h : canvas.hasMessages messages catalog = true)
    (hinj : Set.InjOn keccak256 {s | s ∈ messages}) : canvas.DigestsTell catalog := by
  intro a ha
  rw [hasMessages, ha, beq_iff_eq] at h
  rintro _ ⟨e, he, rfl⟩ _ ⟨f, hf, rfl⟩ hdigest
  have hmem : ∀ e ∈ a.entries, e.message ∈ messages := fun e he => h ▸ List.mem_map_of_mem he
  exact hinj (hmem e he) (hmem f hf) hdigest

namespace Call

/-- What the key of a result is the digest of. -/
def message (x : Call) : List UInt8 :=
  keccak256 x.canvas.contentText ++ x.header.joined.toUTF8.toList

theorem key_eq (x : Call) : x.key = Keccak.digest x.message := by
  rw [key, Compiler.resultKey, message, Header.joined, ← bytes_joined, ← bytes_joined]
  simp

theorem message_eq_iff {x y : Call} : x.message = y.message ↔
    keccak256 x.canvas.contentText = keccak256 y.canvas.contentText ∧
      x.header.joined = y.header.joined := by
  constructor
  · intro h
    -- The first digest has a fixed length, so that the joined texts begin at one place.
    have hlength : (keccak256 x.canvas.contentText).length =
        (keccak256 y.canvas.contentText).length := by
      rw [keccak256, keccak256, length_digest, length_digest]
    obtain ⟨hcontent, hheader⟩ := List.append_inj h hlength
    exact ⟨hcontent, Text.bytes_inj hheader⟩
  · rintro ⟨hcontent, hheader⟩
    rw [message, message, hcontent, hheader]

end Call

/-! ### Renderings -/

/-- The numbers in the defaults of a catalog. -/
def Catalog.numbers (c : Catalog) : Set Number :=
  {n | ∃ t ∈ c.templates, ∃ p ∈ t.properties, ∃ v, p.default = some v ∧ n ∈ v.numbers}

/-- Plain values with sequences of one form. -/
def Value.Alike (N : Set Number) (v w : Value) : Prop := ∃ form, v.Plain N form ∧ w.Plain N form

/-- The numbers in the properties of an entry. -/
def Entry.numbers (e : Entry) : Set Number :=
  {n | ∃ d ∈ e.component.properties.values, n ∈ d.2.numbers}

section renderings

variable {catalog : Catalog} {x y : Call} {e e' : Entry} {i i' : Instance} {t t' : Template}
  {N : Set Number}

theorem alike_texts (N : Set Number) (ss ss' : List String) :
    Value.Alike N (Value.texts ss) (Value.texts ss') := by
  have hplain : ∀ ss : List String, (Value.texts ss).Plain N (some .string) := by
    refine fun ss => .list rfl rfl fun v hv => ?_
    obtain ⟨s, _, rfl⟩ := List.mem_map.mp hv
    exact .string _
  exact ⟨some .string, hplain ss, hplain ss'⟩

namespace Entry

/-- Templates with one id are one template. -/
theorem template_eq (ht : catalog.template? i.template = some t)
    (ht' : catalog.template? i'.template = some t') (hid : t.id = t'.id) : t = t' := by
  -- A template is found by its id.
  have hname : t.id = i.template := by simpa using List.find?_some ht
  have hname' : t'.id = i'.template := by simpa using List.find?_some ht'
  rw [← hname, hid, hname', ht', Option.some_inj] at ht
  exact ht.symm

/-- The variables of two entries of one template belong together. -/
theorem alike_bindings (hsound : ∀ p ∈ t.properties, p.Sound)
    (hc : e.component = Component.ofInstance i t) (hc' : e'.component = Component.ofInstance i' t)
    (hN : e.numbers ⊆ N) (hN' : e'.numbers ⊆ N) :
    List.Forall₂ (SameName (Value.Alike N)) e.bindings e'.bindings := by
  have htemplate : e.component.template = t := by rw [hc]; rfl
  have htemplate' : e'.component.template = t := by rw [hc']; rfl
  rw [numbers, hc, Component.values_ofInstance] at hN
  rw [numbers, hc', Component.values_ofInstance] at hN'
  -- Variables are the values of the properties, the names of the links and the id.
  refine forall₂_sortNamed (List.rel_append (List.rel_append ?_ ?_) ?_)
  · rw [hc, hc', Component.values_ofInstance, Component.values_ofInstance,
      List.forall₂_map_left_iff, List.forall₂_map_right_iff, List.forall₂_same]
    intro p hp
    have hplain := p.plain_bind_self (hsound p hp)
    exact ⟨rfl, p.type.element?,
      (hplain i.id i.properties).mono fun n hn => hN ⟨_, List.mem_map.mpr ⟨p, hp, rfl⟩, hn⟩,
      (hplain i'.id i'.properties).mono fun n hn => hN' ⟨_, List.mem_map.mpr ⟨p, hp, rfl⟩, hn⟩⟩
  · rw [htemplate, htemplate', List.forall₂_map_left_iff, List.forall₂_map_right_iff,
      List.forall₂_same]
    exact fun l _ => ⟨rfl, alike_texts N _ _⟩
  · exact .cons ⟨rfl, none, .string _, .string _⟩ .nil

theorem nul_notMem_bindings (hsound : ∀ p ∈ t.properties, p.Sound)
    (hc : e.component = Component.ofInstance i t) : '\x00' ∉ e.bindings.canonical.toList := by
  have halike := alike_bindings hsound hc hc (Set.subset_univ _) (Set.subset_univ _)
  refine Bag.nul_notMem_canonical fun d hd => ?_
  obtain ⟨_, _, hplain, _⟩ := List.forall₂_same.mp halike d hd
  exact hplain.break_notMem_canonicalChars (.inl rfl)

/-- **A message tells what is rendered**, if values are told apart. -/
theorem rendering_eq_of_message_eq (hsound : catalog.Sound)
    (ht : catalog.template? i.template = some t) (hc : e.component = Component.ofInstance i t)
    (ht' : catalog.template? i'.template = some t') (hc' : e'.component = Component.ofInstance i' t')
    (hN : e.numbers ⊆ N) (hN' : e'.numbers ⊆ N)
    (htold : ∀ form v w, Value.Plain N form v → Value.Plain N form w →
      Text.Told Number.IsNumeral Value.canonicalChars v w)
    (h : e.message = e'.message) : e.rendering = e'.rendering := by
  have hproperties := hsound t (List.mem_of_find?_eq_some ht)
  have hproperties' := hsound t' (List.mem_of_find?_eq_some ht')
  have htemplate : e.component.template = t := by rw [hc]; rfl
  have htemplate' : e'.component.template = t' := by rw [hc']; rfl
  -- The id of a template may have zero characters, but what follows it has none.
  obtain ⟨hid, hcanonical⟩ := eq_of_joined_eq_right (nul_notMem_bindings hproperties hc)
    (nul_notMem_bindings hproperties' hc') h
  rw [htemplate, htemplate'] at hid
  obtain rfl := template_eq ht ht' hid
  have hbindings : e.bindings = e'.bindings := by
    refine Bag.canonical_inj_of_forall₂ ((alike_bindings hproperties hc hc' hN hN').imp ?_)
      hcanonical
    rintro d d' ⟨_, form, hv, hw⟩
    exact htold form _ _ hv hw
  rw [rendering, rendering, htemplate, htemplate', hbindings]

end Entry

/-- What is rendered comes from an instance whose properties suit its
template. -/
theorem Call.exists_instance (he : e ∈ x.Renders catalog) : ∃ i ∈ x.canvas.instances, ∃ t,
    catalog.template? i.template = some t ∧ e.component = Component.ofInstance i t ∧
      ∀ p ∈ t.properties, p.Fits i.properties := by
  obtain ⟨findings, a, hv, herr, ha, he⟩ := he
  obtain ⟨ks, bound, hks, hparts⟩ := Canvas.validate_eq_ok hv
  obtain ⟨_, hbad⟩ := (Canvas.hasErrors_components hks).mp (hparts.mp herr).1
  obtain ⟨ks', _, us, hks', _, _, _, _, hblocks⟩ := Canvas.blocks_of_arrange ha
  obtain ⟨rfl, _⟩ := Prod.mk.inj (Except.ok.inj (hks.symm.trans hks'))
  obtain ⟨s, hs, hes⟩ := List.mem_flatMap.mp (mem_of_mem_reached he)
  obtain ⟨k, hk, rfl⟩ := List.mem_map.mp (((hblocks s hs).mem_iff e).mp hes).1
  obtain ⟨i, hi, hik⟩ := Canvas.componentAt?_eq_some.mp ((Canvas.mem_components hks).mp hk)
  obtain ⟨t, ht, rfl⟩ := Canvas.componentOf?_eq_some.mp hik
  exact ⟨i, List.mem_of_find?_eq_some hi, t, ht, rfl, Component.hasBad_ofInstance.mp (hbad _ hk)⟩

/-- The numbers that are rendered are those of the canvas and of defaults. -/
theorem Call.numbers_subset (hsound : catalog.Sound) (hcatalog : catalog.numbers ⊆ N)
    (hx : x.canvas.numbers ⊆ N) (he : e ∈ x.Renders catalog) : e.numbers ⊆ N := by
  obtain ⟨i, hi, t, ht, hc, hfits⟩ := exists_instance he
  have hmem : t ∈ catalog.templates := List.mem_of_find?_eq_some ht
  rintro n ⟨d, hd, hn⟩
  rw [hc, Component.values_ofInstance] at hd
  obtain ⟨p, hp, rfl⟩ := List.mem_map.mp hd
  rcases (p.plain_bind (hsound t hmem p hp) (hfits p hp)).mem_of_mem_numbers n hn with ⟨d, hd, hn⟩ | ⟨v, hv, hn⟩
  · exact hx ⟨i, hi, d, hd, hn⟩
  · exact hcatalog ⟨t, hmem, p, hp, v, hv, hn⟩

end renderings

end SolidityCanvas
