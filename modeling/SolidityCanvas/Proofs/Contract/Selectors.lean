/-
Which functions and events keep their identifiers.

The selectors of an interface are one list for functions and events, by their
signatures.

* `Arrangement.lookup_selectors`: of the entries with one signature the last one
  that is exported gives the identifier;
* `Arrangement.keepSelectors_iff`: so all keep theirs exactly if no function has the
  signature of an event;
* `Compiler.selectors_of_emitted`: the same of a canvas that is written.
-/
import SolidityCanvas.Proofs.Catalog.Build
import SolidityCanvas.Proofs.Catalog.Regular
import SolidityCanvas.Proofs.Compiler.Keys
import SolidityCanvas.Proofs.Contract.Interface
import SolidityCanvas.Proofs.Validation.Verdict

namespace SolidityCanvas

/-! ### Identifiers -/

theorem length_hexText (bs : List UInt8) : (hexText bs).length = 2 + 2 * bs.length := by
  have htwo : "0x".length = 2 := rfl
  rw [hexText, String.length_append, htwo, String.length_ofList, List.length_flatMap]
  simp only [Text.length_hexPadded, List.map_const', List.sum_replicate_nat]
  omega

/-- A selector is shorter than the digest of an event. -/
theorem selectorText_ne_topicText (sig sig' : String) : selectorText sig ≠ topicText sig' := by
  intro h
  have hlength := congrArg String.length h
  rw [selectorText, topicText, keccakText, length_hexText, length_hexText, keccak256, keccak256,
    List.length_take, length_digest, length_digest] at hlength
  omega

namespace Entry

variable {e f : Entry}

/-- Two entries have one identifier for a signature exactly if both are events or
neither is. -/
theorem identifier_eq_iff {sig : String} :
    f.identifier sig = e.identifier sig ↔ f.isEvent = e.isEvent := by
  rw [identifier, identifier]
  cases f.isEvent <;> cases e.isEvent <;>
    simp [selectorText_ne_topicText, (selectorText_ne_topicText _ _).symm]

/-- What is exported has a signature, unless it is the constructor. -/
theorem exists_signature_of_exportable {u : UserTypes} (h : e.isExportable u = true)
    (hpart : e.takesPart = true) (hkind : e.component.template.kind ≠ .creation) :
    ∃ sig, e.signature? u = some sig := by
  rw [isExportable, List.all_append, Bool.and_eq_true] at h
  obtain ⟨ps, hps⟩ := exists_marshalParameters_iff.mpr h.1
  rw [takesPart] at hpart
  rw [signature?, hps]
  split at hpart
  case h_1 hevent => exact ⟨_, by rw [hevent]; rfl⟩
  case h_2 hcreation => exact absurd hcreation hkind
  case h_3 hfunction => exact ⟨_, by rw [hfunction]; rfl⟩
  case h_4 => cases hpart

end Entry

/-! ### The last entry with a signature -/

namespace Arrangement

variable {a : Arrangement} {e f : Entry} {sig : String}

/-- The last entry with a signature among those that are exported. -/
def holder? (a : Arrangement) (sig : String) : Option Entry :=
  (a.exported.filter fun e => e.signature? a.userTypes == some sig).getLast?

/-- The entry is found by its signature with the identifier that belongs to it. -/
def KeepsSelector (a : Arrangement) (x : Interface) (e : Entry) : Prop :=
  ∀ sig, e.signature? a.userTypes = some sig →
    x.selectors.lookup sig = some (e.identifier sig)

variable {x : Interface} (hx : a.interface? = some x)

include hx

/-- **The last entry with a signature gives the identifier.** -/
theorem lookup_selectors (sig : String) :
    x.selectors.lookup sig = (a.holder? sig).map (·.identifier sig) := by
  rw [selectors_interface hx, holder?]
  exact Value.lookup_sortNamed_filterMap _ Entry.identifier _ _

omit hx in
theorem exists_holder (he : e ∈ a.exported) (hsig : e.signature? a.userTypes = some sig) :
    ∃ f ∈ a.exported, a.holder? sig = some f ∧ f.signature? a.userTypes = some sig := by
  have hmem : e ∈ a.exported.filter fun e => e.signature? a.userTypes == some sig :=
    List.mem_filter.mpr ⟨he, by simp [hsig]⟩
  obtain ⟨f, hf⟩ := Option.isSome_iff_exists.mp
    (List.getLast?_isSome.mpr (List.ne_nil_of_mem hmem))
  obtain ⟨hexported, hsame⟩ := List.mem_filter.mp (List.mem_of_getLast? hf)
  exact ⟨f, hexported, hf, by simpa using hsame⟩

/-- An entry keeps its identifier exactly if the last one with its signature is
of its kind. -/
theorem lookup_selectors_eq_iff (hf : a.holder? sig = some f) :
    x.selectors.lookup sig = some (e.identifier sig) ↔ f.isEvent = e.isEvent := by
  rw [lookup_selectors hx, hf, Option.map_some, Option.some_inj, Entry.identifier_eq_iff]

/-- **All entries keep their identifiers exactly if no function has the signature
of an event.** -/
theorem keepSelectors_iff : (∀ e ∈ a.exported, a.KeepsSelector x e) ↔
    ∀ e ∈ a.exported, ∀ f ∈ a.exported, ∀ sig, e.signature? a.userTypes = some sig →
      f.signature? a.userTypes = some sig → e.isEvent = f.isEvent := by
  constructor
  · intro h e he f hf sig hesig hfsig
    have hidentifier := (h e he sig hesig).symm.trans (h f hf sig hfsig)
    exact Entry.identifier_eq_iff.mp (Option.some_inj.mp hidentifier)
  · intro h e he sig hsig
    obtain ⟨f, hf, hholder, hfsig⟩ := exists_holder he hsig
    exact (lookup_selectors_eq_iff hx hholder).mpr (h f hf e he sig hfsig hsig)

end Arrangement

/-! ### Canvases that are written -/

namespace Compiler

variable {catalog : Catalog} {canvas : Canvas} {capacity : Nat} {header : Header}
  {r : CompileResult}

/-- The interface of a canvas that is written is that of its arrangement. -/
theorem interface_of_emitted (hr : ((new catalog capacity).compile canvas header false).1 = .ok r)
    (hemitted : r.status = .emitted) :
    ∃ a x, canvas.arrange catalog = .ok (.ok a) ∧ a.interface? = some x ∧
      r.interface = some x := by
  have hrejected : Status.rejected ≠ Status.emitted := by decide
  rw [compile_new] at hr
  obtain ⟨_, -, ⟨_, -, rfl⟩ | ⟨a, ha, ⟨-, rfl⟩ | ⟨-, _, x, -, hx, rfl⟩⟩⟩ :=
    run_eq_ok hr
  · exact absurd hemitted hrejected
  · exact absurd hemitted hrejected
  · exact ⟨a, x, ha, hx, rfl⟩

/-- **Which functions and events keep their identifiers.**  In the interface of a
canvas that is written, each function and each event has a signature, and there is
an identifier for it: that of the last entry with this signature.  This is the
entry's own exactly if both are events or both are functions.  All entries keep
their identifiers exactly if no function has the signature of an event. -/
theorem selectors_of_emitted (hr : ((new catalog capacity).compile canvas header false).1 = .ok r)
    (hemitted : r.status = .emitted) :
    ∃ a x, canvas.arrange catalog = .ok (.ok a) ∧ a.interface? = some x ∧ r.interface = some x ∧
      List.Forall₂ (Entry.ExportedAs a.userTypes) a.exported (x.entries.getD []) ∧
      (∀ e ∈ a.exported, e.component.template.kind ≠ .creation →
        ∃ sig, e.signature? a.userTypes = some sig ∧ ∃ f ∈ a.exported, a.holder? sig = some f ∧
          x.selectors.lookup sig = some (f.identifier sig) ∧
          (x.selectors.lookup sig = some (e.identifier sig) ↔ f.isEvent = e.isEvent)) ∧
      ((∀ e ∈ a.exported, ∀ sig, e.signature? a.userTypes = some sig →
          x.selectors.lookup sig = some (e.identifier sig)) ↔
        ∀ e ∈ a.exported, ∀ f ∈ a.exported, ∀ sig, e.signature? a.userTypes = some sig →
          f.signature? a.userTypes = some sig → e.isEvent = f.isEvent) := by
  obtain ⟨a, x, ha, hx, hinterface⟩ := interface_of_emitted hr hemitted
  refine ⟨a, x, ha, hx, hinterface, Arrangement.exportedAs_interface hx, fun e he hkind => ?_,
    Arrangement.keepSelectors_iff hx⟩
  obtain ⟨-, htakes⟩ := List.mem_filter.mp he
  obtain ⟨hpart, hexportable⟩ := Bool.and_eq_true_iff.mp htakes
  obtain ⟨sig, hsig⟩ := Entry.exists_signature_of_exportable hexportable hpart hkind
  obtain ⟨f, hf, hholder, -⟩ := Arrangement.exists_holder he hsig
  refine ⟨sig, hsig, f, hf, hholder, ?_, Arrangement.lookup_selectors_eq_iff hx hholder⟩
  rw [Arrangement.lookup_selectors hx, hholder, Option.map_some]

end Compiler

/-! ### An event and a function of one name -/

/-- Events and functions, whose names are in different name spaces. -/
def Catalog.callFiles : List (String × Definitions) :=
  let name : PropertyDefinition := ⟨"name", .string, true, none, "identifier", [], ""⟩
  let visibility : PropertyDefinition :=
    ⟨"visibility", .string, false, some (.string "public"), "", [], ""⟩
  [("calls", {
    categories := [
      ⟨"event", "events", "events", true, "name", false, false⟩,
      ⟨"function", "functions", "functions", true, "name", false, false⟩]
    templates := [
      { sampleTemplate "event" [name] with kind := "event" },
      { sampleTemplate "function" [name, visibility] with kind := "function" }] })]

/-- The catalog of these definitions. -/
def Catalog.calls : Catalog := ((build callFiles).toOption).getD {}

theorem Catalog.build_callFiles : build callFiles = .ok calls := rfl

/-- An event and a function. -/
def Canvas.callable (event function : String) : Canvas where
  instances := [
    ⟨"e", "event", [("name", .string event)]⟩,
    ⟨"f", "function", [("name", .string function)]⟩]

/-- A canvas in which nothing is wrong is written by a regular catalog. -/
theorem Compiler.exists_emitted_of_build {files : List (String × Definitions)}
    {catalog : Catalog} (canvas : Canvas) (hbuild : Catalog.build files = .ok catalog)
    (hregular : catalog.isRegular = true) (h : canvas.isSound catalog = true) :
    ∃ r, ((new catalog 1).compile canvas {} false).1 = .ok r ∧ r.status = .emitted := by
  have hcategories := Catalog.categoriesAgree_of_build hbuild
  obtain ⟨⟨_, _, hks⟩, hacceptable, hgoes⟩ := Canvas.acceptable_of_isSound hcategories h
  obtain ⟨r, hr, hemitted, -⟩ := exists_emitted hcategories hregular
    (Canvas.known_of_components hks) 1 {} hacceptable hgoes
  exact ⟨r, hr, hemitted⟩

theorem Compiler.exists_emitted_of_isSoundWith {files : List (String × Definitions)}
    {catalog : Catalog} (canvas : Canvas) {names : List String}
    (hbuild : Catalog.build files = .ok catalog) (hregular : catalog.isRegular = true)
    (h : canvas.isSoundWith names catalog = true)
    (hnames : ∀ n ∈ names, Solidity.isReserved n = false) :
    ∃ r, ((new catalog 1).compile canvas {} false).1 = .ok r ∧ r.status = .emitted :=
  exists_emitted_of_build canvas hbuild hregular (Canvas.isSound_of_isSoundWith h hnames)

theorem Compiler.exists_emitted_callable (event function : String)
    (h : Canvas.isSoundWith Solidity.plainNames (.callable event function) .calls = true) :
    ∃ r, ((new .calls 1).compile (.callable event function) {} false).1 = .ok r ∧
      r.status = .emitted :=
  exists_emitted_of_isSoundWith _ Catalog.build_callFiles (by decide) h
    Solidity.isReserved_of_mem_plainNames

/-- Whether the arrangement of a canvas passes a check. -/
def Canvas.arrangesAs (canvas : Canvas) (catalog : Catalog) (p : Arrangement → Bool) : Bool :=
  match canvas.arrange catalog with
  | .ok (.ok a) => p a
  | _ => false

theorem Canvas.passes_of_arrangesAs {canvas : Canvas} {catalog : Catalog} {p : Arrangement → Bool}
    {a : Arrangement} (h : canvas.arrangesAs catalog p = true)
    (ha : canvas.arrange catalog = .ok (.ok a)) : p a = true := by
  rwa [arrangesAs, ha] at h

/-- The signatures of what is exported, and whether it is an event. -/
def Arrangement.calls (a : Arrangement) : List (Option String × Bool) :=
  a.exported.map fun e => (e.signature? a.userTypes, e.isEvent)

/-- An event and a function with different signatures keep both identifiers. -/
theorem Compiler.pinged_keeps_topic : ∃ r x,
    ((new .calls 1).compile (.callable "Pinged" "ping") {} false).1 = .ok r ∧
    r.status = .emitted ∧ r.interface = some x ∧
    x.selectors.lookup "Pinged()" = some (topicText "Pinged()") ∧
    x.selectors.lookup "ping()" = some (selectorText "ping()") := by
  obtain ⟨r, hr, hemitted⟩ :=
    exists_emitted_callable "Pinged" "ping" (by decide)
  obtain ⟨a, x, ha, -, hx, -, -, hkeep⟩ := selectors_of_emitted hr hemitted
  have hcalls : a.calls = [(some "Pinged()", true), (some "ping()", false)] :=
    beq_iff_eq.mp (Canvas.passes_of_arrangesAs (p := fun a => a.calls ==
      [(some "Pinged()", true), (some "ping()", false)]) (by decide) ha)
  obtain ⟨e, _, hexported, he, hrest⟩ := List.map_eq_cons_iff.mp hcalls
  obtain ⟨f, rfl, hf⟩ := List.map_eq_singleton_iff.mp hrest
  obtain ⟨he, hevent⟩ := Prod.mk.inj he
  obtain ⟨hf, hfunction⟩ := Prod.mk.inj hf
  have hkeeps := hkeep.mpr fun e' he' f' hf' sig hsig hsig' => by
    simp only [hexported, List.mem_cons, List.not_mem_nil, or_false] at he' hf'
    rcases he' with rfl | rfl <;> rcases hf' with rfl | rfl
    · rfl
    · exact absurd (he.symm.trans (hsig.trans (hsig'.symm.trans hf))) (by decide)
    · exact absurd (hf.symm.trans (hsig.trans (hsig'.symm.trans he))) (by decide)
    · rfl
  have hpinged := hkeeps e (by simp [hexported]) _ he
  have hping := hkeeps f (by simp [hexported]) _ hf
  rw [Entry.identifier, hevent, if_pos rfl] at hpinged
  rw [Entry.identifier, hfunction, if_neg Bool.false_ne_true] at hping
  exact ⟨r, x, hr, hemitted, hx, hpinged, hping⟩

/-- **An event loses its identifier to a function of the same name**, although the
canvas is written and both have an entry in the interface. -/
theorem Compiler.ping_loses_topic :
    Catalog.build Catalog.callFiles = .ok .calls ∧ ∃ r x,
      ((new .calls 1).compile (.callable "ping" "ping") {} false).1 = .ok r ∧
      r.status = .emitted ∧ r.interface = some x ∧
      (x.entries.getD []).map (fun y => (y.type, y.name)) =
        [("event", "ping"), ("function", "ping")] ∧
      x.selectors = [("ping()", selectorText "ping()")] ∧
      selectorText "ping()" ≠ topicText "ping()" := by
  obtain ⟨r, hr, hemitted⟩ :=
    exists_emitted_callable "ping" "ping" (by decide)
  obtain ⟨a, x, ha, hx, hinterface⟩ := interface_of_emitted hr hemitted
  have hentries : a.interface?.map (fun x => (x.entries.getD []).map fun y => (y.type, y.name)) =
      some [("event", "ping"), ("function", "ping")] :=
    beq_iff_eq.mp (Canvas.passes_of_arrangesAs (p := fun a =>
      a.interface?.map (fun x => (x.entries.getD []).map fun y => (y.type, y.name)) ==
        some [("event", "ping"), ("function", "ping")]) (by decide) ha)
  rw [hx] at hentries
  have hcalls : a.calls = [(some "ping()", true), (some "ping()", false)] :=
    beq_iff_eq.mp (Canvas.passes_of_arrangesAs (p := fun a => a.calls ==
      [(some "ping()", true), (some "ping()", false)]) (by decide) ha)
  obtain ⟨e, _, hexported, he, hrest⟩ := List.map_eq_cons_iff.mp hcalls
  obtain ⟨f, rfl, hf⟩ := List.map_eq_singleton_iff.mp hrest
  obtain ⟨he, hevent⟩ := Prod.mk.inj he
  obtain ⟨hf, hfunction⟩ := Prod.mk.inj hf
  have hselectors : x.selectors = [("ping()", selectorText "ping()")] := by
    rw [Arrangement.selectors_interface hx, hexported]
    simp [he, hf, Entry.identifier, hevent, hfunction, Value.sortNamed, Value.insertNamed]
  exact ⟨Catalog.build_callFiles, r, x, hr, hemitted, hinterface, Option.some.inj hentries,
    hselectors, selectorText_ne_topicText _ _⟩

end SolidityCanvas
