/-
When a canvas is written, and when it is rejected.

`Canvas.Acceptable` collects the rules that a canvas has to follow, one field
for each.  It speaks of instances, connections and what has to come before
what, and of no check, pass or order in which they are made.

* `hasErrors_validate`: the findings hold an error exactly when one of the
  rules about instances and connections is broken;
* `run_eq_ok`: everything that a compilation with a result can do;
* `emitted_iff_acceptable`: a compilation that ends has written the canvas if
  it is acceptable, and rejected it if not.

The reserved words are cut out of a few lines, which takes long to compute.  They are
read once (`Solidity.reservedLines_checked`), and a canvas with other names can be shown
to be without errors by a check that leaves them out (`Canvas.cleanArrangement?_of_with`).
-/
import SolidityCanvas.Compiler
import SolidityCanvas.Proofs.Arrangement.Order
import SolidityCanvas.Proofs.Contract.Interface
import SolidityCanvas.Proofs.Text.Words
import SolidityCanvas.Proofs.Validation.Findings

namespace SolidityCanvas

open Diagnostic

namespace Canvas

/-- An instance of the canvas, with its template, makes the component. -/
def Holds (c : Canvas) (catalog : Catalog) (k : Component) : Prop :=
  ∃ i ∈ c.instances, componentOf? catalog i = some k

/-- What a canvas has to be like to be written. -/
structure Acceptable (c : Canvas) (catalog : Catalog) : Prop where
  /-- No two instances have one id. -/
  ids_nodup : (c.instances.map (·.id)).Nodup
  /-- Required properties are given, and what is given conforms. -/
  fits : ∀ i ∈ c.instances, ∀ t, catalog.template? i.template = some t →
    ∀ p ∈ t.properties, p.Fits i.properties
  /-- Names can be names. -/
  named : ∀ k, c.Holds catalog k → k.Named
  /-- Where a category allows one instance there are not two. -/
  alone : ∀ k l, c.Holds catalog k → c.Holds catalog l →
    k.template.category.singleton = true →
    k.template.category.name = l.template.category.name → k.id = l.id
  /-- The names that a template declares can be told. -/
  declares : ∀ k, c.Holds catalog k →
    ∃ spaces, k.template.declaredNames k.id k.properties.bag = .ok spaces
  /-- No two instances take one name in one name space. -/
  distinct : ∀ k l, c.Holds catalog k → c.Holds catalog l → ∀ nameSpace name,
    k.Claims nameSpace name → l.Claims nameSpace name → k.id = l.id
  /-- Connections join two different instances as a rule allows. -/
  connected : ∀ k ∈ c.connections, ∃ rule, c.Connects catalog k rule
  /-- Nothing has to come before itself. -/
  unentangled : c.Unentangled catalog
  /-- Nothing has to come before what stands in an earlier section. -/
  respects : c.RespectsSections catalog

variable {c : Canvas} {catalog : Catalog} {ks : List Component} {fs : List Diagnostic}

/-- Where no two instances have one id, each of them counts. -/
theorem mem_components_iff_holds (h : c.components catalog = .ok (ks, fs))
    (hnd : (c.instances.map (·.id)).Nodup) {k : Component} : k ∈ ks ↔ c.Holds catalog k := by
  rw [mem_components h, componentAt?_eq_some]
  constructor
  · rintro ⟨i, hi, hk⟩
    exact ⟨i, List.mem_of_find?_eq_some hi, hk⟩
  · rintro ⟨i, hi, hk⟩
    exact ⟨i, (find?_name_eq_some hnd).mpr ⟨hi, (componentOf?_id hk).symm⟩, hk⟩

theorem hasBad_components_iff (h : c.components catalog = .ok (ks, fs))
    (hnd : (c.instances.map (·.id)).Nodup) :
    (∀ k ∈ ks, k.hasBad = false) ↔ ∀ i ∈ c.instances, ∀ t,
      catalog.template? i.template = some t → ∀ p ∈ t.properties, p.Fits i.properties := by
  simp only [mem_components_iff_holds h hnd]
  constructor
  · intro hbad i hi t ht
    exact Component.hasBad_ofInstance.mp
      (hbad _ ⟨i, hi, componentOf?_eq_some.mpr ⟨t, ht, rfl⟩⟩)
  · rintro hfits k ⟨i, hi, hk⟩
    obtain ⟨t, ht, rfl⟩ := componentOf?_eq_some.mp hk
    exact Component.hasBad_ofInstance.mpr (hfits i hi t ht)

/-- Components have their templates from the catalog. -/
theorem template_mem_of_mem_components (h : c.components catalog = .ok (ks, fs)) {k : Component}
    (hk : k ∈ ks) : k.template ∈ catalog.templates := by
  obtain ⟨i, _, hi⟩ := componentAt?_eq_some.mp ((mem_components h).mp hk)
  exact template_mem_of_componentOf? hi

/-- A canvas whose components are known can be checked. -/
theorem exists_validate (h : c.components catalog = .ok (ks, fs)) :
    ∃ findings, c.validate catalog = .ok findings := exists_bind_ok h ⟨_, rfl⟩

/-- What the findings are made of. -/
theorem validate_eq_ok {findings : List Diagnostic} (h : c.validate catalog = .ok findings) :
    ∃ ks bound, c.components catalog = .ok (ks, bound) ∧
      (hasErrors findings = false ↔ hasErrors bound = false ∧
        (∀ k ∈ ks, hasErrors k.nameFindings = false) ∧
        hasErrors (singletonFindings ks) = false ∧ hasErrors (collisionFindings ks) = false ∧
        hasErrors (connectionFindings catalog ks [] c.connections) = false) := by
  obtain ⟨⟨ks, bound⟩, hks, h⟩ := except_bind_eq_ok.mp h
  obtain rfl := Except.ok.inj h
  refine ⟨ks, bound, hks, ?_⟩
  have hvalues : ∀ k : Component, hasErrors
      (k.template.properties.flatMap (k.valueFindings (declaresType ks))) = false :=
    fun k => hasErrors_flatMap_eq_false_iff.mpr fun p _ => k.hasErrors_valueFindings _ p
  simp only [hasErrors_append, Bool.or_eq_false_iff, hasErrors_flatMap_eq_false_iff, hvalues,
    and_true, and_assoc]

/-- **The findings hold an error exactly when a rule about instances and
connections is broken.** -/
theorem hasErrors_validate (hcat : catalog.CategoriesAgree) {findings : List Diagnostic}
    (h : c.validate catalog = .ok findings) (hfree : c.Unentangled catalog)
    (hresp : c.RespectsSections catalog) :
    hasErrors findings = false ↔ c.Acceptable catalog := by
  obtain ⟨ks, bound, hks, hparts⟩ := validate_eq_ok h
  have hsame : ∀ k ∈ ks, ∀ l ∈ ks, k.template.category.name = l.template.category.name →
      k.template.category = l.template.category := fun k hk l hl =>
    hcat.category_eq (template_mem_of_mem_components hks hk) (template_mem_of_mem_components hks hl)
  rw [hparts, hasErrors_components hks, hasErrors_connectionFindings_iff hks,
    hasErrors_singletonFindings hsame]
  constructor
  · rintro ⟨⟨hnd, hbad⟩, hname, halone, hcollide, hconn⟩
    -- Each check assumes what the ones before it have found.
    have hnamed : ∀ k ∈ ks, k.Named :=
      fun k hk => (Component.hasErrors_nameFindings (hbad k hk)).mp (hname k hk)
    obtain ⟨hdecl, hdistinct⟩ := (hasErrors_collisionFindings hbad hnamed).mp hcollide
    have hfits := (hasBad_components_iff hks hnd).mp hbad
    simp only [mem_components_iff_holds hks hnd] at hnamed halone hdecl hdistinct
    exact ⟨hnd, hfits, hnamed, fun k l hk hl => halone k hk l hl, hdecl,
      fun k l hk hl => hdistinct k hk l hl, hconn, hfree, hresp⟩
  · intro ha
    have hmem := fun k => mem_components_iff_holds hks ha.ids_nodup (k := k)
    have hbad := (hasBad_components_iff hks ha.ids_nodup).mpr ha.fits
    have hnamed : ∀ k ∈ ks, k.Named := fun k hk => ha.named k ((hmem k).mp hk)
    refine ⟨⟨ha.ids_nodup, hbad⟩, fun k hk => ?_, fun k hk l hl => ?_, ?_, ha.connected⟩
    · exact (Component.hasErrors_nameFindings (hbad k hk)).mpr (hnamed k hk)
    · exact ha.alone k l ((hmem k).mp hk) ((hmem l).mp hl)
    · refine (hasErrors_collisionFindings hbad hnamed).mpr ⟨fun k hk => ?_, fun k hk l hl => ?_⟩
      · exact ha.declares k ((hmem k).mp hk)
      · exact ha.distinct k l ((hmem k).mp hk) ((hmem l).mp hl)

/-- Nothing is wrong with the canvas, but there is no interface for it: the work
breaks off at an entry. -/
def BreaksOff (c : Canvas) (catalog : Catalog) : Prop :=
  c.Acceptable catalog ∧ ∃ a, c.arrange catalog = .ok (.ok a) ∧
    ∃ e ∈ a.entries, e.BreaksOff a.userTypes

theorem breaksOff_iff {a : Arrangement} (ha : c.arrange catalog = .ok (.ok a)) :
    c.BreaksOff catalog ↔ c.Acceptable catalog ∧ a.interface? = none := by
  rw [BreaksOff, a.interface?_eq_none_iff, ha]
  simp

/-- The arrangement of a canvas that has no errors. -/
def cleanArrangement? (c : Canvas) (catalog : Catalog) : Option Arrangement :=
  match c.validate catalog, c.arrange catalog with
  | .ok findings, .ok (.ok a) => if hasErrors findings then none else some a
  | _, _ => none

/-- Whether a canvas has no errors, and an interface. -/
def isSound (c : Canvas) (catalog : Catalog) : Bool :=
  (c.cleanArrangement? catalog).any (·.interface?.isSome)

/-- Whether a canvas has no errors, but no interface either. -/
def isBroken (c : Canvas) (catalog : Catalog) : Bool :=
  (c.cleanArrangement? catalog).any (·.interface?.isNone)

theorem validate_of_cleanArrangement? {a : Arrangement}
    (h : c.cleanArrangement? catalog = some a) : (∃ findings, c.validate catalog = .ok findings ∧
      hasErrors findings = false) ∧ c.arrange catalog = .ok (.ok a) := by
  rw [cleanArrangement?] at h
  split at h
  · rename_i findings a' hvalidate harrange
    obtain ⟨herr, h⟩ := Option.ite_none_left_eq_some.mp h
    obtain rfl := Option.some.inj h
    exact ⟨⟨findings, hvalidate, by simpa using herr⟩, harrange⟩
  · cases h

theorem acceptable_of_cleanArrangement? (hcat : catalog.CategoriesAgree) {a : Arrangement}
    (h : c.cleanArrangement? catalog = some a) : (∃ ks fs, c.components catalog = .ok (ks, fs)) ∧
      c.Acceptable catalog ∧ c.arrange catalog = .ok (.ok a) := by
  obtain ⟨⟨findings, hvalidate, herr⟩, harrange⟩ := validate_of_cleanArrangement? h
  obtain ⟨_, _, hks, ⟨hfree, hresp, _⟩ | ⟨_, _, herror⟩⟩ := arrange_eq_ok harrange
  · exact ⟨⟨_, _, hks⟩, (hasErrors_validate hcat hvalidate hfree hresp).mp herr, harrange⟩
  · cases herror

theorem acceptable_of_isSound (hcat : catalog.CategoriesAgree) (h : c.isSound catalog = true) :
    (∃ ks fs, c.components catalog = .ok (ks, fs)) ∧ c.Acceptable catalog ∧
      ¬c.BreaksOff catalog := by
  obtain ⟨a, ha, hx⟩ := (Option.any_eq_true _ _).mp h
  obtain ⟨hks, hacceptable, harrange⟩ := acceptable_of_cleanArrangement? hcat ha
  refine ⟨hks, hacceptable, fun hbreaks => ?_⟩
  rw [((breaksOff_iff harrange).mp hbreaks).2] at hx
  cases hx

theorem breaksOff_of_isBroken (hcat : catalog.CategoriesAgree) (h : c.isBroken catalog = true) :
    (∃ ks fs, c.components catalog = .ok (ks, fs)) ∧ c.BreaksOff catalog := by
  obtain ⟨a, ha, hx⟩ := (Option.any_eq_true _ _).mp h
  obtain ⟨hks, hacceptable, harrange⟩ := acceptable_of_cleanArrangement? hcat ha
  exact ⟨hks, (breaksOff_iff harrange).mpr ⟨hacceptable, Option.isNone_iff_eq_none.mp hx⟩⟩

end Canvas

/-- Entries are rendered one after another, some from what is remembered. -/
theorem exists_renderAll : ∀ {es : List Entry},
    (∀ e ∈ es, ∃ r, e.component.template.render e.bindings = .ok r) → ∀ cache : RenderCache,
    ∃ rendered, (renderAll cache es).1 = .ok rendered := by
  intro es
  induction es with
  | nil => exact fun _ _ => ⟨[], rfl⟩
  | cons e es ih =>
    intro h cache
    obtain ⟨⟨r, hr⟩, hes⟩ := List.forall_mem_cons.mp h
    have hrender : ∃ r, (e.render cache).1 = .ok r := by
      rw [Entry.render]
      split
      · exact ⟨_, rfl⟩
      · rw [hr]
        exact ⟨_, rfl⟩
    obtain ⟨r, hr⟩ := hrender
    obtain ⟨others, hothers⟩ := ih hes (e.render cache).2
    rw [renderAll]
    split
    · rename_i f after hfail
      rw [hfail] at hr
      exact absurd hr (by simp)
    · rename_i x after hgood
      rw [hgood] at hothers
      refine ⟨(e, x) :: others, ?_⟩
      change (renderAll after es).1.map _ = _
      rw [hothers]
      rfl

/-- An arrangement whose entries can be rendered can be written. -/
theorem Arrangement.exists_emit_of_render {a : Arrangement}
    (h : ∀ e ∈ a.entries, ∃ r, e.component.template.render e.bindings = .ok r) (header : Header)
    (cache : RenderCache) : ∃ d, (a.emit header cache).1 = .ok d := by
  obtain ⟨rendered, hrendered⟩ := exists_renderAll h cache
  rw [Arrangement.emit]
  dsimp only
  rw [hrendered]
  exact ⟨_, rfl⟩

namespace Compiler

variable {c : Compiler} {canvas : Canvas} {h : Header} {r : CompileResult}

/-- What a compilation that ends can do: it fails to arrange the canvas, finds
errors in it, or writes it. -/
theorem run_eq_ok (hr : (c.run canvas h false).1 = .ok r) :
    ∃ findings, canvas.validate c.catalog = .ok findings ∧
      ((∃ more, canvas.arrange c.catalog = .ok (.error more) ∧
          r = .rejected (findings ++ more)) ∨
        ∃ a, canvas.arrange c.catalog = .ok (.ok a) ∧
          ((hasErrors findings = true ∧ r = .rejected findings) ∨
            (hasErrors findings = false ∧ ∃ document x, (a.emit h c.renders).1 = .ok document ∧
              a.interface? = some x ∧
              r = { status := .emitted, document := some document, interface := some x,
                    diagnostics := some findings, order := a.order }))) := by
  rw [run] at hr
  split at hr
  · cases hr
  rename_i findings hvalidate
  refine ⟨findings, hvalidate, ?_⟩
  rw [if_neg Bool.false_ne_true, Canvas.resolve_eq] at hr
  cases harrange : canvas.arrange c.catalog with
  | error e => rw [harrange] at hr; cases hr
  | ok verdict =>
    rw [harrange] at hr
    cases verdict with
    | error more => exact Or.inl ⟨more, rfl, (Except.ok.inj hr).symm⟩
    | ok a =>
      refine Or.inr ⟨a, rfl, ?_⟩
      dsimp only at hr
      split at hr
      · rename_i herrors
        exact Or.inl ⟨herrors, (Except.ok.inj hr).symm⟩
      · rename_i herrors
        refine Or.inr ⟨by simpa using herrors, ?_⟩
        dsimp only at hr
        split at hr
        · cases hr
        · rename_i document hdocument
          split at hr
          · cases hr
          · rename_i x hx
            exact ⟨document, x, hdocument, hx, (Except.ok.inj hr).symm⟩

section

variable {a : Arrangement} {findings : List Diagnostic} {document : Document}
  (hv : canvas.validate c.catalog = .ok findings) (ha : canvas.arrange c.catalog = .ok (.ok a))
  (herr : hasErrors findings = false) (hd : (a.emit h c.renders).1 = .ok document)

include hv ha herr hd

/-- What a compilation does with a canvas that has no errors and can be
arranged, if it has an interface. -/
theorem run_of_emit {x : Interface} (hx : a.interface? = some x) :
    (c.run canvas h false).1 = .ok {
      status := .emitted, document := some document, interface := some x
      diagnostics := some findings, order := a.order } := by
  simp only [run, Canvas.resolve_eq, hv, ha, herr, hd, hx, Bool.false_eq_true, if_false]

/-- And if it has none. -/
theorem run_of_broken (hx : a.interface? = none) :
    (c.run canvas h false).1 = .error .broken := by
  simp only [run, Canvas.resolve_eq, hv, ha, herr, hd, hx, Bool.false_eq_true, if_false]

end

/-- A compiler that remembers nothing does the work. -/
theorem compile_new (catalog : Catalog) (capacity : Nat) (canvas : Canvas) (h : Header)
    (canceled : Bool) :
    ((new catalog capacity).compile canvas h canceled).1 =
      ((new catalog capacity).run canvas h.withDefaults canceled).1 := by
  rw [compile]
  have hempty : ∀ key, (new catalog capacity).results.get key =
      (none, (new catalog capacity).results) := fun key => rfl
  simp only [hempty]
  split <;> rename_i heq <;> rw [heq]

/-- A compilation that ends has written an acceptable canvas, without errors, or
rejected one that is not. -/
theorem verdict_cases {catalog : Catalog} (hcat : catalog.CategoriesAgree) {capacity : Nat}
    (hr : ((new catalog capacity).compile canvas h false).1 = .ok r) :
    (canvas.Acceptable catalog ∧ r.status = .emitted ∧ hasErrors r.findings = false) ∨
      (¬canvas.Acceptable catalog ∧ r.status = .rejected) := by
  rw [compile_new] at hr
  obtain ⟨findings, hvalidate, hcases⟩ := run_eq_ok hr
  rcases hcases with ⟨more, harrange, rfl⟩ | ⟨a, harrange, hcases⟩
  · -- Something has to come before itself, or before an earlier section.
    obtain ⟨_, _, _, ⟨_, _, _, hok, _⟩ | ⟨hnot, _⟩⟩ := Canvas.arrange_eq_ok harrange
    · cases hok
    exact Or.inr ⟨fun ha => hnot ⟨ha.unentangled, ha.respects⟩, rfl⟩
  obtain ⟨_, _, _, ⟨hfree, hresp, _⟩ | ⟨_, _, herror⟩⟩ := Canvas.arrange_eq_ok harrange
  case inr => cases herror
  -- The canvas is arranged: what is left are the findings of the checks.
  have hiff := Canvas.hasErrors_validate hcat hvalidate hfree hresp
  rcases hcases with ⟨herrors, rfl⟩ | ⟨hclean, _, _, _, _, rfl⟩
  · exact Or.inr ⟨fun ha => by simp [hiff.mpr ha] at herrors, rfl⟩
  · exact Or.inl ⟨hiff.mp hclean, rfl, hclean⟩

end Compiler

/-! ### Names that are not reserved -/

namespace Solidity

/-- Names of instances in examples. -/
def plainNames : List String := [
  "locked", "one", "ping", "Pinged", "f", "S", "bool8", "first", "second", "pairs", "Pair", "Entry",
  "Colour", "Drawing", "Painted", "book", "payableTo", "to", "Token", "Composed"]

-- The reserved words are read once, by this computation.
theorem reservedLines_checked : ∃ css, Text.SpelledLines reservedLines css ∧
    (plainNames.all (fun n => !(css.flatMap (Text.fieldsBy (· == ' '))).contains n.toList &&
        !isSizedElementary n) &&
      ["indexed", "memory", "storage", "calldata"].all fun n =>
        (css.flatMap (Text.fieldsBy (· == ' '))).contains n.toList) = true := by
  apply Exists.intro
  apply And.intro
  · dsimp only [reservedLines]
    repeat first | exact .nil | apply Text.SpelledLines.cons
  · decide

theorem mem_reservedWords_iff {css : List (List Char)} (h : Text.SpelledLines reservedLines css)
    {n : String} :
    n ∈ reservedWords ↔ (css.flatMap (Text.fieldsBy (· == ' '))).contains n.toList = true := by
  rw [reservedWords, h.wordsOf_eq, List.mem_map, List.contains_iff_mem]
  constructor
  · rintro ⟨w, hw, rfl⟩
    rwa [String.toList_ofList]
  · exact fun hn => ⟨n.toList, hn, String.ofList_toList⟩

theorem isReserved_of_mem_plainNames : ∀ n ∈ plainNames, isReserved n = false := by
  obtain ⟨css, hspelled, hcheck⟩ := reservedLines_checked
  intro n hn
  have hplain := List.all_eq_true.mp (Bool.and_eq_true_iff.mp hcheck).1 n hn
  rw [Bool.and_eq_true, Bool.not_eq_true', Bool.not_eq_true'] at hplain
  obtain ⟨hword, hsized⟩ := hplain
  rw [isReserved, hsized, Bool.or_false, Bool.eq_false_iff, Ne, List.contains_iff_mem,
    mem_reservedWords_iff hspelled, hword]
  exact Bool.false_ne_true

/-- What can stand between the type and the name of a declaration is reserved. -/
theorem isReserved_of_mem_qualifiers : ∀ w ∈ ["indexed", "memory", "storage", "calldata"],
    isReserved w = true := by
  obtain ⟨css, hspelled, hcheck⟩ := reservedLines_checked
  intro w hw
  have hword := List.all_eq_true.mp (Bool.and_eq_true_iff.mp hcheck).2 w hw
  rw [isReserved, Bool.or_eq_true, List.contains_iff_mem]
  exact .inl ((mem_reservedWords_iff hspelled).mpr hword)

end Solidity

namespace Canvas

variable {c : Canvas} {catalog : Catalog} {names : List String}

/-- The arrangement of a canvas that has no errors, apart from its names being
reserved, which are among those given. -/
def cleanArrangementWith? (names : List String) (c : Canvas) (catalog : Catalog) :
    Option Arrangement :=
  match c.components catalog, c.arrange catalog with
  | .ok (ks, fs), .ok (.ok a) =>
    if ks.all (fun k => !k.hasBad && Solidity.isIdentifier k.name && names.contains k.name) &&
      !(hasErrors fs || hasErrors (singletonFindings ks) || hasErrors (collisionFindings ks) ||
        hasErrors (connectionFindings catalog ks [] c.connections))
    then some a else none
  | _, _ => none

/-- **A canvas has no errors if its names are not reserved** and nothing else is
wrong. -/
theorem cleanArrangement?_of_with {a : Arrangement}
    (h : c.cleanArrangementWith? names catalog = some a)
    (hnames : ∀ n ∈ names, Solidity.isReserved n = false) :
    c.cleanArrangement? catalog = some a := by
  rw [cleanArrangementWith?] at h
  split at h
  case h_2 => cases h
  case h_1 ks fs a' hks harrange =>
    obtain ⟨hclean, h⟩ := Option.ite_none_right_eq_some.mp h
    obtain rfl := Option.some.inj h
    rw [Bool.and_eq_true, List.all_eq_true, Bool.not_eq_true'] at hclean
    simp only [Bool.and_eq_true, Bool.not_eq_true', List.contains_iff_mem, Bool.or_eq_false_iff]
      at hclean
    obtain ⟨hall, ⟨⟨hbound, hsingle⟩, hcollide⟩, hconnect⟩ := hclean
    obtain ⟨findings, hvalidate⟩ := exists_validate hks
    obtain ⟨ks', bound, hks', hparts⟩ := validate_eq_ok hvalidate
    obtain ⟨rfl, rfl⟩ := Prod.mk.inj (Except.ok.inj (hks.symm.trans hks'))
    have hnamed : ∀ k ∈ ks, hasErrors k.nameFindings = false := by
      intro k hk
      obtain ⟨⟨hbad, hidentifier⟩, hmem⟩ := hall k hk
      exact (Component.hasErrors_nameFindings hbad).mpr fun _ => ⟨hidentifier, hnames _ hmem⟩
    have hclean := hparts.mpr ⟨hbound, hnamed, hsingle, hcollide, hconnect⟩
    rw [cleanArrangement?, hvalidate, harrange]
    dsimp only
    rw [hclean, if_neg Bool.false_ne_true]

/-- Whether a canvas has no errors, apart from its names being reserved, and an
interface. -/
def isSoundWith (names : List String) (c : Canvas) (catalog : Catalog) : Bool :=
  (c.cleanArrangementWith? names catalog).any (·.interface?.isSome)

/-- Whether it has no errors, apart from its names being reserved, but no interface. -/
def isBrokenWith (names : List String) (c : Canvas) (catalog : Catalog) : Bool :=
  (c.cleanArrangementWith? names catalog).any (·.interface?.isNone)

theorem isSound_of_isSoundWith (h : c.isSoundWith names catalog = true)
    (hnames : ∀ n ∈ names, Solidity.isReserved n = false) : c.isSound catalog = true := by
  obtain ⟨a, ha, hx⟩ := (Option.any_eq_true _ _).mp h
  exact (Option.any_eq_true _ _).mpr ⟨a, cleanArrangement?_of_with ha hnames, hx⟩

theorem isBroken_of_isBrokenWith (h : c.isBrokenWith names catalog = true)
    (hnames : ∀ n ∈ names, Solidity.isReserved n = false) : c.isBroken catalog = true := by
  obtain ⟨a, ha, hx⟩ := (Option.any_eq_true _ _).mp h
  exact (Option.any_eq_true _ _).mpr ⟨a, cleanArrangement?_of_with ha hnames, hx⟩

/-- Whether a canvas has no errors, apart from its names being reserved, an interface, and
entries that can be rendered. -/
def isWritableWith (names : List String) (c : Canvas) (catalog : Catalog) : Bool :=
  (c.cleanArrangementWith? names catalog).any fun a => a.interface?.isSome &&
    a.entries.all fun e => (e.component.template.render e.bindings).toBool

end Canvas

/-! ### The verdict -/

namespace Compiler

variable {canvas : Canvas} {h : Header} {r : CompileResult}

/-- A canvas without errors that has an interface is written if its entries can be
rendered. -/
theorem exists_emitted_of_isWritableWith {names : List String} {catalog : Catalog}
    (hwritable : canvas.isWritableWith names catalog = true)
    (hnames : ∀ n ∈ names, Solidity.isReserved n = false) (capacity : Nat) (header : Header) :
    ∃ r, ((new catalog capacity).compile canvas header false).1 = .ok r ∧ r.status = .emitted := by
  obtain ⟨a, hclean, hgood⟩ := (Option.any_eq_true _ _).mp hwritable
  obtain ⟨hsome, hrenders⟩ := Bool.and_eq_true_iff.mp hgood
  obtain ⟨x, hx⟩ := Option.isSome_iff_exists.mp hsome
  have hrender : ∀ e ∈ a.entries, ∃ r, e.component.template.render e.bindings = .ok r := by
    intro e he
    have hok := List.all_eq_true.mp hrenders e he
    cases hr : e.component.template.render e.bindings with
    | ok r => exact ⟨r, rfl⟩
    | error f =>
      rw [hr] at hok
      cases hok
  obtain ⟨⟨findings, hvalidate, herr⟩, harrange⟩ :=
    Canvas.validate_of_cleanArrangement? (Canvas.cleanArrangement?_of_with hclean hnames)
  obtain ⟨document, hdocument⟩ := Arrangement.exists_emit_of_render hrender header.withDefaults
    (new catalog capacity).renders
  rw [compile_new]
  exact ⟨_, run_of_emit hvalidate harrange herr hdocument hx, rfl⟩

/-- **The verdict on a canvas.**  With a catalog that was built, a compilation
that ends has written the canvas if the canvas is acceptable, and rejected it
if not. -/
theorem emitted_iff_acceptable {files : List (String × Definitions)} {catalog : Catalog}
    (hbuild : Catalog.build files = .ok catalog) {capacity : Nat}
    (hr : ((new catalog capacity).compile canvas h false).1 = .ok r) :
    (r.status = .emitted ↔ canvas.Acceptable catalog) ∧
      (r.status = .rejected ↔ ¬ canvas.Acceptable catalog) := by
  have hne : Status.rejected ≠ Status.emitted := by decide
  rcases verdict_cases (Catalog.categoriesAgree_of_build hbuild) hr with
    ⟨hacc, hstatus, -⟩ | ⟨hacc, hstatus⟩
  · rw [hstatus]
    exact ⟨iff_of_true rfl hacc, iff_of_false hne.symm (not_not_intro hacc)⟩
  · rw [hstatus]
    exact ⟨iff_of_false hne hacc, iff_of_true rfl hacc⟩

/-- The canvas has names, connections and mentions of types, and is written. -/
theorem sample_is_acceptable : ∃ r,
    ((new Catalog.sample 1).compile Canvas.sample {} false).1 = .ok r ∧ r.status = .emitted ∧
      Canvas.sample.Acceptable Catalog.sample := by
  have hwritable : Canvas.sample.isWritableWith Solidity.plainNames Catalog.sample = true := by
    decide +kernel
  obtain ⟨r, hr, hstatus⟩ :=
    exists_emitted_of_isWritableWith hwritable Solidity.isReserved_of_mem_plainNames 1 {}
  exact ⟨r, hr, hstatus, (emitted_iff_acceptable Catalog.build_sampleFiles hr).1.mp hstatus⟩

end Compiler

end SolidityCanvas
