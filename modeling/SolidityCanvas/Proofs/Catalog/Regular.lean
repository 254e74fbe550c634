/-
Catalogs that never break down.

A template is regular if the kinds of its expressions can be told from the types
of its properties: a text is written, lists of texts are imported, inherited and
declared.  Whatever the properties of an instance are, it is bound to values of
these types, and so

* `Template.exists_render`, `Template.exists_declaredNames`: expressions of a
  regular template have values, without faults;
* `Compiler.compile_cases`: with a catalog of regular templates, every compilation
  of a canvas that knows its templates ends with a result, or breaks off where there
  is no room for the types of the interface.
-/
import SolidityCanvas.Proofs.Arrangement.Total
import SolidityCanvas.Proofs.Catalog.Scope
import SolidityCanvas.Proofs.Compiler.Written
import SolidityCanvas.Proofs.Config.Kinds
import SolidityCanvas.Proofs.Validation.Verdict

namespace SolidityCanvas

open Config

/-! ### Templates -/

namespace Template

/-- The kinds of the variables of a template, the last name first. -/
def kinds (t : Template) : Kinds :=
  (t.properties.map (fun (p : Property) => (p.name, Kind.ofType p.type)) ++
    t.links.map (fun l => (l, Kind.names)) ++ [("id", Kind.text)]).reverse

/-- Whether an expression lists texts, or is `null`. -/
def listsTexts (t : Template) (e : Expr) : Bool :=
  match e.kind? t.kinds with
  | some k => k.isList || k == .null
  | none => false

/-- Whether all expressions of a template have the kinds they should have. -/
def isRegular (t : Template) : Bool :=
  t.properties.all (fun p => p.default.all (Kind.ofType p.type).admits) &&
    t.emit.kind? t.kinds == some .text && t.listsTexts t.imports && t.listsTexts t.inherits &&
    (t.declares.kind? t.kinds == some .nameLists || t.declares.kind? t.kinds == some .null)

end Template

theorem textItems_texts (ss : List String) : ∃ ts, textItems (ss.map .string) = .ok ts := by
  induction ss with
  | nil => exact ⟨[], rfl⟩
  | cons s ss ih =>
    obtain ⟨ts, hts⟩ := ih
    rw [List.map_cons, textItems]
    exact exists_bind_ok hts ⟨_, rfl⟩

theorem exists_textList {v : Value} (h : Kind.listsTexts v = true) : ∃ ts, textList v = .ok ts := by
  obtain ⟨ss, rfl | rfl⟩ := Kind.listsTexts_iff.mp h
  · exact textItems_texts ss
  · exact textItems_texts ss

namespace Template

variable {t : Template} {b : Bag}

theorem exists_evalTexts {e : Expr} (he : t.listsTexts e = true)
    (hb : (templateScope b).Suits t.kinds) : ∃ ts, evalTexts e (templateScope b) = .ok ts := by
  rw [listsTexts] at he
  split at he
  case h_2 => exact absurd he (by simp)
  case h_1 k hk =>
    obtain ⟨v, hv, hadmits⟩ := (Expr.eval_is e hk hb).exists_eq
    have htexts : evalTexts e (templateScope b) = textList v := by
      rw [evalTexts, hv]
      rfl
    rw [htexts]
    rcases Bool.or_eq_true_iff.mp he with hlist | hnull
    · exact exists_textList (Kind.listsTexts_of_isList hlist hadmits)
    · obtain rfl := beq_iff_eq.mp hnull
      cases v <;> simp only [Kind.admits, Bool.false_eq_true] at hadmits
      exact ⟨[], rfl⟩

/-- **A regular template can be rendered.** -/
theorem exists_render (h : t.isRegular = true) (hb : (templateScope b).Suits t.kinds) :
    ∃ r, t.render b = .ok r := by
  simp only [isRegular, Bool.and_eq_true, beq_iff_eq] at h
  obtain ⟨⟨⟨⟨_, hemit⟩, himports⟩, hinherits⟩, _⟩ := h
  obtain ⟨s, hs⟩ := (Expr.eval_is t.emit hemit hb).exists_text
  have hbody : t.renderBody (templateScope b) = .ok s := by
    rw [renderBody, hs]
    rfl
  obtain ⟨imports, himports⟩ := exists_evalTexts himports hb
  obtain ⟨inherits, hinherits⟩ := exists_evalTexts hinherits hb
  rw [render]
  exact exists_bind_ok hbody (exists_bind_ok (mapError_eq_ok.mpr himports)
    (exists_bind_ok (mapError_eq_ok.mpr hinherits) ⟨_, rfl⟩))

theorem exists_nameLists : ∀ {entries : List (String × Value)},
    (∀ e ∈ entries, Kind.listsTexts e.2 = true) → ∃ r, t.nameLists entries = .ok r := by
  intro entries
  induction entries with
  | nil => exact fun _ => ⟨[], rfl⟩
  | cons e entries ih =>
    intro h
    obtain ⟨he, hentries⟩ := List.forall_mem_cons.mp h
    obtain ⟨names, hnames⟩ := exists_textList he
    obtain ⟨rest, hrest⟩ := ih hentries
    rw [nameLists]
    exact exists_bind_ok (mapError_eq_ok.mpr hnames) (exists_bind_ok hrest ⟨_, rfl⟩)

/-- **The names that a regular template declares can be told.** -/
theorem exists_declaredNames (h : t.isRegular = true) {id : String} {properties : Bag}
    (hb : (templateScope (t.declaringBindings id properties)).Suits t.kinds) :
    ∃ r, t.declaredNames id properties = .ok r := by
  simp only [isRegular, Bool.and_eq_true, Bool.or_eq_true, beq_iff_eq] at h
  rcases h.2 with hkind | hkind
  · obtain ⟨v, hv, hadmits⟩ := (Expr.eval_is t.declares hkind hb).exists_eq
    cases v <;> simp only [Kind.admits, Bool.false_eq_true] at hadmits
    obtain ⟨r, hr⟩ := exists_nameLists (List.all_eq_true.mp hadmits)
    refine ⟨some r, ?_⟩
    rw [declaredNames, hv]
    change (t.nameLists _).map some = _
    rw [hr]
    rfl
  · obtain ⟨v, hv, hadmits⟩ := (Expr.eval_is t.declares hkind hb).exists_eq
    cases v <;> simp only [Kind.admits, Bool.false_eq_true] at hadmits
    refine ⟨none, ?_⟩
    rw [declaredNames, hv]
    rfl

end Template

/-! ### Variables -/

/-- A named value is of the kind of its name. -/
def FitsKind (k : String × Kind) (d : String × Value) : Prop :=
  k.1 = d.1 ∧ k.2.admits d.2 = true

theorem exists_lookup {vars : Kinds} {l : List (String × Value)}
    (h : List.Forall₂ FitsKind vars l) {n : String} {k : Kind}
    (hn : vars.lookup n = some k) : ∃ v, l.lookup n = some v ∧ k.admits v = true := by
  induction h with
  | nil => exact absurd hn (by simp)
  | @cons d e vars l hde _ ih =>
    obtain ⟨m, v⟩ := e
    obtain ⟨rfl, hadmits⟩ : d.1 = m ∧ d.2.admits v = true := hde
    rw [List.lookup_cons] at hn ⊢
    cases hname : n == d.1 with
    | true =>
      rw [hname] at hn
      obtain rfl := Option.some.inj hn
      exact ⟨v, rfl, hadmits⟩
    | false =>
      rw [hname] at hn
      exact ih hn

/-- Variables of the right kinds make a scope of these kinds. -/
theorem suits_templateScope {vars : Kinds} {l : List (String × Value)} {b : Bag}
    (h : List.Forall₂ FitsKind vars l) (hb : ∀ n, b.lookup n = l.reverse.lookup n) :
    (templateScope b).Suits vars.reverse := by
  refine ⟨rfl, fun {n k} hn => ?_⟩
  obtain ⟨v, hv, hadmits⟩ := exists_lookup (List.forall₂_reverse_iff.mpr h) hn
  have hlookup : lookupVariable (templateScope b) n = ⟨v, []⟩ := by
    rw [lookupVariable, templateScope]
    dsimp only
    rw [hb, hv]
  rw [hlookup]
  exact ⟨rfl, hadmits⟩

/-- Every declared property has a value of the kind of its type. -/
theorem Property.admits_bind {p : Property}
    (hdefault : p.default.all (Kind.ofType p.type).admits = true) (id : String) (raw : Bag) :
    (Kind.ofType p.type).admits (p.bind id raw).1 = true := by
  rw [bind]
  split
  case h_3 =>
    split
    · rename_i w hw
      exact Kind.admits_of_coerce? hw
    · exact Kind.admits_zero p.type
  all_goals
    split
    · rename_i v hv
      rwa [hv] at hdefault
    · exact Kind.admits_zero p.type

theorem Template.fits_values {t : Template} (h : t.isRegular = true) (i : Instance) :
    List.Forall₂ FitsKind (t.properties.map fun p => (p.name, Kind.ofType p.type))
      (Component.ofInstance i t).properties.values := by
  simp only [isRegular, Bool.and_eq_true] at h
  rw [Component.values_ofInstance, List.forall₂_map_left_iff, List.forall₂_map_right_iff,
    List.forall₂_same]
  exact fun p hp => ⟨rfl, p.admits_bind (List.all_eq_true.mp h.1.1.1.1 p hp) i.id i.properties⟩

theorem fits_links (links : List String) (names : String → List String) :
    List.Forall₂ FitsKind (links.map fun l => (l, Kind.names))
      (links.map fun l => (l, Value.texts (names l))) := by
  rw [List.forall₂_map_left_iff, List.forall₂_map_right_iff, List.forall₂_same]
  intro l _
  refine ⟨rfl, Kind.admits_names.mpr ⟨(names l).map Text.normalize, ?_⟩⟩
  simp [Value.texts, Value.text]

/-- Instances of a regular template have variables of the right kinds. -/
theorem Template.fits_variables {t : Template} (h : t.isRegular = true) (i : Instance)
    (names : String → List String) : List.Forall₂ FitsKind t.kinds.reverse
      ((Component.ofInstance i t).properties.values ++
        (t.links.map fun l => (l, Value.texts (names l))) ++ [("id", .text i.id)]) := by
  rw [kinds, List.reverse_reverse]
  exact List.rel_append (List.rel_append (t.fits_values h i) (fits_links t.links names))
    (.cons ⟨rfl, rfl⟩ .nil)

/-- What an entry of a regular template can read. -/
theorem Entry.suits {e : Entry} {i : Instance} {t : Template} (h : t.isRegular = true)
    (he : e.component = Component.ofInstance i t) : (templateScope e.bindings).Suits t.kinds := by
  obtain ⟨component, links⟩ := e
  obtain rfl : component = Component.ofInstance i t := he
  have hsuits := suits_templateScope
    (t.fits_variables h i (Entry.mk (Component.ofInstance i t) links).linked)
    (Value.lookup_sortNamed _)
  rwa [List.reverse_reverse] at hsuits

/-- What the declared names of a regular template can read.  Here the properties
are sorted before the links are added, which changes no look-up. -/
theorem Component.suits {t : Template} (h : t.isRegular = true) (i : Instance) :
    (templateScope (t.declaringBindings i.id (ofInstance i t).properties.bag)).Suits t.kinds := by
  have hbag : ∀ n, (ofInstance i t).properties.bag.reverse.lookup n =
      (ofInstance i t).properties.values.reverse.lookup n := by
    intro n
    have hsorted : Value.sortNamed (ofInstance i t).properties.bag =
        (ofInstance i t).properties.bag :=
      Value.sortNamed_of_ascending (Value.ascending_sortNamed _)
    rw [← Value.lookup_sortNamed, hsorted]
    exact Value.lookup_sortNamed _ n
  have hsuits := suits_templateScope (t.fits_variables h i fun _ => [])
    (b := t.declaringBindings i.id (ofInstance i t).properties.bag) (by
      intro n
      refine (Value.lookup_sortNamed _ n).trans ?_
      simp only [List.reverse_append, List.lookup_append, hbag]
      rfl)
  rwa [List.reverse_reverse] at hsuits

/-! ### Compilations -/

/-- Whether all templates are regular. -/
def Catalog.isRegular (c : Catalog) : Bool := c.templates.all (·.isRegular)

variable {canvas : Canvas} {catalog : Catalog}

theorem Catalog.isRegular_template? (h : catalog.isRegular = true) {id : String} {t : Template}
    (ht : catalog.template? id = some t) : t.isRegular = true :=
  List.all_eq_true.mp h t (List.mem_of_find?_eq_some ht)

/-- **Entries can be rendered.** -/
theorem Canvas.exists_render (h : catalog.isRegular = true) {a : Arrangement}
    (ha : canvas.arrange catalog = .ok (.ok a)) {e : Entry} (he : e ∈ a.entries) :
    ∃ r, e.component.template.render e.bindings = .ok r := by
  obtain ⟨i, _, t, ht, hc⟩ := exists_instance_of_mem_entries ha he
  have hregular := Catalog.isRegular_template? h ht
  have hsuits := Entry.suits hregular hc
  rw [hc]
  exact Template.exists_render hregular hsuits

/-- **Declared names can be told.** -/
theorem Canvas.exists_declaredNames (h : catalog.isRegular = true) {ks : List Component}
    {fs : List Diagnostic} (hks : canvas.components catalog = .ok (ks, fs)) {k : Component}
    (hk : k ∈ ks) : ∃ r, k.template.declaredNames k.id k.properties.bag = .ok r := by
  obtain ⟨i, _, t, ht, rfl⟩ := exists_instance_of_mem_components hks hk
  have hregular := Catalog.isRegular_template? h ht
  exact Template.exists_declaredNames hregular (Component.suits hregular i)

/-- What is written of regular templates is a document. -/
theorem Arrangement.exists_emit (h : catalog.isRegular = true) {a : Arrangement}
    (ha : canvas.arrange catalog = .ok (.ok a)) (header : Header) (cache : RenderCache) :
    ∃ d, (a.emit header cache).1 = .ok d :=
  exists_emit_of_render (fun _ he => Canvas.exists_render h ha he) header cache

namespace Compiler

section

variable {c : Compiler} (hcategories : c.catalog.CategoriesAgree)
  (hregular : c.catalog.isRegular = true) (hknown : canvas.Known c.catalog) (header : Header)

include hcategories hregular hknown

/-- With regular templates, the work ends with a result or breaks off. -/
theorem run_cases :
    (¬canvas.BreaksOff c.catalog ∧ ∃ r, (c.run canvas header false).1 = .ok r) ∨
      (canvas.BreaksOff c.catalog ∧ (c.run canvas header false).1 = .error .broken) := by
  obtain ⟨ks, fs, hks⟩ := Canvas.exists_components hknown
  obtain ⟨findings, hvalidate⟩ := Canvas.exists_validate hks
  obtain ⟨verdict, hverdict⟩ := Canvas.exists_arrange hknown
  cases verdict with
  | error more =>
    refine .inl ⟨fun hbreaks => ?_, .rejected (findings ++ more), ?_⟩
    · obtain ⟨-, a, ha, -⟩ := hbreaks
      cases hverdict.symm.trans ha
    · simp only [run, Canvas.resolve_eq, hvalidate, hverdict, Bool.false_eq_true, if_false]
  | ok a =>
    obtain ⟨_, _, _, ⟨hfree, hresp, _⟩ | ⟨_, _, herror⟩⟩ := Canvas.arrange_eq_ok hverdict
    case inr => cases herror
    have hacceptable := Canvas.hasErrors_validate hcategories hvalidate hfree hresp
    have hbreaks := Canvas.breaksOff_iff hverdict
    cases herr : Diagnostic.hasErrors findings with
    | true =>
      refine .inl ⟨fun h => ?_, .rejected findings, ?_⟩
      · rw [hacceptable.mpr (hbreaks.mp h).1] at herr
        cases herr
      · simp only [run, Canvas.resolve_eq, hvalidate, hverdict, herr, Bool.false_eq_true, if_false,
          if_true]
    | false =>
      obtain ⟨d, hd⟩ := Arrangement.exists_emit hregular hverdict header c.renders
      cases hx : a.interface? with
      | some x =>
        refine .inl ⟨fun h => ?_, _, run_of_emit hvalidate hverdict herr hd hx⟩
        cases hx.symm.trans (hbreaks.mp h).2
      | none =>
        exact .inr ⟨hbreaks.mpr ⟨hacceptable.mp herr, hx⟩,
          run_of_broken hvalidate hverdict herr hd hx⟩

/-- **With regular templates, a compilation has a result or breaks off.**  It breaks
off if it does the work, because no result is remembered, and the work on the
interface breaks off. -/
theorem compile_cases :
    ((∃ r, (c.compile canvas header false).1 = .ok r) ∨
      (c.compile canvas header false).1 = .error .broken) ∧
    ((c.compile canvas header false).1 = .error .broken ↔
      c.remembered? canvas header = none ∧ canvas.BreaksOff c.catalog) := by
  cases hfound : c.remembered? canvas header with
  | some r =>
    have hr : (c.compile canvas header false).1 = .ok r := compile_of_remembered hfound
    rw [hr]
    exact ⟨.inl ⟨r, rfl⟩, by simp⟩
  | none =>
    rw [compile_of_unremembered hfound]
    obtain ⟨hnot, r, hr⟩ | ⟨hbreaks, hr⟩ :=
      run_cases hcategories hregular hknown header.withDefaults
    · rw [hr]
      exact ⟨.inl ⟨r, rfl⟩, by simp [hnot]⟩
    · exact ⟨.inr hr, iff_of_true hr ⟨rfl, hbreaks⟩⟩

end

variable {catalog : Catalog} (hcategories : catalog.CategoriesAgree)
  (hregular : catalog.isRegular = true) (hknown : canvas.Known catalog) (capacity : Nat)
  (header : Header)

include hcategories hregular hknown

/-- **With regular templates, an acceptable canvas is written**, without errors, unless
the work on its interface breaks off. -/
theorem exists_emitted (hacceptable : canvas.Acceptable catalog)
    (hgoes : ¬canvas.BreaksOff catalog) :
    ∃ r, ((new catalog capacity).compile canvas header false).1 = .ok r ∧
      r.status = .emitted ∧ Diagnostic.hasErrors r.findings = false := by
  obtain ⟨⟨r, hr⟩ | hbroken, hiff⟩ :=
    compile_cases (c := new catalog capacity) hcategories hregular hknown header
  · rcases verdict_cases hcategories hr with ⟨-, h⟩ | ⟨hnot, -⟩
    · exact ⟨r, hr, h⟩
    · exact absurd hacceptable hnot
  · exact absurd (hiff.mp hbroken).2 hgoes

/-- Where it breaks off, a new compiler has no result. -/
theorem compile_eq_broken (hbreaks : canvas.BreaksOff catalog) :
    ((new catalog capacity).compile canvas header false).1 = .error .broken :=
  (compile_cases (c := new catalog capacity) hcategories hregular hknown header).2.mpr
    ⟨rfl, hbreaks⟩

end Compiler

end SolidityCanvas
