/-
A canvas and a catalog that was extended.

With an extended catalog the components of a canvas have templates with
further links (`Component.relink`), and nothing else about them changes.  The
links are empty, and no expression of a template reads them:

* `Catalog.Extends.declaredNames_relink`, `Catalog.Extends.render_relink`: the
  expressions of a template give what they gave;
* `Canvas.components_relink`: the components of a canvas are those it had;
* `Canvas.validate_relink`, `Canvas.arrange_relink`: so are the findings and
  the arrangement of a canvas whose connections were allowed;
* `Arrangement.interface?_relink`: and the interface.
-/
import SolidityCanvas.Compiler
import SolidityCanvas.Proofs.Canvas.Reformed
import SolidityCanvas.Proofs.Catalog.Extension

namespace SolidityCanvas

open Config

variable {catalog catalog' : Catalog}

/-! ### Expressions -/

/-- What the variables of a template hold: the id, what each link holds, and
the values of the properties, where the former go before the latter. -/
theorem lookup_ofList_links (values : List (String × Value)) (links : List String)
    (f : String → Value) (v : Value) (n : String) :
    (Bag.ofList (values ++ links.map (fun l => (l, f l)) ++ [("id", v)])).lookup n =
      if n = "id" then some v else if n ∈ links then some (f n) else values.reverse.lookup n := by
  rw [Bag.ofList, Value.lookup_sortNamed, List.reverse_append, List.reverse_append,
    List.lookup_append, List.lookup_append, ← List.map_reverse, lookup_map_self]
  by_cases hid : n = "id"
  · simp [hid]
  · rw [if_neg hid]
    have hne : (n == "id") = false := beq_eq_false_iff_ne.mpr hid
    by_cases hmem : n ∈ links <;> simp [hne, hmem, List.lookup_cons]

theorem agreeOn_templateScope {b b' : Bag} {n : String} (h : b.lookup n = b'.lookup n) :
    (templateScope b).AgreeOn (templateScope b') n := by
  simp only [Scope.AgreeOn, lookupVariable, templateScope, h]

namespace Template

variable {t u : Template} {s s' : Scope}

theorem nameLists_congr (hid : t.id = u.id) (entries : List (String × Value)) :
    t.nameLists entries = u.nameLists entries := by
  induction entries with
  | nil => rfl
  | cons e entries ih => rw [nameLists, nameLists, ih, hid]

/-- What a template gives depends on its id and on what its expressions come
to. -/
theorem render_congr {b b' : Bag} (hid : t.id = u.id)
    (hemit : t.emit.eval (templateScope b) = u.emit.eval (templateScope b'))
    (himports : t.imports.eval (templateScope b) = u.imports.eval (templateScope b'))
    (hinherits : t.inherits.eval (templateScope b) = u.inherits.eval (templateScope b')) :
    t.render b = u.render b' := by
  have hbody : t.renderBody (templateScope b) = u.renderBody (templateScope b') := by
    rw [renderBody, renderBody, hemit, hid]
  have htexts : ∀ {e e' : Expr}, e.eval (templateScope b) = e'.eval (templateScope b') →
      evalTexts e (templateScope b) = evalTexts e' (templateScope b') := by
    intro e e' h
    rw [evalTexts, evalTexts, h]
  rw [render, render, hbody, htexts himports, htexts hinherits, hid]

theorem declaredNames_congr {id : String} {properties : Bag} (hid : t.id = u.id)
    (h : t.declares.eval (templateScope (t.declaringBindings id properties)) =
      u.declares.eval (templateScope (u.declaringBindings id properties))) :
    t.declaredNames id properties = u.declaredNames id properties := by
  simp only [declaredNames, h, hid, nameLists_congr hid]

end Template

namespace Catalog.Extends

variable {t : Template}

/-- Further links change none of the variables that a template reads. -/
theorem agreeOn (hext : catalog.Extends catalog') (ht : t ∈ catalog.templates) {e : Expr}
    (he : e ∈ [t.emit, t.imports, t.inherits, t.declares]) {r : Reference}
    (hr : r ∈ e.references) (values : List (String × Value)) {f f' : String → Value}
    (hf : ∀ l ∈ t.links, f l = f' l) (v : Value) :
    (templateScope (Bag.ofList (values ++ t.links.map (fun l => (l, f l)) ++ [("id", v)]))).AgreeOn
      (templateScope (Bag.ofList (values ++
        (catalog'.relink t).links.map (fun l => (l, f' l)) ++ [("id", v)]))) r.root := by
  refine agreeOn_templateScope ?_
  rw [lookup_ofList_links, lookup_ofList_links]
  by_cases hid : r.root = "id"
  · rw [if_pos hid, if_pos hid]
  rw [if_neg hid, if_neg hid]
  rcases hext.reads t ht e he r hr with hproperty | hlink | h
  -- A property is no link, neither before nor after.
  · obtain ⟨p, hp, hname⟩ := List.mem_map.mp hproperty
    have hnew := (hext.unshadowed t ht p hp).1
    rw [hname] at hnew
    have hold : r.root ∉ t.links := fun h => hnew (hext.links_subset t ht h)
    rw [if_neg hold, if_neg hnew]
  · rw [if_pos hlink, if_pos (hext.links_subset t ht hlink), hf _ hlink]
  · exact absurd h hid

theorem eval_eq (hext : catalog.Extends catalog') (ht : t ∈ catalog.templates) {e : Expr}
    (he : e ∈ [t.emit, t.imports, t.inherits, t.declares]) (values : List (String × Value))
    {f f' : String → Value} (hf : ∀ l ∈ t.links, f l = f' l) (v : Value) :
    e.eval (templateScope (Bag.ofList (values ++ t.links.map (fun l => (l, f l)) ++ [("id", v)]))) =
      e.eval (templateScope (Bag.ofList (values ++
        (catalog'.relink t).links.map (fun l => (l, f' l)) ++ [("id", v)]))) :=
  Expr.eval_congr e (fun _ hr => hext.agreeOn ht he hr values hf v)
    (fun _ hn => absurd hn List.not_mem_nil) ⟨rfl, rfl⟩

theorem declaredNames_relink (hext : catalog.Extends catalog') (ht : t ∈ catalog.templates)
    (id : String) (properties : Bag) :
    (catalog'.relink t).declaredNames id properties = t.declaredNames id properties :=
  Template.declaredNames_congr rfl
    (hext.eval_eq (e := t.declares) ht (by simp) properties (fun _ _ => rfl) (.text id)).symm

end Catalog.Extends

/-! ### Components -/

/-- The component with the links of a catalog. -/
def Component.relink (k : Component) (catalog : Catalog) : Component :=
  { k with template := catalog.relink k.template }

/-- Nothing but the links of the template changes. -/
theorem Component.keeps_relink (catalog : Catalog) : Keeps (·.relink catalog) where
  id _ := rfl
  category _ := rfl
  properties _ := rfl
  findings _ := rfl
  words _ _ := rfl

/-- The entry with the links of a catalog. -/
def Entry.relink (e : Entry) (catalog : Catalog) : Entry :=
  { e with component := e.component.relink catalog }

/-- The connection with the links of a catalog. -/
def UsableConnection.relink (u : UsableConnection) (catalog : Catalog) : UsableConnection :=
  { u with source := u.source.relink catalog, target := u.target.relink catalog }

/-- The arrangement with the links of a catalog. -/
def Arrangement.relink (a : Arrangement) (catalog : Catalog) : Arrangement :=
  ⟨a.sections.map fun s => (s.1, s.2.map (·.relink catalog))⟩

namespace Catalog.Extends

/-- **An entry is rendered as it was.** -/
theorem rendering_relink (hext : catalog.Extends catalog') {e : Entry}
    (ht : e.component.template ∈ catalog.templates) :
    (e.relink catalog').component.template.render (e.relink catalog').bindings =
      e.component.template.render e.bindings := by
  have heval : ∀ x ∈ [e.component.template.emit, e.component.template.imports,
      e.component.template.inherits, e.component.template.declares],
      x.eval (templateScope (e.relink catalog').bindings) = x.eval (templateScope e.bindings) :=
    fun x hx => (hext.eval_eq ht hx e.component.properties.values
      (fun _ _ => rfl) (.text e.id)).symm
  exact Template.render_congr rfl (heval e.component.template.emit (by simp))
    (heval e.component.template.imports (by simp)) (heval e.component.template.inherits (by simp))

end Catalog.Extends

namespace Canvas

variable {c : Canvas} {ks : List Component} {fs : List Diagnostic}

theorem componentWith?_relink (ks : List Component) (id : String) :
    componentWith? (ks.map (·.relink catalog)) id =
      (componentWith? ks id).map (·.relink catalog) := List.find?_map

theorem bindFrom_relink (hext : catalog.Extends catalog') : ∀ (is : List Instance)
    {seen : List String} {ks : List Component} {fs : List Diagnostic},
    bindFrom catalog seen is = .ok (ks, fs) →
      bindFrom catalog' seen is = .ok (ks.map (·.relink catalog'), fs) := by
  intro is
  induction is with
  | nil =>
    intro seen ks fs h
    obtain ⟨rfl, rfl⟩ := Prod.mk.inj (Except.ok.inj h)
    rfl
  | cons i rest ih =>
    intro seen ks fs h
    rcases bindFrom_cons_eq_ok h with ⟨hi, fs', hrest, rfl⟩ | ⟨hi, k, ks', fs', hk, hrest, rfl, rfl⟩
    · rw [bindFrom, if_pos (List.contains_iff_mem.mpr hi), ih hrest]
      rfl
    · obtain ⟨t, ht, rfl⟩ := componentOf?_eq_some.mp hk
      rw [bindFrom, if_neg (by simpa using hi), hext.template ht]
      dsimp only
      rw [ih hrest]
      rfl

/-- **The components of a canvas are those it had**, with further links. -/
theorem components_relink (hext : catalog.Extends catalog')
    (h : c.components catalog = .ok (ks, fs)) :
    c.components catalog' = .ok (ks.map (·.relink catalog'), fs) :=
  bindFrom_relink hext c.instances h

/-! ### Findings -/

theorem claims_relink (hext : catalog.Extends catalog') {k : Component}
    (hk : k.template ∈ catalog.templates) :
    (k.relink catalog').declaredClaims = k.declaredClaims := by
  rw [Component.declaredClaims, Component.declaredClaims]
  dsimp only [Component.relink]
  rw [hext.declaredNames_relink hk]
  rfl

/-- A connection that was allowed is still allowed. -/
theorem connectionFinding?_relink (hext : catalog.Extends catalog')
    (h : c.components catalog = .ok (ks, fs)) {k : Connection} {rule : Rule}
    (hk : c.Connects catalog k rule) (repeated : Bool) :
    connectionFinding? catalog' (ks.map (·.relink catalog')) repeated k =
      connectionFinding? catalog ks repeated k := by
  obtain ⟨source, target, hs, ht, hr⟩ := hk.allowed
  rw [← componentWith?_eq_componentAt? h] at hs ht
  have hr' : catalog'.rule? (source.relink catalog').template.category.name
      (target.relink catalog').template.category.name = some rule := hext.rule hr
  simp only [connectionFinding?, componentWith?_relink, hs, ht, Option.map_some, hr, hr',
    Option.isSome_some, if_true]

theorem connectionFindings_relink (hext : catalog.Extends catalog')
    (h : c.components catalog = .ok (ks, fs)) : ∀ {connections : List Connection},
    (∀ k ∈ connections, ∃ rule, c.Connects catalog k rule) → ∀ earlier,
      connectionFindings catalog' (ks.map (·.relink catalog')) earlier connections =
        connectionFindings catalog ks earlier connections := by
  intro connections
  induction connections with
  | nil => exact fun _ _ => rfl
  | cons k rest ih =>
    intro hall earlier
    obtain ⟨⟨rule, hk⟩, hrest⟩ := List.forall_mem_cons.mp hall
    rw [connectionFindings, connectionFindings, connectionFinding?_relink hext h hk, ih hrest]

/-- **The findings about a canvas are those it had**, if its connections were
allowed. -/
theorem validate_relink (hext : catalog.Extends catalog') {findings : List Diagnostic}
    (h : c.validate catalog = .ok findings)
    (hconnected : ∀ k ∈ c.connections, ∃ rule, c.Connects catalog k rule) :
    c.validate catalog' = .ok findings := by
  rw [validate_eq] at h ⊢
  cases hks : c.components catalog with
  | error e => simp [hks, Except.map] at h
  | ok found =>
    rw [← h, hks, components_relink hext hks, Except.map, Except.map,
      componentFindings_reform (Component.keeps_relink catalog')
        (fun k hk => claims_relink hext (template_mem_of_mem_components hks hk))
        (connectionFindings_relink hext hks hconnected [])]

/-! ### Arrangements -/

theorem usable?_relink (hext : catalog.Extends catalog')
    (h : c.components catalog = .ok (ks, fs)) {k : Connection} {rule : Rule}
    (hk : c.Connects catalog k rule) :
    usable? catalog' (ks.map (·.relink catalog')) k =
      (usable? catalog ks k).map (·.relink catalog') := by
  obtain ⟨source, target, hs, ht, hr⟩ := hk.allowed
  rw [← componentWith?_eq_componentAt? h] at hs ht
  have hr' : catalog'.rule? (source.relink catalog').template.category.name
      (target.relink catalog').template.category.name = some rule := hext.rule hr
  have hne : (k.source == k.target) = false := beq_eq_false_iff_ne.mpr hk.ne
  simp only [usable?, componentWith?_relink, hs, ht, Option.map_some, hne, Bool.false_eq_true,
    if_false, Option.bind_eq_bind, Option.bind_some, hr, hr', Option.pure_def]
  rfl

theorem usableConnections_relink (hext : catalog.Extends catalog')
    (h : c.components catalog = .ok (ks, fs))
    (hconnected : ∀ k ∈ c.connections, ∃ rule, c.Connects catalog k rule) :
    usableConnections catalog' (ks.map (·.relink catalog')) c.connections =
      (usableConnections catalog ks c.connections).map (·.relink catalog') := by
  rw [usableConnections, usableConnections, List.map_filterMap]
  refine List.filterMap_congr fun k hk => ?_
  obtain ⟨rule, hconnects⟩ := hconnected k (List.mem_eraseDups.mp hk)
  exact usable?_relink hext h hconnects

/-- **A canvas is arranged as it was**, if its connections were allowed. -/
theorem arrange_relink (hext : catalog.Extends catalog') {a : Arrangement}
    (h : c.arrange catalog = .ok (.ok a))
    (hconnected : ∀ k ∈ c.connections, ∃ rule, c.Connects catalog k rule) :
    c.arrange catalog' = .ok (.ok (a.relink catalog')) := by
  rw [arrange_eq] at h ⊢
  obtain ⟨⟨ks, bound⟩, hks, h⟩ := except_bind_eq_ok.mp h
  rw [components_relink hext hks]
  dsimp only at h
  change arrangeComponents catalog' (ks.map (·.relink catalog')) c.connections = _
  rw [arrangeComponents_reform (Component.keeps_relink catalog')
    (usableConnections_relink hext hks hconnected), h]
  rfl

end Canvas

/-! ### What is written -/

namespace Arrangement

theorem entries_relink (a : Arrangement) :
    (a.relink catalog).entries = a.entries.map (·.relink catalog) := by
  rw [entries, entries, relink, List.flatMap_map, List.map_flatMap]

theorem order_relink (a : Arrangement) : (a.relink catalog).order = a.order := by
  rw [order, order, entries_relink, List.map_map]
  rfl

/-- **The interface of an arrangement is the one it had.** -/
theorem interface?_relink (a : Arrangement) : (a.relink catalog).interface? = a.interface? := by
  have htypes : UserTypes.ofEntries (a.entries.map (·.relink catalog)) =
      UserTypes.ofEntries a.entries := by
    simp only [UserTypes.ofEntries, List.filter_map, List.map_map]
    rfl
  rw [interface?, interface?, entries_relink, htypes, List.foldlM_map]
  rfl

end Arrangement

end SolidityCanvas
