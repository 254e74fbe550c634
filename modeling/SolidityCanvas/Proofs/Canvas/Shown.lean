/-
Canvases that are shown alike.

The content text of a canvas shows of each property its JSON form, and so does the
text of the variables of an entry.  What a canvas is checked for and how it is
arranged depends on little more.

* `components_shown`: of canvases that are shown alike the components have the same
  findings, and values of the same types and forms (`Component.face`);
* `arrange_shown`: hence they are arranged alike, and the variables of each entry
  have one canonical text;
* `validate_shown`: the same is found, if the same names are declared.  These come
  from expressions, which see more of a number than its text;
* `components_eq_of_shown`: where the texts of numbers tell the numbers, there is no
  difference at all.
-/
import SolidityCanvas.Proofs.Arrangement.Precedence
import SolidityCanvas.Proofs.Canvas.Reformed
import SolidityCanvas.Proofs.Catalog.Schema
import SolidityCanvas.Proofs.Property.Encoding

namespace SolidityCanvas

/-! ### Components -/

/-- What the content text shows of an instance. -/
def Instance.shown (i : Instance) : String × String × List (String × (Json ⊕ Value)) :=
  (i.id, i.template, i.properties.image Value.shown)

namespace Component

/-- What the forms of its values show of a component. -/
def face (k : Component) :
    String × Template × List Diagnostic × List (String × ValueType × (Json ⊕ Value)) :=
  (k.id, k.template, k.findings, Bag.image Value.face k.properties.values)

theorem face_ofInstance {i i' : Instance} (h : i.shown = i'.shown) (t : Template) :
    (ofInstance i t).face = (ofInstance i' t).face := by
  obtain ⟨hid, htemplate, hproperties⟩ : i.id = i'.id ∧ i.template = i'.template ∧
      i.properties.image Value.shown = i'.properties.image Value.shown := by
    simpa [Instance.shown] using h
  obtain ⟨hvalues, hfindings⟩ := bind_shown t.properties hproperties i'.id
  simp only [face, ofInstance, hid, hvalues, hfindings]

/-- The face with the names that the template declares. -/
def profile (k : Component) :
    (String × Template × List Diagnostic × List (String × ValueType × (Json ⊕ Value))) ×
      Except Diagnostic (List Claim) :=
  (k.face, k.declaredClaims)

/-- A component that stands for all those that look like it. -/
noncomputable def standIn {α : Type} (look : Component → α) (k : Component) : Component :=
  Function.invFun look (look k)

variable {α : Type} {look : Component → α}

theorem look_standIn (look : Component → α) (k : Component) : look (standIn look k) = look k :=
  Function.invFun_eq ⟨k, rfl⟩

theorem map_standIn_congr {ks ls : List Component} (h : ks.map look = ls.map look) :
    ks.map (standIn look) = ls.map (standIn look) := by
  have hmap : ∀ l : List Component,
      l.map (standIn look) = (l.map look).map (Function.invFun look) := fun l => by
    rw [List.map_map]
    rfl
  rw [hmap, hmap, h]

/-- Whoever looks closer than at the face keeps what is read of a component. -/
theorem keeps_standIn (look : Component → α) (h : ∀ k l, look k = look l → k.face = l.face) :
    Keeps (standIn look) := by
  have hface : ∀ k, (standIn look k).face = k.face := fun k => h _ _ (look_standIn look k)
  simp only [face, Prod.mk.injEq] at hface
  exact
    { id := fun k => (hface k).1
      category := fun k => congrArg Template.category (hface k).2.1
      properties := fun k => congrArg Template.properties (hface k).2.1
      findings := fun k => (hface k).2.2.1
      words := fun k p => by
        have hwords := Bag.image_congr Value.words_congr (hface k).2.2.2
        rw [Bound.get?, Bound.get?]
        exact (Bag.lookup_image _ _ _).symm.trans
          ((congrArg (List.lookup p) hwords).trans (Bag.lookup_image _ _ _)) }

end Component

/-! ### Entries -/

/-- An entry, with its variables as a text. -/
def Entry.encoded (e : Entry) : String × Template × List (String × List String) × String :=
  (e.id, e.component.template, e.links, e.bindings.canonical)

/-- The entries of each section, with their variables as texts. -/
def Arrangement.encoded (a : Arrangement) :
    List (Section × List (String × Template × List (String × List String) × String)) :=
  a.sections.map fun s => (s.1, s.2.map Entry.encoded)

theorem Entry.encoded_reform (e : Entry) :
    (e.reform (Component.standIn Component.face)).encoded = e.encoded := by
  have hface := Component.look_standIn Component.face e.component
  have hid : (e.reform (Component.standIn Component.face)).id = e.id := congrArg Prod.fst hface
  have htemplate : (e.reform (Component.standIn Component.face)).component.template =
      e.component.template := congrArg (·.2.1) hface
  have hlinked : ∀ l, (e.reform (Component.standIn Component.face)).linked l = e.linked l :=
    fun _ => rfl
  have hvalues : Bag.image Value.face
        (e.reform (Component.standIn Component.face)).component.properties.values =
      Bag.image Value.face e.component.properties.values := congrArg (·.2.2.2) hface
  replace hvalues := Bag.image_congr Value.shown_of_face hvalues
  have hbindings : (e.reform (Component.standIn Component.face)).bindings.canonical =
      e.bindings.canonical := by
    refine Bag.canonical_shown ?_
    rw [bindings, bindings, Bag.image_ofList, Bag.image_ofList, hid, htemplate]
    simp only [hlinked, Bag.image, List.map_append] at hvalues ⊢
    exact congrArg (fun values => Value.sortNamed (values ++ _ ++ _)) hvalues
  rw [encoded, encoded, hid, htemplate, hbindings]
  rfl

theorem Arrangement.encoded_reform (a : Arrangement) :
    (a.reform (Component.standIn Component.face)).encoded = a.encoded := by
  simp only [encoded, reform, List.map_map, Function.comp_def, Entry.encoded_reform]

namespace Canvas

variable {c d : Canvas} {catalog : Catalog}

/-- The content texts show the same of the canvases. -/
structure Alike (c d : Canvas) : Prop where
  instances : c.instances.map Instance.shown = d.instances.map Instance.shown
  connections : c.connections = d.connections

/-- Whether all values of properties can be written. -/
def isEncodable (c : Canvas) : Bool :=
  c.instances.all fun i => i.properties.all fun e => e.2.isEncodable

/-- The values of properties can be written, or are such as documents describe. -/
def IsTold (c : Canvas) : Prop :=
  ∀ i ∈ c.instances, ∀ e ∈ i.properties, e.2.isEncodable ∨ e.2.Described

/-- **Canvases with one content text are shown alike**, if their values can be
written. -/
theorem alike_of_contentText (hc : c.isEncodable) (hd : d.isEncodable)
    (h : c.contentText = d.contentText) : c.Alike d := by
  obtain ⟨hparts, hconnections⟩ := parts_eq_of_contentText_eq h
  have hencodable : ∀ {c : Canvas}, c.isEncodable → ∀ i ∈ c.instances, ∀ e ∈ i.properties,
      e.2.isEncodable := fun hc i hi e he => List.all_eq_true.mp (List.all_eq_true.mp hc i hi) e he
  refine ⟨map_eq_map_of_mem (fun i hi i' hi' hsame => ?_) hparts, hconnections⟩
  simp only [instanceParts, Prod.mk.injEq] at hsame
  obtain ⟨hid, htemplate, hcanonical⟩ := hsame
  rw [Instance.shown, Instance.shown, hid, htemplate,
    Bag.image_shown_of_canonical (hencodable hc i hi) (hencodable hd i' hi') hcanonical]

/-- The same of values that documents describe, if their numbers are told apart. -/
theorem alike_of_told (hN : Number.Distinguished (c.numbers ∪ d.numbers)) (hc : c.IsTold)
    (hd : d.IsTold) (h : c.contentText = d.contentText) : c.Alike d := by
  obtain ⟨hparts, hconnections⟩ := parts_eq_of_contentText_eq h
  refine ⟨map_eq_map_of_mem (fun i hi i' hi' hsame => ?_) hparts, hconnections⟩
  simp only [instanceParts, Prod.mk.injEq] at hsame
  obtain ⟨hid, htemplate, hcanonical⟩ := hsame
  rw [Instance.shown, Instance.shown, hid, htemplate, Bag.image_shown_of_told hN
    (fun e he => ⟨hc i hi e he, fun n hn => .inl ⟨i, hi, e, he, hn⟩⟩)
    (fun e he => ⟨hd i' hi' e he, fun n hn => .inr ⟨i', hi', e, he, hn⟩⟩) hcanonical]

/-! ### What does not depend on more -/

/-- The components have the same faces and the same was found on the way, or there
are none for the same reason. -/
def SameFaces (x y : Except InvariantError (List Component × List Diagnostic)) : Prop :=
  (∃ e, x = .error e ∧ y = .error e) ∨
    ∃ ks ls fs, x = .ok (ks, fs) ∧ y = .ok (ls, fs) ∧
      ks.map Component.face = ls.map Component.face

theorem bindFrom_shown (catalog : Catalog) : ∀ {is is' : List Instance} (seen : List String),
    is.map Instance.shown = is'.map Instance.shown →
      SameFaces (bindFrom catalog seen is) (bindFrom catalog seen is') := by
  intro is
  induction is with
  | nil =>
    intro is' seen h
    rw [List.map_eq_nil_iff.mp h.symm]
    exact .inr ⟨[], [], [], rfl, rfl, rfl⟩
  | cons i is ih =>
    intro is' seen h
    cases is' with
    | nil => cases h
    | cons i' is' =>
      obtain ⟨hi, hrest⟩ := List.cons.inj h
      have hid : i.id = i'.id := congrArg Prod.fst hi
      have htemplate : i.template = i'.template := congrArg (·.2.1) hi
      rw [bindFrom, bindFrom, hid, htemplate]
      split
      · obtain ⟨e, hx, hy⟩ | ⟨ks, ls, fs, hx, hy, hfaces⟩ := ih seen hrest
        · exact .inl ⟨e, by rw [hx]; rfl, by rw [hy]; rfl⟩
        · exact .inr ⟨ks, ls, _, by rw [hx]; rfl, by rw [hy]; rfl, hfaces⟩
      split
      · exact .inl ⟨_, rfl, rfl⟩
      rename_i t _
      have hface := Component.face_ofInstance hi t
      have hfindings : (Component.ofInstance i t).findings = (Component.ofInstance i' t).findings :=
        congrArg (·.2.2.1) hface
      obtain ⟨e, hx, hy⟩ | ⟨ks, ls, fs, hx, hy, hfaces⟩ := ih (i'.id :: seen) hrest
      · exact .inl ⟨e, by rw [hx]; rfl, by rw [hy]; rfl⟩
      · refine .inr ⟨Component.ofInstance i t :: ks, Component.ofInstance i' t :: ls, _,
          by rw [hx]; rfl, ?_, congrArg₂ List.cons hface hfaces⟩
        rw [hy, hfindings]
        rfl

/-- **The components of canvases that are shown alike have the same faces.** -/
theorem components_shown (h : c.Alike d) (catalog : Catalog) :
    SameFaces (c.components catalog) (d.components catalog) :=
  bindFrom_shown catalog [] h.instances

/-- **Canvases that are shown alike are arranged alike**, and the variables of each
entry have one canonical text. -/
theorem arrange_shown (h : c.Alike d) (catalog : Catalog) :
    (c.arrange catalog).map (·.map Arrangement.encoded) =
      (d.arrange catalog).map (·.map Arrangement.encoded) := by
  rw [arrange_eq, arrange_eq, h.connections]
  obtain ⟨e, hx, hy⟩ | ⟨ks, ls, fs, hx, hy, hfaces⟩ := components_shown h catalog
  · rw [hx, hy]
  rw [hx, hy]
  -- Both are arranged as what stands for their components is.
  have hencoded : ∀ ks : List Component,
      (arrangeComponents catalog ks d.connections).map (·.map Arrangement.encoded) =
        (arrangeComponents catalog (ks.map (Component.standIn Component.face))
          d.connections).map (·.map Arrangement.encoded) := by
    intro ks
    have hform := Component.keeps_standIn Component.face fun _ _ h => h
    rw [arrangeComponents_reform hform (usableConnections_reform hform catalog ks d.connections)]
    cases arrangeComponents catalog ks d.connections with
    | error e => rfl
    | ok r =>
      cases r with
      | error ds => rfl
      | ok a => simp only [Except.map, Arrangement.encoded_reform]
  change (arrangeComponents catalog ks d.connections).map _ =
    (arrangeComponents catalog ls d.connections).map _
  rw [hencoded ks, hencoded ls, Component.map_standIn_congr hfaces]

/-- The names that the templates of the components declare. -/
def declaredNames (c : Canvas) (catalog : Catalog) :
    Except InvariantError (List (Except Diagnostic (List Component.Claim))) :=
  (c.components catalog).map fun r => r.1.map Component.declaredClaims

/-- **The same is found on canvases that are shown alike**, if the same names are
declared. -/
theorem validate_shown (h : c.Alike d) (hdeclared : c.declaredNames catalog = d.declaredNames catalog) :
    c.validate catalog = d.validate catalog := by
  rw [validate_eq, validate_eq, h.connections]
  rw [declaredNames, declaredNames] at hdeclared
  obtain ⟨e, hx, hy⟩ | ⟨ks, ls, fs, hx, hy, hfaces⟩ := components_shown h catalog
  · rw [hx, hy]
  rw [hx, hy] at hdeclared ⊢
  have hclaims : ks.map Component.declaredClaims = ls.map Component.declaredClaims :=
    Except.ok.inj hdeclared
  -- Both are checked like what stands for their components and declares the same.
  have hform := Component.keeps_standIn Component.profile fun _ _ h => congrArg Prod.fst h
  have hfindings : ∀ ks : List Component, componentFindings catalog ks d.connections =
      componentFindings catalog (ks.map (Component.standIn Component.profile)) d.connections :=
    fun ks => (componentFindings_reform hform
      (fun k _ => congrArg Prod.snd (Component.look_standIn Component.profile k))
      (connectionFindings_reform hform catalog ks d.connections [])).symm
  have hzip : ∀ ks : List Component, ks.map Component.profile =
      (ks.map Component.face).zip (ks.map Component.declaredClaims) := fun _ => List.zip_map'.symm
  have hprofiles : ks.map Component.profile = ls.map Component.profile := by
    rw [hzip, hzip, hfaces, hclaims]
  change Except.ok (fs ++ componentFindings catalog ks d.connections) =
    Except.ok (fs ++ componentFindings catalog ls d.connections)
  rw [hfindings ks, hfindings ls, Component.map_standIn_congr hprofiles]

/-! ### What depends on numbers -/

theorem bindFrom_eq_of_shown {N : Set Number}
    (hN : ∀ m ∈ N, ∀ n ∈ N, m.text = n.text → m = n) (hcatalog : catalog.Sound) :
    ∀ {is is' : List Instance} (seen : List String),
      (∀ i ∈ is, ∀ e ∈ i.properties, ∀ n ∈ e.2.numbers, n ∈ N) →
      (∀ i ∈ is', ∀ e ∈ i.properties, ∀ n ∈ e.2.numbers, n ∈ N) →
      is.map Instance.shown = is'.map Instance.shown →
        bindFrom catalog seen is = bindFrom catalog seen is' := by
  intro is
  induction is with
  | nil =>
    intro is' seen _ _ h
    rw [List.map_eq_nil_iff.mp h.symm]
  | cons i is ih =>
    intro is' seen his his' h
    cases is' with
    | nil => cases h
    | cons i' is' =>
      obtain ⟨hi, hrest⟩ := List.cons.inj h
      obtain ⟨hnumbers, his⟩ := List.forall_mem_cons.mp his
      obtain ⟨hnumbers', his'⟩ := List.forall_mem_cons.mp his'
      obtain ⟨hid, htemplate, hproperties⟩ : i.id = i'.id ∧ i.template = i'.template ∧
          i.properties.image Value.shown = i'.properties.image Value.shown := by
        simpa [Instance.shown] using hi
      rw [bindFrom, bindFrom, hid, htemplate, ih seen his his' hrest,
        ih (i'.id :: seen) his his' hrest]
      split
      · rfl
      split
      · rfl
      rename_i t ht
      have hbind : bind i.id t.properties i.properties = bind i'.id t.properties i'.properties :=
        hid ▸ bind_eq_of_shown hN
          (fun p hp => (hcatalog t (List.mem_of_find?_eq_some ht) p hp).type)
          hnumbers hnumbers' hproperties i.id
      have hcomponent : Component.ofInstance i t = Component.ofInstance i' t := by
        rw [Component.ofInstance, Component.ofInstance, hbind, hid]
      rw [hcomponent]

/-- **Canvases that are shown alike have the same components**, where the texts of
numbers tell the numbers. -/
theorem components_eq_of_shown (hcatalog : catalog.Sound)
    (hN : Number.Distinguished (c.numbers ∪ d.numbers)) (h : c.Alike d) :
    c.components catalog = d.components catalog :=
  bindFrom_eq_of_shown hN.texts hcatalog [] (fun i hi e he _ hn => .inl ⟨i, hi, e, he, hn⟩)
    (fun i hi e he _ hn => .inr ⟨i, hi, e, he, hn⟩) h.instances

end Canvas

end SolidityCanvas
