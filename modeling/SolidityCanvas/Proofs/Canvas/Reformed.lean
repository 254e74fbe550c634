/-
Canvases whose components are given another form.

The check and the arrangement of a canvas read of a component its id, its category,
the properties its template declares, what is wrong with it, and the texts among its
values (`Component.Keeps`).  Any form that keeps these leaves what is found as it was,
and the arrangement but for the form of its components.

* `componentFindings_reform`: what is found, if the same names are declared;
* `arrangeComponents_reform`: the arrangement.
-/
import SolidityCanvas.Arrangement
import SolidityCanvas.Proofs.Value.Shown
import SolidityCanvas.Validation

namespace SolidityCanvas

/-! ### Components -/

namespace Bound

variable {b : Bound} {p : String}

theorem text_eq_words (b : Bound) (p : String) :
    b.text p = (((b.get? p).map Value.words).bind (·.1)).getD "" := by
  rw [text]
  cases b.get? p with
  | none => rfl
  | some v => cases v <;> rfl

theorem texts_eq_words (b : Bound) (p : String) :
    b.texts p = (((b.get? p).map Value.words).map (·.2)).getD [] := by
  rw [texts, texts?]
  cases b.get? p with
  | none => rfl
  | some v =>
    cases v with
    | list t items => cases t <;> rfl
    | _ => rfl

end Bound

namespace Component

theorem textsOf_eq_words (v : Value) : textsOf v = v.words.1.toList ++ v.words.2 := by
  cases v with
  | list t items => cases t <;> rfl
  | _ => rfl

theorem valueFindings_eq_words (k : Component) (declared : String → Bool) (p : Property) :
    k.valueFindings declared p = if k.isBad p.name then [] else
      match (k.properties.get? p.name).map Value.words with
      | none => []
      | some (s?, ss) =>
        (match s? with
          | none => []
          | some s =>
            if p.oneOf.isEmpty || p.oneOf.contains s then []
            else [Diagnostic.warningOn Code.unexpectedOption k.id p.name
              (Text.quoted s ++ " is not one of " ++ quotedList p.oneOf)]) ++
        if p.check == .identifier && k.template.category.nameProperty == some p.name then []
        else (s?.toList ++ ss).filterMap fun s =>
          (checkFinding? declared p.check s).map fun (code, message) =>
            Diagnostic.warningOn code k.id p.name message := by
  rw [valueFindings]
  split
  · rfl
  cases k.properties.get? p.name with
  | none => rfl
  | some v =>
    dsimp only [Option.map_some]
    rw [textsOf_eq_words]
    cases v <;> rfl

/-- The form keeps what the check and the arrangement read of a component. -/
structure Keeps (form : Component → Component) : Prop where
  id : ∀ k, (form k).id = k.id
  category : ∀ k, (form k).template.category = k.template.category
  properties : ∀ k, (form k).template.properties = k.template.properties
  findings : ∀ k, (form k).findings = k.findings
  words : ∀ k p, ((form k).properties.get? p).map Value.words =
    (k.properties.get? p).map Value.words

namespace Keeps

variable {form : Component → Component} (hform : Keeps form)

include hform

theorem text (k : Component) (p : String) : (form k).properties.text p = k.properties.text p := by
  rw [Bound.text_eq_words, Bound.text_eq_words, hform.words]

theorem texts (k : Component) (p : String) :
    (form k).properties.texts p = k.properties.texts p := by
  rw [Bound.texts_eq_words, Bound.texts_eq_words, hform.words]

theorem isBad (k : Component) (p : String) : (form k).isBad p = k.isBad p := by
  rw [Component.isBad, Component.isBad, hform.findings]

theorem name (k : Component) : (form k).name = k.name := by
  rw [Component.name, Component.name, hform.category]
  cases k.template.category.nameProperty with
  | none => rfl
  | some p => exact hform.text k p

theorem displayName (k : Component) : (form k).displayName = k.displayName := by
  rw [Component.displayName, Component.displayName, hform.name, hform.id]

theorem typeProperty (k : Component) : (form k).typeProperty = k.typeProperty := by
  rw [Component.typeProperty, Component.typeProperty, hform.category]

theorem declaredType? (k : Component) : (form k).declaredType? = k.declaredType? := by
  rw [Component.declaredType?, Component.declaredType?, hform.category, hform.typeProperty,
    hform.text]

theorem nameFindings (k : Component) : (form k).nameFindings = k.nameFindings := by
  simp only [Component.nameFindings, hform.category, hform.isBad, hform.name, hform.id]

theorem valueFindings (k : Component) (declared : String → Bool) :
    (form k).valueFindings declared = k.valueFindings declared := by
  funext p
  rw [valueFindings_eq_words, valueFindings_eq_words]
  simp only [hform.isBad, hform.words, hform.id, hform.category]

theorem ownClaims (k : Component) : (form k).ownClaims = k.ownClaims := by
  simp only [Component.ownClaims, hform.category, hform.isBad, hform.name]

theorem typeTexts (k : Component) (p : Property) :
    Canvas.typeTexts (form k) p = Canvas.typeTexts k p := by
  simp only [Canvas.typeTexts, hform.text, hform.texts]

end Keeps

end Component

/-! ### Findings -/

namespace Canvas

open Component (Keeps)

/-- What is wrong with some components and the connections between them. -/
def componentFindings (catalog : Catalog) (ks : List Component) (connections : List Connection) :
    List Diagnostic :=
  (ks.flatMap fun k =>
      k.nameFindings ++ k.template.properties.flatMap (k.valueFindings (declaresType ks))) ++
    singletonFindings ks ++ collisionFindings ks ++ connectionFindings catalog ks [] connections

theorem validate_eq (c : Canvas) (catalog : Catalog) : c.validate catalog =
    (c.components catalog).map fun r => r.2 ++ componentFindings catalog r.1 c.connections := by
  rw [validate]
  cases c.components catalog with
  | error e => rfl
  | ok r => simp only [componentFindings, List.append_assoc]; rfl

theorem holder?_reform (form : Component → Component)
    (claimed : List (Component × List Component.Claim)) (nameSpace name : String) :
    holder? (claimed.map fun p => (form p.1, p.2)) nameSpace name =
      (holder? claimed nameSpace name).map form := by
  rw [holder?, holder?, List.find?_map, Option.map_map, Option.map_map]
  rfl

variable {form : Component → Component} (hform : Keeps form) {catalog catalog' : Catalog}
  {ks : List Component}

include hform

theorem componentWith?_reform (ks : List Component) (id : String) :
    componentWith? (ks.map form) id = (componentWith? ks id).map form := by
  rw [componentWith?, List.find?_map]
  simp only [Function.comp_def, hform.id]
  rfl

theorem declaresType_reform (ks : List Component) :
    declaresType (ks.map form) = declaresType ks := by
  funext name
  simp only [declaresType, List.any_map, Function.comp_def, hform.isBad, hform.typeProperty,
    hform.declaredType?]

theorem singletonFindings_reform (ks : List Component) :
    singletonFindings (ks.map form) = singletonFindings ks := by
  rw [singletonFindings, singletonFindings, List.flatMap_map]
  refine List.flatMap_congr fun k _ => ?_
  simp only [List.find?_map, Function.comp_def, hform.category, hform.id]
  cases ks.find? (·.template.category.name == k.template.category.name) with
  | none => rfl
  | some holder => simp only [Option.map_some, hform.id]

/-- The names that collide are the same, if the same names are declared. -/
theorem collisionFindings_reform
    (hclaims : ∀ k ∈ ks, (form k).declaredClaims = k.declaredClaims) :
    collisionFindings (ks.map form) = collisionFindings ks := by
  have hclaimed : (ks.map form).map (fun k => (k, k.claims)) =
      (ks.map fun k => (k, k.claims)).map fun p => (form p.1, p.2) := by
    rw [List.map_map, List.map_map]
    refine List.map_congr_left fun k hk => Prod.ext rfl ?_
    simp only [Function.comp_apply, Component.claims, hclaims k hk, hform.ownClaims]
  have hclaim : ∀ (claimed : List (Component × List Component.Claim)) (k : Component),
      claimFinding? (claimed.map fun p => (form p.1, p.2)) (form k) = claimFinding? claimed k := by
    intro claimed k
    funext x
    rw [claimFinding?, claimFinding?, holder?_reform]
    cases holder? claimed x.nameSpace x.name with
    | none => rfl
    | some holder => simp only [Option.map_some, hform.id]
  rw [collisionFindings, collisionFindings, hclaimed]
  -- Who holds a name is looked up among all, who claims it goes through one by one.
  simp only [List.flatMap_map, hclaim]
  refine List.flatMap_congr fun k hk => ?_
  rw [Component.claimFindings, Component.claimFindings, hclaims k hk]

theorem connectionFinding?_reform (catalog : Catalog) (ks : List Component) (repeated : Bool)
    (k : Connection) : connectionFinding? catalog (ks.map form) repeated k =
      connectionFinding? catalog ks repeated k := by
  simp only [connectionFinding?, componentWith?_reform hform]
  cases componentWith? ks k.source <;> cases componentWith? ks k.target <;>
    simp only [Option.map_some, Option.map_none, hform.category, Option.isSome_some, Option.isSome_none]

theorem connectionFindings_reform (catalog : Catalog) (ks : List Component) :
    ∀ (connections earlier : List Connection),
      connectionFindings catalog (ks.map form) earlier connections =
        connectionFindings catalog ks earlier connections := by
  intro connections
  induction connections with
  | nil => exact fun _ => rfl
  | cons k rest ih =>
    intro earlier
    rw [connectionFindings, connectionFindings, connectionFinding?_reform hform, ih]

/-- **What is found about components depends only on what the form keeps**, and on
the names that they declare. -/
theorem componentFindings_reform {connections : List Connection}
    (hclaims : ∀ k ∈ ks, (form k).declaredClaims = k.declaredClaims)
    (hconnections : connectionFindings catalog' (ks.map form) [] connections =
      connectionFindings catalog ks [] connections) :
    componentFindings catalog' (ks.map form) connections =
      componentFindings catalog ks connections := by
  simp only [componentFindings, singletonFindings_reform hform,
    collisionFindings_reform hform hclaims, hconnections, declaresType_reform hform,
    List.flatMap_map, hform.nameFindings, hform.properties, hform.valueFindings]

end Canvas

/-! ### Arrangements -/

/-- The entry with another form of its component. -/
def Entry.reform (form : Component → Component) (e : Entry) : Entry :=
  { e with component := form e.component }

/-- The connection with another form of its ends. -/
def UsableConnection.reform (form : Component → Component) (u : UsableConnection) :
    UsableConnection :=
  { u with source := form u.source, target := form u.target }

/-- The arrangement with another form of its components. -/
def Arrangement.reform (form : Component → Component) (a : Arrangement) : Arrangement :=
  ⟨a.sections.map fun s => (s.1, s.2.map (·.reform form))⟩

namespace Canvas

open Component (Keeps)

variable {form : Component → Component} {catalog catalog' : Catalog} {ks : List Component}

@[simp] theorem dependent_reform (u : UsableConnection) :
    (u.reform form).dependent = form u.dependent := by
  rw [UsableConnection.dependent, UsableConnection.dependent, apply_ite form]
  rfl

@[simp] theorem provider_reform (u : UsableConnection) :
    (u.reform form).provider = form u.provider := by
  rw [UsableConnection.provider, UsableConnection.provider, apply_ite form]
  rfl

variable (hform : Keeps form)

include hform

theorem usable?_reform (catalog : Catalog) (ks : List Component) (k : Connection) :
    usable? catalog (ks.map form) k = (usable? catalog ks k).map (·.reform form) := by
  rw [usable?, usable?]
  split
  · rfl
  rw [componentWith?_reform hform, componentWith?_reform hform]
  cases componentWith? ks k.source with
  | none => rfl
  | some source =>
    cases componentWith? ks k.target with
    | none => rfl
    | some target =>
      simp only [Option.map_some, Option.bind_eq_bind, Option.bind_some, hform.category]
      cases catalog.rule? source.template.category.name target.template.category.name <;> rfl

theorem usableConnections_reform (catalog : Catalog) (ks : List Component)
    (connections : List Connection) : usableConnections catalog (ks.map form) connections =
      (usableConnections catalog ks connections).map (·.reform form) := by
  rw [usableConnections, usableConnections, List.map_filterMap]
  exact List.filterMap_congr fun k _ => usable?_reform hform catalog ks k

theorem entryOf_reform (ks : List Component) (us : List UsableConnection) (k : Component) :
    entryOf (ks.map form) (us.map (·.reform form)) (form k) = (entryOf ks us k).reform form := by
  have hrule : ∀ u : UsableConnection, (u.reform form).rule = u.rule := fun _ => rfl
  simp only [entryOf, linkedNames, List.filter_map, List.map_map, List.flatMap_map,
    Function.comp_def, dependent_reform, provider_reform, hform.id, hrule, hform.displayName]
  rfl

theorem typeProviders_reform (ks : List Component) (k : Component) :
    typeProviders (ks.map form) (form k) = typeProviders ks k := by
  have hdeclarer : typeDeclarer? (ks.map form) = typeDeclarer? ks := by
    funext name
    simp only [typeDeclarer?, List.find?_map, Option.map_map, Function.comp_def,
      hform.declaredType?, hform.id]
  simp only [typeProviders, hdeclarer, hform.properties, hform.typeTexts, hform.id]

theorem precedences_reform (ks : List Component) (us : List UsableConnection) :
    precedences (ks.map form) (us.map (·.reform form)) = precedences ks us := by
  have hprecedence : ∀ u : UsableConnection, (u.reform form).precedence? = u.precedence? := by
    intro u
    simp only [UsableConnection.precedence?, UsableConnection.reform, hform.id]
  simp only [precedences, List.filterMap_map, List.flatMap_map, Function.comp_def, hprecedence,
    typeProviders_reform hform, hform.id]

theorem conflictFinding?_reform (ks : List Component) :
    conflictFinding? (ks.map form) = conflictFinding? ks := by
  have hzone : zoneOf? (ks.map form) = zoneOf? ks := by
    funext id
    simp only [zoneOf?, componentWith?_reform hform, Option.map_map, Function.comp_def,
      hform.category]
  funext p
  rw [conflictFinding?, conflictFinding?, hzone]

theorem sectionEntries_reform (entries : List Entry) (ps : List Precedence) (zone : Section) :
    sectionEntries (entries.map (·.reform form)) ps zone =
      (sectionEntries entries ps zone).map (·.map (·.reform form)) := by
  have hid : ∀ e : Entry, (e.reform form).id = e.id := fun e => hform.id e.component
  have hzone : ∀ e : Entry, (e.reform form).component.template.category.zone =
      e.component.template.category.zone := fun e => congrArg Category.zone (hform.category e.component)
  simp only [sectionEntries, List.filter_map, Function.comp_def, hzone, List.map_map, hid,
    List.find?_map]
  -- From here on only the entries differ: the ids are sorted, and looked up among them.
  generalize addPrecedences _ _ = g
  cases g with
  | error e => rfl
  | ok g =>
    have hbind : ∀ f : Graph → Except InvariantError (List Entry), Except.ok g >>= f = f g :=
      fun _ => rfl
    rw [hbind, hbind]
    cases g.sort? g.addedBefore with
    | none => rfl
    | some order =>
      exact congrArg Except.ok List.map_filterMap.symm

/-- The entries of all sections, in the order of a contract. -/
theorem mapM_sectionEntries_reform (entries : List Entry) (ps : List Precedence)
    (zones : List Section) :
    (zones.mapM fun zone => do
      let inOrder ← sectionEntries (entries.map fun e => e.reform form) ps zone
      return (zone, inOrder)) =
    (zones.mapM fun zone => do
      let inOrder ← sectionEntries entries ps zone
      return (zone, inOrder)).map
        fun sections => ((Arrangement.mk sections).reform form).sections := by
  simp only [sectionEntries_reform hform]
  induction zones with
  | nil => rfl
  | cons zone zones ih =>
    rw [List.mapM_cons, List.mapM_cons, ih]
    cases sectionEntries entries ps zone with
    | error e => rfl
    | ok inOrder =>
      generalize (List.mapM _ zones : Except InvariantError _) = rest
      cases rest <;> rfl

/-- **The arrangement is the same but for the form of its components**, if the
connections that can be used are. -/
theorem arrangeComponents_reform {connections : List Connection}
    (husable : usableConnections catalog' (ks.map form) connections =
      (usableConnections catalog ks connections).map (·.reform form)) :
    arrangeComponents catalog' (ks.map form) connections =
      (arrangeComponents catalog ks connections).map (·.map (·.reform form)) := by
  have hids : (ks.map form).map (·.id) = ks.map (·.id) := by
    simp only [List.map_map, Function.comp_def, hform.id]
  have hentries : ∀ us : List UsableConnection,
      (ks.map form).map (entryOf (ks.map form) (us.map (·.reform form))) =
        (ks.map (entryOf ks us)).map (·.reform form) := by
    intro us
    simp only [List.map_map, Function.comp_def, entryOf_reform hform]
  rw [arrangeComponents, arrangeComponents, husable, precedences_reform hform, hids,
    conflictFinding?_reform hform]
  dsimp only
  rw [hentries, mapM_sectionEntries_reform hform]
  generalize addPrecedences _ _ = g
  cases g with
  | error e => rfl
  | ok g =>
    have hbind : ∀ f : Graph → Except InvariantError (Except (List Diagnostic) Arrangement),
        Except.ok g >>= f = f g := fun _ => rfl
    rw [hbind, hbind]
    cases g.cycles with
    | cons => rfl
    | nil =>
      generalize List.filterMap _ _ = conflicts
      cases conflicts with
      | cons => rfl
      | nil =>
        generalize (List.mapM _ Section.all : Except InvariantError _) = sections
        cases sections <;> rfl

end Canvas

end SolidityCanvas
