/-
The types that the check of a canvas and its order know.

The check takes a name for a type if a component declares it by a value that can be
used; the order looks for the first component that declares it.  Both know the same
names, since a value that cannot be used gives no name at all
(`declaresType_iff`).  Whether a text is a type depends on the words of the text alone
(`Solidity.isType_of_words`), and these are what the order looks at.  Hence no text is
a type by a name whose declaration need not come first
(`checked_types_are_ordered`).

What a component mentions (`Component.Mentions`) is read from it but for one case, a
declaration that starts with a mapping whose parenthesis stands behind white space.
All other mentions put the declaration of the type first (`mentions_are_ordered`).
-/
import SolidityCanvas.Proofs.Arrangement.Precedence
import SolidityCanvas.Proofs.Catalog.Scope
import SolidityCanvas.Proofs.Property.Binding
import SolidityCanvas.Proofs.Solidity.Grammar

namespace SolidityCanvas

open Solidity

/-- The type in a text, for a check that asks for one. -/
def Check.typeIn? : Check → String → Option String
  | .type, s => some s
  | .parameters, s | .fields, s => some (Parameter.read s).type
  | _, _ => none

/-- A checked text mentions a name as a type: a type holds it as a word, and a
declaration has it in the type that it starts with. -/
def Check.Mentions : Check → String → String → Prop
  | .type, s, name => name ∈ identifiers s
  | .parameters, s, name | .fields, s, name => MentionsInType s name
  | _, _, _ => False

/-- A text of a component mentions a name as a type, in a property that is checked for
types. -/
structure Component.Mentions (k : Component) (p : Property) (s name : String) : Prop where
  mem : p ∈ k.template.properties
  holds : ∃ v, k.properties.get? p.name = some v ∧ s ∈ textsOf v
  mentions : p.check.Mentions s name

/-! ### Values that cannot be used -/

/-- What is missing or does not conform has the zero of its type for a value. -/
theorem Property.bind_of_fault {p : Property} {raw : Bag}
    (h : (p.isMissing raw || p.isMismatched raw) = true) (id : String) :
    (p.bind id raw).1 = .zero p.type := by
  cases hgiven : raw.given? p.name with
  | none =>
    have hmismatched : p.isMismatched raw = false := by simp [isMismatched, hgiven]
    obtain ⟨-, -, hzero, -⟩ | ⟨v, -, hmissing, -⟩ := bind_of_absent hgiven id
    · exact hzero
    · simp [hmissing, hmismatched] at h
  | some v =>
    have hmissing : p.isMissing raw = false := by simp [isMissing, hgiven]
    obtain ⟨-, -, hzero, -⟩ | ⟨w, -, hmismatched, -⟩ := bind_of_given hgiven id
    · exact hzero
    · simp [hmissing, hmismatched] at h

namespace Component

variable {k : Component} {n name : String}

/-- A property whose value could not be used has the zero of its type. -/
theorem get?_of_isBad {i : Instance} {t : Template} (hschema : Schema t.properties)
    (hbad : (ofInstance i t).isBad n = true) :
    ∃ p ∈ t.properties, p.name = n ∧ (ofInstance i t).properties.get? n = some (.zero p.type) := by
  obtain ⟨d, hd, hfinding⟩ := List.any_eq_true.mp hbad
  obtain ⟨herror, hname⟩ := Bool.and_eq_true_iff.mp hfinding
  obtain rfl := beq_iff_eq.mp hname
  have hheading := List.mem_map_of_mem (f := Diagnostic.heading) hd
  rw [ofInstance, SolidityCanvas.heading_bind, List.mem_append, List.mem_map, List.mem_map] at hheading
  rcases hheading with ⟨p, hp, hpd⟩ | ⟨_, -, hwarning⟩
  · obtain ⟨hmem, hfault⟩ := List.mem_filter.mp hp
    have hpname : p.name = d.property := congrArg (·.2.2.2) hpd
    refine ⟨p, hmem, hpname, ?_⟩
    rw [← hpname, ← Property.bind_of_fault hfault i.id]
    exact get?_bind hschema hmem i.id i.properties
  · have hseverity : Severity.warning = d.severity := congrArg (·.1) hwarning
    rw [Diagnostic.isError, ← hseverity] at herror
    cases herror

theorem text_of_isBad {i : Instance} {t : Template} (hschema : Schema t.properties)
    (hbad : (ofInstance i t).isBad n = true) : (ofInstance i t).properties.text n = "" := by
  obtain ⟨p, -, -, hvalue⟩ := get?_of_isBad hschema hbad
  rw [Bound.text, hvalue]
  cases p.type <;> rfl

theorem isIdentifier_of_declaredType? (h : k.declaredType? = some name) :
    isIdentifier name = true ∧ k.properties.text k.typeProperty = name := by
  rw [declaredType?] at h
  split at h
  next htype =>
    obtain rfl := Option.some.inj h
    exact ⟨(Bool.and_eq_true_iff.mp htype).2, rfl⟩
  next => cases h

/-- The finding about a text depends on the declared names by its type alone. -/
theorem checkFinding?_congr {d₁ d₂ : String → Bool} {check : Check} {s : String}
    (h : ∀ t, check.typeIn? s = some t → isType t d₁ = isType t d₂) :
    checkFinding? d₁ check s = checkFinding? d₂ check s := by
  cases check with
  | type => rw [checkFinding?, checkFinding?, h s rfl]
  | parameters | fields =>
    rw [checkFinding?, checkFinding?, declarationFinding?, declarationFinding?,
      h (Parameter.read s).type rfl]
  | _ => rfl

/-- The types that the order looks at are those in the texts of a property. -/
theorem typeTexts_eq (k : Component) (p : Property) : Canvas.typeTexts k p =
    (if (k.properties.text p.name).isEmpty then k.properties.texts p.name
      else [k.properties.text p.name]).filterMap p.check.typeIn? := by
  rw [Canvas.typeTexts]
  cases p.check with
  | type => exact List.filterMap_some.symm
  | parameters | fields => exact congrFun List.filterMap_eq_map'.symm _
  | _ => exact (List.filterMap_none _).symm

/-- The types that are looked at in a checked text of a property are those that the
order looks at, if they hold a word. -/
theorem mem_typeTexts {p : Property} {v : Value} {s t : String}
    (hv : k.properties.get? p.name = some v) (hs : s ∈ textsOf v)
    (ht : p.check.typeIn? s = some t) (hne : identifiers t ≠ []) :
    t ∈ Canvas.typeTexts k p := by
  rw [typeTexts_eq, List.mem_filterMap]
  refine ⟨s, ?_, ht⟩
  rw [Bound.text, Bound.texts, Bound.texts?, hv]
  cases v with
  | string s' =>
    obtain rfl := List.mem_singleton.mp hs
    rw [if_neg]
    · exact List.mem_singleton_self s
    · -- The empty text holds no word.
      intro hempty
      obtain rfl := String.isEmpty_iff.mp hempty
      cases hcheck : p.check <;> rw [hcheck] at ht <;> cases ht <;> exact hne (by decide)
  | list type items =>
    cases type with
    | string => exact hs
    | _ => cases hs
  | _ => cases hs

/-- What is mentioned is read, but for what a mapping holds whose parenthesis stands behind
white space. -/
theorem Mentions.readsType {p : Property} {s : String} (h : k.Mentions p s name)
    (hread : p.check = .type ∨ ¬StartsWithLooseMapping s) : k.ReadsType name := by
  obtain ⟨hp, ⟨v, hv, hs⟩, hmentions⟩ := h
  obtain ⟨t, ht, hname⟩ : ∃ t, p.check.typeIn? s = some t ∧ name ∈ identifiers t := by
    cases hcheck : p.check with
    | type =>
      rw [hcheck] at hmentions
      exact ⟨s, rfl, hmentions⟩
    | parameters | fields =>
      rw [hcheck] at hmentions hread
      exact ⟨_, rfl, mem_identifiers_read hmentions (hread.resolve_left (by decide))⟩
    | _ =>
      rw [hcheck] at hmentions
      exact hmentions.elim
  exact ⟨p, hp, t, mem_typeTexts hv hs ht (List.ne_nil_of_mem hname), hname⟩

end Component

namespace Canvas

variable {c : Canvas} {catalog : Catalog} {ks : List Component} {fs : List Diagnostic}
  {name : String}

/-! ### Declared names -/

theorem isIdentifier_of_declaresType (h : declaresType ks name = true) :
    isIdentifier name = true := by
  obtain ⟨k, -, hk⟩ := List.any_eq_true.mp h
  exact (Component.isIdentifier_of_declaredType?
    (beq_iff_eq.mp (Bool.and_eq_true_iff.mp hk).2)).1

/-- **The check and the order know the same types.** -/
theorem declaresType_iff (hschema : ∀ t ∈ catalog.templates, Schema t.properties)
    (hks : c.components catalog = .ok (ks, fs)) :
    declaresType ks name = true ↔ ∃ id, typeDeclarer? ks name = some id := by
  have husable : ∀ k ∈ ks, k.declaredType? = some name → k.isBad k.typeProperty = false := by
    intro k hk hname
    obtain ⟨i, -, t, ht, rfl⟩ := exists_instance_of_mem_components hks hk
    obtain ⟨hid, htext⟩ := Component.isIdentifier_of_declaredType? hname
    by_contra hbad
    rw [Component.text_of_isBad (hschema t (List.mem_of_find?_eq_some ht))
      (Bool.eq_true_of_not_eq_false hbad)] at htext
    -- A value that cannot be used is no identifier.
    rw [← htext] at hid
    exact absurd hid (by decide)
  have hfirst : (∃ id, typeDeclarer? ks name = some id) ↔
      ∃ k ∈ ks, k.declaredType? = some name := by
    simp only [typeDeclarer?, ← Option.isSome_iff_exists, Option.isSome_map, List.find?_isSome,
      beq_iff_eq]
  rw [hfirst, declaresType, List.any_eq_true]
  constructor
  · rintro ⟨k, hk, hdeclares⟩
    exact ⟨k, hk, beq_iff_eq.mp (Bool.and_eq_true_iff.mp hdeclares).2⟩
  · rintro ⟨k, hk, hname⟩
    exact ⟨k, hk, by rw [husable k hk hname, hname, beq_self_eq_true]; rfl⟩

/-- What has components has them for the check and for the order. -/
theorem bindOnto_of_components (hks : c.components catalog = .ok (ks, fs)) :
    bindOnto catalog [] c.instances = .ok ks := by
  have hnone : ∀ id, (componentWith? [] id).isSome = [].contains id := fun _ => rfl
  rw [components] at hks
  rw [bindOnto_eq catalog c.instances hnone, hks]
  rfl

/-- A declared name that a text mentions puts its declaration before the component. -/
theorem mem_precedences_of_word (hks : c.components catalog = .ok (ks, fs)) {k : Component}
    (hk : k ∈ ks) {p : Property} (hp : p ∈ k.template.properties) {t : String}
    (ht : t ∈ typeTexts k p) (hname : name ∈ identifiers t) {id : String}
    (hid : typeDeclarer? ks name = some id) : id = k.id ∨
      ⟨id, k.id, none⟩ ∈ precedences ks (usableConnections catalog ks c.connections) := by
  refine or_iff_not_imp_left.mpr fun hne => (mem_precedences hks).mpr ?_
  exact .mention ((mem_components hks).mp hk) ⟨p, hp, t, ht, hname⟩
    ((typeDeclarer?_eq_some hks).mp hid) hne

/-- **No text is a type by a name whose declaration need not come first.**  Whether a
text is a type depends on the identifiers among its words, and the finding about a
checked text on whether its type is one.  The check of a canvas and its order have the
same components and the same declared names, those that are first declared by some
component.  If the type in a checked text is one, but would not be without some of the
declared names, then it mentions one of these, and the component that declares it has
to come before that of the property, or is the same. -/
theorem checked_types_are_ordered {files : List (String × Definitions)}
    (hread : ∀ f ∈ files, ∃ b, Definitions.read b = .ok f.2)
    (hbuild : Catalog.build files = .ok catalog) (c : Canvas) :
    (∀ (s : String) (d₁ d₂ : String → Bool), (∀ n, d₁ n = true → isIdentifier n = true) →
      (∀ n, d₂ n = true → isIdentifier n = true) → (∀ n ∈ identifiers s, d₁ n = d₂ n) →
      isType s d₁ = isType s d₂) ∧
    (∀ (check : Check) (s : String) (d₁ d₂ : String → Bool),
      (∀ t, check.typeIn? s = some t → isType t d₁ = isType t d₂) →
      Component.checkFinding? d₁ check s = Component.checkFinding? d₂ check s) ∧
    ∀ ks fs, c.components catalog = .ok (ks, fs) → bindOnto catalog [] c.instances = .ok ks ∧
      (∀ name, declaresType ks name = true ↔ ∃ id, typeDeclarer? ks name = some id) ∧
      ∀ k ∈ ks, ∀ p ∈ k.template.properties, ∀ v, k.properties.get? p.name = some v →
        ∀ s ∈ Component.textsOf v, ∀ t, p.check.typeIn? s = some t →
        isType t (declaresType ks) = true → ∀ lost : String → Bool,
          isType t (fun n => declaresType ks n && !lost n) = false →
          ∃ name ∈ identifiers t, lost name = true ∧ ∃ id, typeDeclarer? ks name = some id ∧
            (id = k.id ∨
              ⟨id, k.id, none⟩ ∈ precedences ks (usableConnections catalog ks c.connections)) := by
  refine ⟨fun s d₁ d₂ h₁ h₂ hagree => ?_, fun _ _ _ _ => Component.checkFinding?_congr,
    fun ks fs hks => ?_⟩
  · rw [Bool.eq_iff_iff]
    exact ⟨isType_of_words h₁ h₂ fun n hn hd => hagree n hn ▸ hd,
      isType_of_words h₂ h₁ fun n hn hd => hagree n hn ▸ hd⟩
  · have hschema : ∀ t ∈ catalog.templates, Schema t.properties :=
      fun t ht => Catalog.schema_of_build hread hbuild ht
    refine ⟨bindOnto_of_components hks, fun name => declaresType_iff hschema hks,
      fun k hk p hp v hv s hs t ht htype lost hlost => ?_⟩
    -- Otherwise all declared words of the text are still declared.
    obtain ⟨name, hname, hdeclared, hlostName⟩ : ∃ name ∈ identifiers t,
        declaresType ks name = true ∧ lost name = true := by
      by_contra hnone
      push Not at hnone
      refine Bool.eq_false_iff.mp hlost (isType_of_words (fun n => isIdentifier_of_declaresType)
        (fun n hn => isIdentifier_of_declaresType (Bool.and_eq_true_iff.mp hn).1)
        (fun n hn hd => ?_) htype)
      simp [hd, hnone n hn hd]
    obtain ⟨id, hid⟩ := (declaresType_iff hschema hks).mp hdeclared
    have htexts := Component.mem_typeTexts hv hs ht (List.ne_nil_of_mem hname)
    exact ⟨name, hname, hlostName, id, hid, mem_precedences_of_word hks hk hp htexts hname hid⟩

end Canvas

/-! ### Mentions -/

namespace Canvas

/-- **What has to come before is written before.**  An arrangement lists every
id of the canvas once, as the component of the first instance with the id; the
sections stand in the order of a contract, each entry in that of its category;
and whatever has to come before an id is listed before it.  So is the first component
that declares a type before all others that mention it, unless the mention stands in a
declaration that starts with a mapping with white space before its parenthesis: only the
word `mapping` is read of its type. -/
theorem mentions_are_ordered {c : Canvas} {catalog : Catalog} {a : Arrangement}
    (h : c.arrange catalog = .ok (.ok a)) :
    a.order.Nodup ∧ (∀ id, id ∈ a.order ↔ ∃ i ∈ c.instances, i.id = id) ∧
      (∀ e ∈ a.entries, c.componentAt? catalog e.id = some e.component) ∧
      a.sections.map (·.1) = Section.all ∧
      (∀ s ∈ a.sections, ∀ e ∈ s.2, e.component.template.category.zone = s.1) ∧
      (∀ x y, c.Precedes catalog x y → a.order.idxOf x < a.order.idxOf y) ∧
      (∀ id k p s name provider, c.componentAt? catalog id = some k → k.Mentions p s name →
        c.FirstDeclares catalog provider name → provider ≠ id →
        (p.check = .type ∨ ¬StartsWithLooseMapping s) →
          a.order.idxOf provider < a.order.idxOf id) ∧
      ∀ s, StartsWithLooseMapping s → (Parameter.read s).type = "mapping" := by
  obtain ⟨hnodup, hmem, hcomponents, hsections, hzones, hprecedes⟩ := order_respects_precedence h
  refine ⟨hnodup, hmem, hcomponents, hsections, hzones, hprecedes, ?_, fun s => type_read_of_loose⟩
  intro id k p s name provider hk hmentions hfirst hne hread
  exact hprecedes _ _ (.mention hk (hmentions.readsType hread) hfirst hne)

/-- The canvas that stands upside down is written the right way up. -/
theorem sample_order : ∃ a k p, sample.arrange Catalog.sample = .ok (.ok a) ∧
    a.order = ["e", "p", "v", "g", "f"] ∧ sample.componentAt? Catalog.sample "v" = some k ∧
    k.Mentions p "Pair[]" "Pair" ∧ a.order.idxOf "p" < a.order.idxOf "v" := by
  obtain ⟨k, p, hk, hmentions, htype⟩ : ∃ k p, sample.componentAt? Catalog.sample "v" = some k ∧
      k.Mentions p "Pair[]" "Pair" ∧ p.check = .type :=
    ⟨_, _, rfl, ⟨List.mem_cons_of_mem _ List.mem_cons_self, ⟨_, rfl, List.mem_singleton_self _⟩,
      show "Pair" ∈ identifiers "Pair[]" by decide⟩, rfl⟩
  have hfirst : sample.FirstDeclares Catalog.sample "p" "Pair" :=
    (typeDeclarer?_eq_some rfl).mp rfl
  obtain ⟨a, ha, horder⟩ : ∃ a, sample.arrange Catalog.sample = .ok (.ok a) ∧
      a.order = ["e", "p", "v", "g", "f"] := ⟨_, rfl, rfl⟩
  obtain ⟨-, -, -, -, -, -, hordered, -⟩ := mentions_are_ordered ha
  exact ⟨a, k, p, ha, horder, hk, hmentions,
    hordered _ _ _ _ _ _ hk hmentions hfirst (by decide) (.inl htype)⟩

/-- A pair that mentions an entry behind white space, and the entry. -/
def loose : Canvas where
  instances := [
    ⟨"p", "record", [("fields", .string "mapping (uint => Entry) m"), ("name", .string "Pair")]⟩,
    ⟨"e", "record", [("fields", .string "uint256 n"), ("name", .string "Entry")]⟩ ]

/-- **The entry is not written before the pair.** -/
theorem loose_mention_is_not_ordered : ∃ a k p, loose.arrange Catalog.sample = .ok (.ok a) ∧
    a.order = ["p", "e"] ∧ loose.componentAt? Catalog.sample "p" = some k ∧
    k.Mentions p "mapping (uint => Entry) m" "Entry" ∧
    loose.FirstDeclares Catalog.sample "e" "Entry" ∧
    ¬a.order.idxOf "e" < a.order.idxOf "p" := by
  have hblank : ∀ c ∈ [' '], Text.isBlank c = true := by simp [Text.isBlank]
  have hname : ∀ n ∈ ["uint", "Entry"], TypeExpression n.toList := fun n hn =>
    .name (by revert n; decide)
  have hkey : TypeExpression ([] ++ ("uint".toList ++ [' '])) :=
    .padded (by simp) hblank (hname _ (by simp))
  have hvalue : TypeExpression ([' '] ++ ("Entry".toList ++ [])) :=
    .padded hblank (by simp) (hname _ (by simp))
  have hmentions : MentionsInType "mapping (uint => Entry) m" "Entry" :=
    ⟨_, " m".toList, .mapping hblank hkey hvalue, by decide, .inl (by simp [Text.isBlank]),
      by decide⟩
  have hfirst : loose.FirstDeclares Catalog.sample "e" "Entry" :=
    (typeDeclarer?_eq_some rfl).mp rfl
  obtain ⟨a, ha, horder⟩ : ∃ a, loose.arrange Catalog.sample = .ok (.ok a) ∧
      a.order = ["p", "e"] := ⟨_, rfl, rfl⟩
  exact ⟨a, _, _, ha, horder, rfl, ⟨List.mem_cons_of_mem _ List.mem_cons_self,
    ⟨_, rfl, List.mem_singleton_self _⟩, hmentions⟩, hfirst, by rw [horder]; decide⟩

end Canvas

/-! ### A type that comes first -/

/-- A file with records, whose names are types, and variables. -/
def Catalog.typedBody : Config.Body where
  blocks := [
    .mk "category" ["record"] [
      ⟨"section", .template [.literal (.string "definitions")]⟩, ⟨"named", .literal (.bool true)⟩,
      ⟨"namespace", .template [.literal (.string "types")]⟩,
      ⟨"provides_type", .literal (.bool true)⟩] [],
    .mk "category" ["variable"] [⟨"section", .template [.literal (.string "state")]⟩] [],
    .mk "template" ["record"] [
        ⟨"category", .template [.literal (.string "record")]⟩, ⟨"emit", .reference "name" []⟩]
      [.mk "property" ["name"] [
        ⟨"type", .reference "string" []⟩, ⟨"required", .literal (.bool true)⟩] []],
    .mk "template" ["variable"] [
        ⟨"category", .template [.literal (.string "variable")]⟩, ⟨"emit", .reference "type" []⟩]
      [.mk "property" ["type"] [
        ⟨"type", .reference "string" []⟩, ⟨"required", .literal (.bool true)⟩,
        ⟨"check", .template [.literal (.string "type")]⟩] []]]

/-- What the file defines. -/
def Catalog.typedFiles : List (String × Definitions) :=
  [("typed", ((Definitions.read typedBody).toOption).getD {})]

/-- A variable of pairs of points. -/
def Canvas.pointed : Canvas where
  instances := [⟨"v", "variable", [("type", .string "mapping(address => Point[2])")]⟩,
    ⟨"p", "record", [("name", .string "Point")]⟩]

/-- The record comes before the variable, whose type is none without it. -/
theorem Canvas.point_comes_first : ∃ catalog ks fs,
    Catalog.build Catalog.typedFiles = .ok catalog ∧ pointed.components catalog = .ok (ks, fs) ∧
      typeDeclarer? ks "Point" = some "p" ∧
      ⟨"p", "v", none⟩ ∈ precedences ks (usableConnections catalog ks pointed.connections) := by
  have hread : ∀ f ∈ Catalog.typedFiles, ∃ b, Definitions.read b = .ok f.2 := by
    intro f hf
    rw [List.mem_singleton.mp hf]
    exact ⟨Catalog.typedBody, rfl⟩
  obtain ⟨catalog, hbuild⟩ : ∃ catalog, Catalog.build Catalog.typedFiles = .ok catalog := ⟨_, rfl⟩
  let type := "mapping(address => Point[2])"
  obtain ⟨ks, fs, k, p, hks, hk, hp, hv, hcheck, hid, hfirst, htype, hlost⟩ : ∃ ks fs k p,
      pointed.components catalog = .ok (ks, fs) ∧ k ∈ ks ∧ p ∈ k.template.properties ∧
      k.properties.get? p.name = some (.string type) ∧ p.check = .type ∧ k.id = "v" ∧
      typeDeclarer? ks "Point" = some "p" ∧ isType type (declaresType ks) = true ∧
      isType type (fun n => declaresType ks n && !(n == "Point")) = false := by
    obtain rfl := Except.ok.inj hbuild
    exact ⟨_, _, _, _, rfl, List.mem_cons_self, List.mem_cons_self, rfl, rfl, rfl,
      rfl, by decide +kernel, by decide +kernel⟩
  obtain ⟨-, -, hordered⟩ := checked_types_are_ordered hread hbuild pointed
  obtain ⟨-, -, hordered⟩ := hordered ks fs hks
  obtain ⟨name, -, hname, id, hdeclarer, hbefore⟩ := hordered k hk p hp _ hv type
    (List.mem_singleton_self _) type (by rw [hcheck]; rfl) htype (· == "Point") hlost
  obtain rfl : name = "Point" := beq_iff_eq.mp hname
  obtain rfl : id = "p" := Option.some.inj (hdeclarer.symm.trans hfirst)
  rw [hid] at hbefore
  exact ⟨catalog, ks, fs, hbuild, hks, hdeclarer, hbefore.resolve_left (by decide)⟩

end SolidityCanvas
