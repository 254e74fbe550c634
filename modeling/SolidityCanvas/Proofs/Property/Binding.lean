/-
What binding properties gives.

Whatever a user has set, binding gives each property of a schema that was
accepted one value, which inhabits the type of the property, and says exactly
which properties were missing or did not conform and which names are not
declared.  The values are then bound to themselves.

* `Property.Accepted`, `Schema`: what the schemas of a catalog are like
  (`Catalog.schema_of_build`);
* `Property.inhabits_bind`, `get?_bind`: each property has a value of its type;
* `heading_bind`: what binding finds;
* `bind_bag`: values that inhabit their types are bound to themselves;
* `Catalog.binding_is_typed`: all this for the schemas of a catalog that was
  built.
-/
import SolidityCanvas.Proofs.Catalog.Contents
import SolidityCanvas.Proofs.Catalog.Schema
import SolidityCanvas.Proofs.Text.Bytes
import SolidityCanvas.Proofs.Value.Coercion

namespace SolidityCanvas

/-! ### Schemas -/

/-- The type is one that properties can have, and the default inhabits it. -/
structure Property.Accepted (p : Property) : Prop where
  type : p.type.isPropertyType
  default : ∀ v, p.default = some v → v.Inhabits p.type

/-- Properties that were accepted, with different names. -/
structure Schema (ps : List Property) : Prop where
  accepted : ∀ p ∈ ps, p.Accepted
  names_nodup : (ps.map (·.name)).Nodup

theorem PropertyDefinition.Accepted.property {p : PropertyDefinition} (h : p.Accepted) :
    (Catalog.property p).Accepted := by
  refine ⟨h.type, fun w hw => ?_⟩
  obtain ⟨v, hv⟩ := h.default w hw
  exact Value.inhabits_of_coerce? v hv

/-- **Templates of a catalog that is built from files that were read have
schemas.** -/
theorem Catalog.schema_of_build {files : List (String × Definitions)} {c : Catalog}
    (hread : ∀ f ∈ files, ∃ b, Definitions.read b = .ok f.2) (h : build files = .ok c)
    {t : Template} (ht : t ∈ c.templates) : Schema t.properties := by
  rw [(made_of_build h).templates] at ht
  obtain ⟨i, hi, rfl⟩ := List.mem_map.mp ht
  obtain ⟨f, hf, hi⟩ := List.mem_flatMap.mp hi
  obtain ⟨d, hd, rfl⟩ := List.mem_map.mp hi
  obtain ⟨b, hb⟩ := hread f hf
  obtain ⟨haccepted, hnames⟩ := Definitions.accepted_read hb d hd
  refine ⟨fun p hp => ?_, ?_⟩
  · obtain ⟨q, hq, rfl⟩ := List.mem_map.mp hp
    exact (haccepted q hq).property
  · change ((d.properties.map property).map (·.name)).Nodup
    rwa [List.map_map]

/-! ### One property -/

/-- The value that was given for a property, other than `null`. -/
def Bag.given? (b : Bag) (name : String) : Option Value :=
  (b.get? name).filter fun v => !v.isNull

/-- What a finding is about, without its message. -/
def Diagnostic.heading (d : Diagnostic) : Severity × String × String × String :=
  (d.severity, d.code, d.instanceId, d.property)

namespace Property

variable {p : Property} {raw : Bag}

/-- Whether the property is required and no value was given. -/
def isMissing (p : Property) (raw : Bag) : Bool := p.required && (raw.given? p.name).isNone

/-- Whether a value was given that does not conform to the type. -/
def isMismatched (p : Property) (raw : Bag) : Bool :=
  (raw.given? p.name).any fun v => !v.conforms p.type

/-- A property that has no value takes the default. -/
theorem bind_eq_of_absent (h : raw.given? p.name = none) (id : String) :
    p.bind id raw = match p.default with
      | some v => (v, [])
      | none => (.zero p.type, [Diagnostic.errorOn Code.missingProperty id p.name
          ("required property " ++ Text.quoted p.name ++ " is missing")]) := by
  rw [Bag.given?, Option.filter_eq_none_iff] at h
  rw [Property.bind]
  cases hv : raw.get? p.name with
  | none => rfl
  | some v =>
    cases v with
    | null t => rfl
    | _ => exact absurd rfl (h _ hv)

/-- A property that has a value takes it, if it conforms. -/
theorem bind_eq_of_given {v : Value} (h : raw.given? p.name = some v) (id : String) :
    p.bind id raw = match v.coerce? p.type with
      | some w => (w, [])
      | none => (.zero p.type, [Diagnostic.errorOn Code.typeMismatch id p.name
          ("property " ++ Text.quoted p.name ++ " must be " ++ p.type.friendlyName ++ ", got " ++
            v.describe)]) := by
  obtain ⟨hget, hnull⟩ := Option.filter_eq_some_iff.mp h
  rw [Property.bind, hget]
  cases v with
  | null t => simp [Value.isNull] at hnull
  | _ => rfl

/-- What binding does for a property that has no value, and what it finds. -/
theorem bind_of_absent (h : raw.given? p.name = none) (id : String) :
    (p.default = none ∧ p.isMissing raw = true ∧ (p.bind id raw).1 = .zero p.type ∧
        (p.bind id raw).2.map (·.heading) = [(.error, Code.missingProperty, id, p.name)]) ∨
      ∃ v, p.default = some v ∧ p.isMissing raw = false ∧ p.bind id raw = (v, []) := by
  rw [bind_eq_of_absent h]
  cases hdefault : p.default with
  | none => exact .inl ⟨rfl, by simp [isMissing, required, hdefault, h], rfl, rfl⟩
  | some v => exact .inr ⟨v, rfl, by simp [isMissing, required, hdefault], rfl⟩

/-- What binding does for a property that has a value, and what it finds. -/
theorem bind_of_given {v : Value} (h : raw.given? p.name = some v) (id : String) :
    (v.coerce? p.type = none ∧ p.isMismatched raw = true ∧ (p.bind id raw).1 = .zero p.type ∧
        (p.bind id raw).2.map (·.heading) = [(.error, Code.typeMismatch, id, p.name)]) ∨
      ∃ w, v.coerce? p.type = some w ∧ p.isMismatched raw = false ∧ p.bind id raw = (w, []) := by
  rw [bind_eq_of_given h]
  cases hw : v.coerce? p.type with
  | none => exact .inl ⟨rfl, by simp [isMismatched, h, Value.conforms, hw], rfl, rfl⟩
  | some w => exact .inr ⟨w, rfl, by simp [isMismatched, h, Value.conforms, hw], rfl⟩

/-- **Whatever is given, the value of a property inhabits its type.** -/
theorem inhabits_bind (hp : p.Accepted) (id : String) (raw : Bag) :
    (p.bind id raw).1.Inhabits p.type := by
  cases hgiven : raw.given? p.name with
  | none =>
    obtain ⟨-, -, hzero, -⟩ | ⟨v, hv, -, hbind⟩ := bind_of_absent hgiven id
    · exact hzero ▸ Value.inhabits_zero hp.type
    · exact hbind ▸ hp.default v hv
  | some v =>
    obtain ⟨-, -, hzero, -⟩ | ⟨w, hw, -, hbind⟩ := bind_of_given hgiven id
    · exact hzero ▸ Value.inhabits_zero hp.type
    · exact hbind ▸ Value.inhabits_of_coerce? v hw

/-- **What binding finds about a property**: that it is missing, or that its value
does not conform. -/
theorem heading_bind (p : Property) (id : String) (raw : Bag) :
    (p.bind id raw).2.map (·.heading) =
      if p.isMissing raw || p.isMismatched raw then
        [(.error, if p.isMissing raw then Code.missingProperty else Code.typeMismatch, id, p.name)]
      else [] := by
  cases hgiven : raw.given? p.name with
  | none =>
    have hmismatched : p.isMismatched raw = false := by simp [isMismatched, hgiven]
    obtain ⟨-, hmissing, -, hheading⟩ | ⟨v, -, hmissing, hbind⟩ := bind_of_absent hgiven id
    · simp [hmissing, hheading]
    · simp [hmissing, hmismatched, hbind]
  | some v =>
    have hmissing : p.isMissing raw = false := by simp [isMissing, hgiven]
    obtain ⟨-, hmismatched, -, hheading⟩ | ⟨w, -, hmismatched, hbind⟩ := bind_of_given hgiven id
    · simp [hmissing, hmismatched, hheading]
    · simp [hmissing, hmismatched, hbind]

/-- A value that inhabits the type is bound to itself. -/
theorem bind_of_inhabits {v : Value} (h : raw.get? p.name = some v) (hv : v.Inhabits p.type)
    (id : String) : p.bind id raw = (v, []) := by
  have hgiven : raw.given? p.name = some v :=
    Option.filter_eq_some_iff.mpr ⟨h, by simp [hv.isNull_eq_false]⟩
  obtain ⟨hnone, -⟩ | ⟨w, hw, -, hbind⟩ := bind_of_given hgiven id
  · rw [Value.coerce?_self_iff.mpr hv] at hnone
    cases hnone
  · rw [Value.coerce?_self_iff.mpr hv] at hw
    rw [hbind, Option.some_inj.mp hw]

end Property

/-! ### All properties -/

section

variable {ps : List Property} {raw : Bag}

theorem values_bind (ps : List Property) (id : String) (raw : Bag) :
    (bind id ps raw).1.values = ps.map fun p => (p.name, (p.bind id raw).1) := by
  rw [bind, List.map_map]
  rfl

theorem names_bind (ps : List Property) (id : String) (raw : Bag) :
    (bind id ps raw).1.names = ps.map (·.name) := by
  rw [Bound.names, values_bind, List.map_map]
  rfl

/-- Each property is found with its value. -/
theorem get?_bind (h : Schema ps) {p : Property} (hp : p ∈ ps) (id : String) (raw : Bag) :
    (bind id ps raw).1.get? p.name = some (p.bind id raw).1 := by
  refine lookup_of_mem ?_ ?_
  · rw [← Bound.names, names_bind]
    exact h.names_nodup
  · rw [values_bind]
    exact List.mem_map.mpr ⟨p, hp, rfl⟩

/-- The names that were given but are not declared. -/
def undeclaredNames (ps : List Property) (raw : Bag) : List String :=
  raw.names.filter fun n => !(ps.map (·.name)).contains n

theorem heading_flatMap_bind (ps : List Property) (id : String) (raw : Bag) :
    (ps.flatMap fun p => (p.bind id raw).2).map (·.heading) =
      (ps.filter fun p => p.isMissing raw || p.isMismatched raw).map fun p =>
        (.error, if p.isMissing raw then Code.missingProperty else Code.typeMismatch, id,
          p.name) := by
  induction ps with
  | nil => rfl
  | cons p ps ih =>
    rw [List.flatMap_cons, List.map_append, Property.heading_bind, List.filter_cons, ih]
    split
    · rw [List.map_cons, List.singleton_append]
    · rw [List.nil_append]

/-- **What binding finds**: errors about the properties that are missing or do not
conform, in the order of the schema, then warnings about the names that are not
declared. -/
theorem heading_bind (ps : List Property) (id : String) (raw : Bag) :
    (bind id ps raw).2.map (·.heading) =
      ((ps.filter fun p => p.isMissing raw || p.isMismatched raw).map fun p =>
        (.error, if p.isMissing raw then Code.missingProperty else Code.typeMismatch, id, p.name)) ++
      (undeclaredNames ps raw).map fun n => (.warning, Code.unknownProperty, id, n) := by
  have herrors : (bind id ps raw).2 =
      ps.flatMap (fun p => (p.bind id raw).2) ++ undeclared id ps raw := by
    rw [bind, List.flatMap_map]
  have hwarnings : (undeclared id ps raw).map (·.heading) =
      (undeclaredNames ps raw).map fun n => (.warning, Code.unknownProperty, id, n) := by
    rw [undeclared, undeclaredNames, List.map_map]
    have hdeclared : ∀ n, (ps.any fun p => p.name == n) = (ps.map (·.name)).contains n := by
      intro n
      rw [Bool.eq_iff_iff, List.any_eq_true, List.contains_iff_mem, List.mem_map]
      simp only [beq_iff_eq]
    simp only [hdeclared]
    rfl
  rw [herrors, List.map_append, hwarnings, heading_flatMap_bind]

/-- The values that were bound, by name. -/
theorem get?_bag_bind (h : Schema ps) {p : Property} (hp : p ∈ ps) (id : String) (raw : Bag) :
    (bind id ps raw).1.bag.get? p.name = some (p.bind id raw).1 := by
  have hnames : ((bind id ps raw).1.values.map (·.1)).Nodup := by
    rw [← Bound.names, names_bind]
    exact h.names_nodup
  refine lookup_of_mem (Value.ascending_sortNamed _).nodup ?_
  exact (Value.perm_sortNamed hnames).mem_iff.mpr (mem_of_lookup (get?_bind h hp id raw))

/-- **Values that inhabit their types are bound to themselves**, without a
finding. -/
theorem bind_bag (h : Schema ps) (id id' : String) (raw : Bag) :
    bind id' ps (bind id ps raw).1.bag = ((bind id ps raw).1, []) := by
  have hsame : ∀ p ∈ ps, p.bind id' (bind id ps raw).1.bag = ((p.bind id raw).1, []) :=
    fun p hp => p.bind_of_inhabits (get?_bag_bind h hp id raw)
      (p.inhabits_bind (h.accepted p hp) id raw) id'
  have hdeclared : undeclaredNames ps (bind id ps raw).1.bag = [] := by
    rw [undeclaredNames, List.filter_eq_nil_iff]
    intro n hn
    have hn : n ∈ (bind id ps raw).1.names := Value.mem_names_sortNamed.mp hn
    rw [names_bind] at hn
    simpa using hn
  have hclean : ps.filter (fun p => p.isMissing (bind id ps raw).1.bag ||
      p.isMismatched (bind id ps raw).1.bag) = [] := by
    rw [List.filter_eq_nil_iff]
    intro p hp hbad
    have hheading := p.heading_bind id' (bind id ps raw).1.bag
    rw [hsame p hp, if_pos hbad] at hheading
    cases hheading
  have hvalues : (bind id' ps (bind id ps raw).1.bag).1.values = (bind id ps raw).1.values := by
    rw [values_bind, values_bind]
    exact List.map_congr_left fun p hp => by rw [hsame p hp]
  refine Prod.ext (congrArg Bound.mk hvalues) ?_
  · refine List.map_eq_nil_iff.mp ((heading_bind ps id' _).trans ?_)
    rw [hclean, hdeclared]
    rfl

end

/-! ### Catalogs -/

/-- **Binding gives a complete typed view and is idempotent.**  For a schema of a
catalog that was built from files, and any values that were given:

* each declared property, and nothing else, gets a value that inhabits its type:
  a known value of just that type, other than `null`;
* the findings are an error for each required property without a value, one for
  each value that does not conform, and a warning for each name that is not
  declared, in the order of the bytes of the names;
* the values that were bound are bound to themselves, without a finding. -/
theorem Catalog.binding_is_typed {files : List (String × Definitions)} {c : Catalog}
    (hread : ∀ f ∈ files, ∃ b, Definitions.read b = .ok f.2) (hbuild : build files = .ok c)
    {t : Template} (ht : t ∈ c.templates) (id : String) (entries : List (String × Value)) :
    let raw := Bag.ofList entries
    let bound := bind id t.properties raw
    (bound.1.names = t.properties.map (·.name) ∧ bound.1.names.Nodup ∧
      ∀ p ∈ t.properties, ∃ v, bound.1.get? p.name = some v ∧ v.Inhabits p.type ∧
        v.type = p.type ∧ v.isNull = false ∧ v.isWhollyKnown = true) ∧
    (bound.2.map (·.heading) =
        ((t.properties.filter fun p => p.isMissing raw || p.isMismatched raw).map fun p =>
          (.error, if p.isMissing raw then Code.missingProperty else Code.typeMismatch, id,
            p.name)) ++
        (undeclaredNames t.properties raw).map (fun n => (.warning, Code.unknownProperty, id, n)) ∧
      (∀ n, n ∈ undeclaredNames t.properties raw ↔
        n ∈ entries.map (·.1) ∧ n ∉ t.properties.map (·.name)) ∧
      (undeclaredNames t.properties raw).Pairwise fun m n => Text.bytes m < Text.bytes n) ∧
    ∀ id', bind id' t.properties bound.1.bag = (bound.1, []) := by
  intro raw bound
  have hschema := schema_of_build hread hbuild ht
  refine ⟨⟨names_bind _ id raw, ?_, fun p hp => ?_⟩,
    ⟨heading_bind _ id raw, fun n => ?_, ?_⟩, fun id' => bind_bag hschema id id' raw⟩
  · rw [names_bind]
    exact hschema.names_nodup
  · have hv := p.inhabits_bind (hschema.accepted p hp) id raw
    exact ⟨_, get?_bind hschema hp id raw, hv, hv.type_eq, hv.isNull_eq_false, hv.isWhollyKnown⟩
  · have hnames : n ∈ raw.names ↔ n ∈ entries.map (·.1) := Value.mem_names_sortNamed
    simp [undeclaredNames, hnames]
  · have hascending : raw.names.Pairwise (· < ·) := Value.ascending_sortNamed entries
    exact (hascending.imp fun h => Text.bytes_lt_bytes_iff.mpr h).filter _

/-! ### A note without a title -/

/-- A file with a template of notes, which have a title, a number of pages and
some tags. -/
def noteBody : Config.Body where
  blocks := [
    .mk "category" ["note"] [⟨"section", .template [.literal (.string "state")]⟩] [],
    .mk "template" ["note"] [
        ⟨"category", .template [.literal (.string "note")]⟩, ⟨"emit", .reference "title" []⟩]
      [.mk "property" ["title"] [
        ⟨"type", .reference "string" []⟩, ⟨"required", .literal (.bool true)⟩] [],
      .mk "property" ["pages"] [
        ⟨"type", .reference "number" []⟩, ⟨"required", .literal (.bool true)⟩] [],
      .mk "property" ["tags"] [
        ⟨"type", .call "list" [.reference "string" []] false⟩, ⟨"default", .tuple []⟩] []]]

/-- What the file defines. -/
def noteFiles : List (String × Definitions) :=
  [("note", ((Definitions.read noteBody).toOption).getD {})]

/-- The catalog of the file. -/
def noteCatalog : Catalog := ((Catalog.build noteFiles).toOption).getD {}

/-- The template of notes. -/
def noteTemplate : Template := noteCatalog.templates.headD default

/-- Values for a note that has no title, whose number of pages is a text, and
that has a colour. -/
def noteValues : List (String × Value) :=
  [("pages", .string "ten"), ("title", .null .string), ("colour", .string "red")]

/-- A note gets a value for each of its properties, and is told what is wrong. -/
theorem binding_note : ∃ t ∈ noteCatalog.templates,
    let bound := bind "a" t.properties (Bag.ofList noteValues)
    bound.1.values = [("title", .string ""), ("pages", .int 0),
      ("tags", .list .string [])] ∧
    bound.2.map (·.heading) = [(.error, Code.missingProperty, "a", "title"),
      (.error, Code.typeMismatch, "a", "pages"), (.warning, Code.unknownProperty, "a", "colour")] ∧
    bind "a" t.properties bound.1.bag = (bound.1, []) := by
  have hread : ∀ f ∈ noteFiles, ∃ b, Definitions.read b = .ok f.2 := by
    intro f hf
    rw [List.mem_singleton.mp hf]
    exact ⟨noteBody, rfl⟩
  have hbuild : Catalog.build noteFiles = .ok noteCatalog := rfl
  have hmem : noteTemplate ∈ noteCatalog.templates := List.mem_singleton_self _
  obtain ⟨-, ⟨hheading, -, -⟩, hagain⟩ := Catalog.binding_is_typed hread hbuild hmem "a" noteValues
  exact ⟨_, hmem, rfl, hheading, hagain "a"⟩

end SolidityCanvas
