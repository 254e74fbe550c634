/-
The properties that templates of a catalog declare.

Reading a property accepts only types that properties can have, and defaults
of that type.  What a reading gives does not depend on the faults that it
reports (`Decode.Gives`), so this is shown step by step:

* `Definitions.sound_read`: the properties of a file are sound;
* `Catalog.sound_of_build`: hence so are those of a catalog that is built from
  files that were read.
-/
import SolidityCanvas.Catalog.Basic
import SolidityCanvas.Proofs.Catalog.Build
import SolidityCanvas.Proofs.Property.Typed

namespace SolidityCanvas

open Config

/-! ### Files -/

/-- The property that a definition makes is sound. -/
def PropertyDefinition.Sound (p : PropertyDefinition) : Prop := (Catalog.property p).Sound

/-- The type is one that properties can have, and the default was accepted for
it. -/
structure PropertyDefinition.Accepted (p : PropertyDefinition) : Prop where
  type : p.type.isPropertyType
  default : ∀ w, p.default = some w → ∃ v : Value, v.coerce? p.type = some w

theorem PropertyDefinition.Accepted.sound {p : PropertyDefinition} (h : p.Accepted) : p.Sound := by
  refine ⟨h.type, fun w hw => ?_⟩
  obtain ⟨v, hv⟩ := h.default w hw
  exact (Value.plain_of_coerce? h.type hv).2

namespace Definitions

theorem isPropertyType_of_propertyType {e : Expr} {t : ValueType} (h : propertyType e = .ok t) :
    t.isPropertyType := by
  rw [propertyType] at h
  split at h
  · exact absurd h (by simp)
  split at h
  · rename_i htype
    obtain rfl := Except.ok.inj h
    exact htype
  · exact absurd h (by simp)

theorem gives_defaultValue (p : RawProperty) (t : ValueType) :
    (defaultValue p t).Gives fun default =>
      ∀ w, default = some w → ∃ v : Value, v.coerce? t = some w := by
  have hnone : ∀ w : Value, none = some w → ∃ v : Value, v.coerce? t = some w :=
    fun w hw => absurd hw (by simp)
  rw [defaultValue]
  split
  · exact Decode.gives_bind fun _ => Decode.gives_pure hnone
  split
  · exact Decode.gives_pure hnone
  split
  · rename_i w hw
    refine Decode.gives_pure fun v hv => ?_
    obtain rfl := Option.some_inj.mp hv
    exact ⟨_, hw⟩
  · exact Decode.gives_bind fun _ => Decode.gives_pure hnone

theorem gives_property (p : RawProperty) :
    (property p).Gives fun read => ∀ d ∈ read, d.Accepted ∧ d.name = p.name := by
  rw [property]
  split
  · exact Decode.gives_bind fun _ => Decode.gives_pure fun d hd => absurd hd (by simp)
  · rename_i t ht
    refine (gives_defaultValue p t).bind fun default hdefault => Decode.gives_pure ?_
    rintro d ⟨⟩
    exact ⟨⟨isPropertyType_of_propertyType ht, hdefault⟩, rfl⟩

/-- Of the properties with one name only the first is read. -/
theorem gives_properties (template : String) : ∀ (ps : List RawProperty) (seen : List String),
    (properties template seen ps).Gives fun ds =>
      (∀ d ∈ ds, d.Accepted ∧ d.name ∉ seen) ∧ (ds.map (·.name)).Nodup := by
  intro ps
  induction ps with
  | nil =>
    exact fun _ => Decode.gives_pure ⟨fun _ hd => absurd hd List.not_mem_nil, List.nodup_nil⟩
  | cons p ps ih =>
    intro seen
    rw [properties]
    split
    · exact Decode.gives_bind fun _ => ih seen
    · rename_i hseen
      refine (gives_property p).bind fun read hread => ?_
      refine (ih _).bind fun others ⟨hothers, hnames⟩ => Decode.gives_pure ?_
      have hp : p.name ∉ seen := by simpa using hseen
      have hothers : ∀ d ∈ others, d.Accepted ∧ d.name ≠ p.name ∧ d.name ∉ seen := by
        intro d hd
        obtain ⟨haccepted, hname⟩ := hothers d hd
        exact ⟨haccepted, by simpa using hname⟩
      cases read with
      | none => exact ⟨fun d hd => ⟨(hothers d hd).1, (hothers d hd).2.2⟩, hnames⟩
      | some q =>
        obtain ⟨haccepted, hq⟩ := hread q rfl
        refine ⟨fun d hd => ?_, List.nodup_cons.mpr ⟨fun hmem => ?_, hnames⟩⟩
        · obtain rfl | hd := List.mem_cons.mp hd
          · exact ⟨haccepted, hq ▸ hp⟩
          · exact ⟨(hothers d hd).1, (hothers d hd).2.2⟩
        · obtain ⟨d, hd, hname⟩ := List.mem_map.mp hmem
          exact (hothers d hd).2.1 (hname.trans hq)

theorem gives_template (t : RawTemplate) :
    (template t).Gives fun d =>
      (∀ p ∈ d.properties, p.Accepted) ∧ (d.properties.map (·.name)).Nodup :=
  (gives_properties _ _ _).bind fun _ h =>
    Decode.gives_pure ⟨fun p hp => (h.1 p hp).1, h.2⟩

/-- **The properties that a template of a file declares were accepted**, and have
different names. -/
theorem accepted_read {b : Body} {d : Definitions} (h : read b = .ok d) :
    ∀ t ∈ d.templates, (∀ p ∈ t.properties, p.Accepted) ∧ (t.properties.map (·.name)).Nodup := by
  rw [read] at h
  obtain ⟨⟨categories, rules, raws⟩, _, h⟩ := except_bind_eq_ok.mp h
  obtain ⟨templates, htemplates, h⟩ := except_bind_eq_ok.mp h
  obtain rfl := Except.ok.inj h
  exact (Decode.gives_mapM fun t _ => gives_template t).of_result htemplates

/-- **The properties that a file declares are sound.** -/
theorem sound_read {b : Body} {d : Definitions} (h : read b = .ok d) :
    ∀ t ∈ d.templates, ∀ p ∈ t.properties, p.Sound :=
  fun t ht p hp => ((accepted_read h t ht).1 p hp).sound

end Definitions

/-! ### Catalogs -/

namespace Catalog

/-- Templates declare sound properties. -/
def Sound (c : Catalog) : Prop := ∀ t ∈ c.templates, ∀ p ∈ t.properties, p.Sound

theorem Sound.addTemplate {c : Catalog} (h : c.Sound) (file : String) {d : TemplateDefinition}
    (hd : ∀ p ∈ d.properties, p.Sound) : (c.addTemplate file d).1.Sound := by
  rcases addTemplate_cases c file d with heq | ⟨_, t, _, _, hproperties, heq⟩
  · rwa [heq]
  · rw [heq]
    intro t' ht' p hp
    rcases List.mem_append.mp ht' with ht' | ht'
    · exact h t' ht' p hp
    · rw [List.mem_singleton.mp ht', hproperties] at hp
      obtain ⟨q, hq, rfl⟩ := List.mem_map.mp hp
      exact hd q hq

/-- **A catalog that is built from files that were read is sound.** -/
theorem sound_of_build {files : List (String × Definitions)} {c : Catalog}
    (hread : ∀ f ∈ files, ∃ b, Definitions.read b = .ok f.2) (h : build files = .ok c) :
    c.Sound := by
  obtain ⟨start, hempty, rfl⟩ := build_eq_ok h
  refine addAll_induction (P := Sound) _ (fun c d hd hc => ?_) fun t ht => ?_
  · obtain ⟨f, hf, hd⟩ := List.mem_flatMap.mp hd
    obtain ⟨t, ht, rfl⟩ := List.mem_map.mp hd
    obtain ⟨b, hb⟩ := hread f hf
    exact hc.addTemplate f.1 (Definitions.sound_read hb t ht)
  · rw [hempty] at ht
    exact absurd ht List.not_mem_nil

end Catalog

end SolidityCanvas
