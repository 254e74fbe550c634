/-
What holds of every catalog.

Whatever is done with a catalog relies on what was checked when it was built
(`Catalog.Invariant`): names, ids and pairs of categories are found in one place,
templates have the categories and links that the catalog itself has, and their
properties have defaults of their types.

* `Catalog.Coherent.invariant`: the invariant holds of what coherent files make;
* `Catalog.build_invariant`: hence of every catalog that is built from files that
  were read, and these are all the coherent files whose expressions are in order.
-/
import SolidityCanvas.Proofs.Catalog.Coherent

namespace SolidityCanvas

open Config

/-! ### Templates that fit a catalog -/

/-- A template has its category from the catalog and receives the links that the
rules give to that.  Its properties have supported types, defaults of these types,
and names that are in scope only once. -/
structure Template.Valid (c : Catalog) (t : Template) : Prop where
  category : t.category ∈ c.categories
  cost : 0 ≤ t.cost
  sorted : t.links.Pairwise (· < ·)
  links : ∀ l, l ∈ t.links ↔ l ≠ "" ∧ ∃ r ∈ c.rules, r.dependent = t.category.name ∧ r.link = l
  names : (t.properties.map (·.name)).Nodup
  types : ∀ p ∈ t.properties, p.type ∈ ValueType.supported ∧ (p.oneOf ≠ [] → p.type = .string)
  defaults : ∀ p ∈ t.properties, ∀ v, p.default = some v → v.conforms p.type = true
  unshadowed : ∀ p ∈ t.properties, p.name ∉ t.links ∧ p.name ≠ "id"
  named : ∀ n, t.category.nameProperty = some n → ∃ p ∈ t.properties, p.name = n ∧ p.type = .string

namespace Catalog

/-- What every catalog that was built keeps to. -/
structure Invariant (c : Catalog) : Prop where
  categoryNames : (c.categories.map (·.name)).Nodup
  nameSpaces : ∀ k ∈ c.categories, k.nameProperty.isSome = true → k.nameSpace ≠ ""
  ruleEnds : (c.rules.map fun r => (r.source, r.target)).Nodup
  rules : ∀ r ∈ c.rules, r.source ∈ c.categories.map (·.name) ∧ r.target ∈ c.categories.map (·.name)
  templateIds : (c.templates.map (·.id)).Nodup
  templates : ∀ t ∈ c.templates, t.Valid c

variable {files : List (String × Definitions)}

theorem Coherent.template_valid (h : Coherent files) {c : Catalog} (hmade : Made files c)
    {i : String × TemplateDefinition} (hi : i ∈ itemsOf files (·.templates)) :
    (i.2.template i.1 c).Valid c := by
  have hvalid := h.templates i hi
  have hrules : (declared files).linkNames i.2.category = c.linkNames i.2.category := by
    rw [linkNames, linkNames, hmade.rules]
    rfl
  obtain ⟨k, hk, hname⟩ := List.mem_map.mp hvalid.category
  obtain ⟨j, hj, rfl⟩ := List.mem_map.mp hk
  -- The catalog has the one category that the template names.
  have hcategory : (i.2.template i.1 c).category = j.2.category := by
    have hfound := (category?_declared h.categoryNames).mpr ⟨j, hj, rfl, hname⟩
    rw [category?, declared, ← hmade.categories] at hfound
    rw [TemplateDefinition.template, category?, hfound]
    rfl
  have hproperty : ∀ p ∈ (i.2.template i.1 c).properties, ∃ q ∈ i.2.properties, property q = p :=
    fun p hp => List.mem_map.mp hp
  refine ⟨?_, hvalid.cost, Text.pairwise_sortedDistinct _, fun l => ?_, ?_, fun p hp => ?_,
    fun p hp => ?_, fun p hp => ?_, fun n hn => ?_⟩
  · rw [hcategory, hmade.categories]
    exact List.mem_map.mpr ⟨j, hj, rfl⟩
  · rw [hcategory]
    refine mem_linkNames.trans ?_
    rw [← hname]
    rfl
  · change ((i.2.properties.map property).map (·.name)).Nodup
    rw [List.map_map]
    exact hvalid.names
  · obtain ⟨q, hq, rfl⟩ := hproperty p hp
    exact ⟨(hvalid.properties q hq).type, (hvalid.properties q hq).oneOf⟩
  · obtain ⟨q, hq, rfl⟩ := hproperty p hp
    exact (hvalid.properties q hq).conforms
  · obtain ⟨q, hq, rfl⟩ := hproperty p hp
    have hname := (hvalid.properties q hq).name
    rw [hrules] at hname
    exact hname
  · rw [hcategory] at hn
    obtain ⟨hnamed, rfl⟩ : j.2.named = true ∧ j.2.nameProperty = n := by
      simpa [CategoryDefinition.category] using hn
    obtain ⟨q, hq, hqname, htype⟩ := hvalid.named j.2 hk hname hnamed
    exact ⟨property q, List.mem_map.mpr ⟨q, hq, rfl⟩, hqname, htype⟩

/-- What coherent files make keeps to the invariant. -/
theorem Coherent.invariant (h : Coherent files) {c : Catalog} (hmade : Made files c) :
    c.Invariant := by
  have hnames : c.categories.map (·.name) = (itemsOf files (·.categories)).map (·.2.name) := by
    rw [hmade.categories, List.map_map]
    rfl
  refine ⟨hnames ▸ h.categoryNames, fun k hk hnamed => ?_, ?_, fun r hr => ?_, ?_, fun t ht => ?_⟩
  · rw [hmade.categories] at hk
    obtain ⟨i, hi, rfl⟩ := List.mem_map.mp hk
    exact (h.categories i hi).nameSpace (by simpa [CategoryDefinition.category] using hnamed)
  · rw [hmade.rules, List.map_map]
    exact h.ruleEnds
  · rw [hmade.rules] at hr
    obtain ⟨i, hi, rfl⟩ := List.mem_map.mp hr
    rw [hnames]
    exact ⟨(h.rules i hi).source, (h.rules i hi).target⟩
  · rw [hmade.templates, List.map_map]
    exact h.templateIds
  · rw [hmade.templates] at ht
    obtain ⟨i, hi, rfl⟩ := List.mem_map.mp ht
    exact h.template_valid hmade hi

/-- **What building a catalog guarantees, and what it asks for.**  Files that were
read and make a catalog are coherent, and the catalog holds what they define and
keeps to the invariant.  Conversely coherent files make a catalog, if the
expressions of their templates read only what is in scope and call only functions
that exist. -/
theorem build_invariant (hread : ∀ f ∈ files, ∃ b, Definitions.read b = .ok f.2) :
    (∀ c, build files = .ok c → Coherent files ∧ Made files c ∧ c.Invariant) ∧
      (Coherent files → InScope files → ∃ c, build files = .ok c) := by
  refine ⟨fun c hbuild => ?_, exists_build⟩
  have hcoherent := coherent_of_build hread hbuild
  have hmade := made_of_build hbuild
  exact ⟨hcoherent, hmade, hcoherent.invariant hmade⟩

/-! ### Holders and their readers -/

/-- A file with a named category whose instances give their names to those of
another one. -/
def holderBody : Body where
  blocks := [
    .mk "category" ["holder"] [
      ⟨"section", .template [.literal (.string "state")]⟩, ⟨"named", .literal (.bool true)⟩,
      ⟨"namespace", .template [.literal (.string "members")]⟩] [],
    .mk "category" ["reader"] [⟨"section", .template [.literal (.string "functions")]⟩] [],
    .mk "connection" ["holder", "reader"] [
      ⟨"order", .template [.literal (.string "forward")]⟩,
      ⟨"link", .template [.literal (.string "holders")]⟩] [],
    .mk "template" ["holder"] [
        ⟨"category", .template [.literal (.string "holder")]⟩, ⟨"emit", .reference "name" []⟩]
      [.mk "property" ["name"] [
        ⟨"type", .reference "string" []⟩, ⟨"required", .literal (.bool true)⟩] []],
    .mk "template" ["reader"] [
        ⟨"category", .template [.literal (.string "reader")]⟩,
        ⟨"emit", .call "join" [.reference "separator" [], .reference "holders" []] false⟩]
      [.mk "property" ["separator"] [
        ⟨"type", .reference "string" []⟩,
        ⟨"default", .template [.literal (.string ", ")]⟩] []]]

/-- What the file defines. -/
def holderFiles : List (String × Definitions) :=
  [("holder", ((Definitions.read holderBody).toOption).getD {})]

theorem inScope_holderFiles : InScope holderFiles := by
  intro i hi e he
  obtain rfl | hi := List.mem_cons.mp hi
  · replace he : e ∈ [.reference "name" [], .null, .null, .null] := he
    obtain rfl | rfl : e = .reference "name" [] ∨ e = .null := by simpa using he
    · refine ⟨fun r hr => .inl ?_, fun n hn => absurd hn (Expr.not_calls_of_leaf rfl rfl)⟩
      rw [List.mem_singleton.mp hr]
      exact List.mem_singleton_self _
    · exact ⟨fun r hr => absurd hr List.not_mem_nil,
        fun n hn => absurd hn (Expr.not_calls_of_leaf rfl rfl)⟩
  · obtain rfl := List.mem_singleton.mp hi
    replace he : e ∈ [.call "join" [.reference "separator" [], .reference "holders" []] false,
      .null, .null, .null] := he
    obtain rfl | rfl : e = .call "join" [.reference "separator" [], .reference "holders" []] false ∨
      e = .null := by simpa using he
    · refine ⟨fun r hr => ?_, fun n hn => ?_⟩
      · obtain rfl | rfl : r = ⟨"separator", []⟩ ∨ r = ⟨"holders", []⟩ := by
          simpa using (show r ∈ [⟨"separator", []⟩, ⟨"holders", []⟩] from hr)
        · exact .inl (List.mem_singleton_self _)
        · exact .inr (.inl (List.mem_singleton_self _))
      · obtain ⟨_, _, h⟩ | ⟨k, hk, hn⟩ := hn.cases
        · obtain ⟨rfl, _, _⟩ := Expr.call.inj h
          decide
        · obtain rfl | rfl : k = .reference "separator" [] ∨ k = .reference "holders" [] := by
            simpa [Expr.children] using hk
          · exact absurd hn (Expr.not_calls_of_leaf rfl rfl)
          · exact absurd hn (Expr.not_calls_of_leaf rfl rfl)
    · exact ⟨fun r hr => absurd hr List.not_mem_nil,
        fun n hn => absurd hn (Expr.not_calls_of_leaf rfl rfl)⟩

theorem holder_invariant : InScope holderFiles ∧ ∃ c, build holderFiles = .ok c ∧
    c.templates.map (·.links) = [[], ["holders"]] ∧ Coherent holderFiles ∧ Made holderFiles c ∧
    c.Invariant := by
  have hread : ∀ f ∈ holderFiles, ∃ b, Definitions.read b = .ok f.2 := by
    intro f hf
    rw [List.mem_singleton.mp hf]
    exact ⟨holderBody, rfl⟩
  obtain ⟨c, hbuild, hlinks⟩ : ∃ c, build holderFiles = .ok c ∧ c.templates.map (·.links) =
    [[], ["holders"]] := ⟨_, rfl, rfl⟩
  exact ⟨inScope_holderFiles, c, hbuild, hlinks, (build_invariant hread).1 c hbuild⟩

end Catalog

end SolidityCanvas
