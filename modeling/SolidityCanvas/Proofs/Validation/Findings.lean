/-
What each check of a canvas finds.

A check reports errors exactly when the rule that it stands for is broken.
The rules are stated about the values that were given and the components that
they make, one for each check:

* `Property.Fits`: a required value is there, and a given value conforms;
* `Component.Named`: the name, where there is one, can be a name;
* `Component.Claims`: the names that a component takes in a name space.

Checks after the first look only at components without a bad property, which
is why their lemmas assume one.
-/
import SolidityCanvas.Proofs.Arrangement.Precedence
import SolidityCanvas.Proofs.Canvas.Components
import SolidityCanvas.Validation

namespace SolidityCanvas

open Diagnostic

/-! ### Properties -/

/-- The given values suit a property: if it is required there is one other
than `null`, and if there is one other than `null` it conforms to the type. -/
def Property.Fits (p : Property) (raw : Bag) : Prop :=
  (p.required = true → ∃ v, raw.get? p.name = some v ∧ v.isNull = false) ∧
    ∀ v, raw.get? p.name = some v → v.isNull = false → v.conforms p.type = true

/-- Where nothing is given, a default is what suits a property. -/
theorem Property.fits_iff_of_absent {p : Property} {raw : Bag}
    (h : ∀ v, raw.get? p.name = some v → v.isNull = true) :
    p.Fits raw ↔ p.default.isSome = true := by
  have hnone : ¬ ∃ v, raw.get? p.name = some v ∧ v.isNull = false := by
    rintro ⟨v, hv, hnull⟩
    exact absurd (h v hv) (by simp [hnull])
  rw [Property.Fits, Property.required]
  constructor
  · rintro ⟨hreq, _⟩
    by_contra hsome
    exact hnone (hreq (by simpa using hsome))
  · intro hsome
    refine ⟨fun hreq => absurd hreq (by simp [Option.ne_none_iff_isSome.mpr hsome]), ?_⟩
    exact fun v hv hnull => absurd ⟨v, hv, hnull⟩ hnone

theorem Value.isNull_eq_false {v : Value} (h : ∀ t, v ≠ null t) : v.isNull = false := by
  cases v with
  | null t => exact absurd rfl (h t)
  | _ => rfl

theorem Property.hasErrors_bind {p : Property} {id : String} {raw : Bag} :
    hasErrors (p.bind id raw).2 = false ↔ p.Fits raw := by
  rw [Property.bind]
  split
  · rename_i hget
    rw [Property.fits_iff_of_absent (by simp [hget])]
    cases p.default <;> simp
  · rename_i t hget
    rw [Property.fits_iff_of_absent (by simp [hget, Value.isNull])]
    cases p.default <;> simp
  · rename_i v hnull hget
    have hv : v.isNull = false := Value.isNull_eq_false hnull
    simp only [Property.Fits, hget, Value.conforms]
    cases hw : v.coerce? p.type with
    | none => simp [hv, hw]
    | some w => simp [hv, hw]

theorem hasErrors_undeclared (id : String) (schema : List Property) (raw : Bag) :
    hasErrors (undeclared id schema raw) = false := by
  rw [hasErrors_eq_false_iff, undeclared]
  intro d hd
  obtain ⟨n, _, rfl⟩ := List.mem_map.mp hd
  exact isError_warningOn ..

namespace Component

theorem hasBad_ofInstance {i : Instance} {t : Template} :
    (ofInstance i t).hasBad = false ↔ ∀ p ∈ t.properties, p.Fits i.properties := by
  have hfindings : (ofInstance i t).findings =
      t.properties.flatMap (fun p => (p.bind i.id i.properties).2) ++
        undeclared i.id t.properties i.properties := by
    rw [ofInstance, SolidityCanvas.bind, List.flatMap_map]
  change hasErrors _ = false ↔ _
  rw [hfindings, hasErrors_append, hasErrors_undeclared, Bool.or_false,
    hasErrors_flatMap_eq_false_iff]
  exact forall₂_congr fun p _ => Property.hasErrors_bind

/-- Without a bad property no property is bad. -/
theorem isBad_eq_false {k : Component} (h : k.hasBad = false) (p : String) :
    k.isBad p = false := by
  rw [hasBad, List.any_eq_false] at h
  rw [isBad, List.any_eq_false]
  intro d hd
  simp [h d hd]

/-! ### Names and values -/

/-- The name, where the category has one, is an identifier that is not
reserved. -/
def Named (k : Component) : Prop :=
  k.template.category.nameProperty.isSome = true →
    Solidity.isIdentifier k.name = true ∧ Solidity.isReserved k.name = false

theorem hasErrors_nameFindings {k : Component} (h : k.hasBad = false) :
    hasErrors k.nameFindings = false ↔ k.Named := by
  rw [nameFindings, Named]
  cases k.template.category.nameProperty with
  | none => simp
  | some p =>
    by_cases hid : Solidity.isIdentifier k.name = true
    · by_cases hres : Solidity.isReserved k.name = true
      · simp [isBad_eq_false h, hid, hres]
      · simp [isBad_eq_false h, hid, hres]
    · simp [isBad_eq_false h, hid]

/-- What is unusual about a value is never an error. -/
theorem hasErrors_valueFindings (k : Component) (declared : String → Bool) (p : Property) :
    hasErrors (k.valueFindings declared p) = false := by
  rw [hasErrors_eq_false_iff]
  intro d hd
  rw [valueFindings] at hd
  split at hd
  · exact absurd hd List.not_mem_nil
  split at hd
  · exact absurd hd List.not_mem_nil
  rcases List.mem_append.mp hd with hd | hd
  · split at hd
    · split at hd
      · exact absurd hd List.not_mem_nil
      · rw [List.mem_singleton.mp hd]
        exact isError_warningOn ..
    · exact absurd hd List.not_mem_nil
  · split at hd
    · exact absurd hd List.not_mem_nil
    · obtain ⟨s, _, hd⟩ := List.mem_filterMap.mp hd
      obtain ⟨⟨code, message⟩, _, rfl⟩ := Option.map_eq_some_iff.mp hd
      exact isError_warningOn ..

/-! ### Claims to names -/

/-- The component takes a name in a name space: its own name, or one that its
template declares. -/
def Claims (k : Component) (nameSpace name : String) : Prop :=
  (k.template.category.nameProperty.isSome = true ∧ k.template.category.nameSpace = nameSpace ∧
      k.name = name) ∨
    ∃ spaces names, k.template.declaredNames k.id k.properties.bag = .ok (some spaces) ∧
      (nameSpace, names) ∈ spaces ∧ name ∈ names

theorem hasErrors_claimFindings {k : Component} (h : k.hasBad = false) :
    hasErrors k.claimFindings = false ↔
      ∃ spaces, k.template.declaredNames k.id k.properties.bag = .ok spaces := by
  rw [claimFindings, declaredClaims, if_neg (by simp [h])]
  cases k.template.declaredNames k.id k.properties.bag with
  | error e => simp
  | ok spaces => simp

/-- A name is no identifier unless it has a character. -/
theorem Named.name_ne_empty {k : Component} (h : k.Named)
    (hname : k.template.category.nameProperty.isSome = true) : k.name ≠ "" := by
  intro hempty
  have hid := (h hname).1
  rw [hempty] at hid
  exact absurd hid (by decide)

theorem exists_mem_ownClaims {k : Component} (h : k.hasBad = false) (hn : k.Named)
    {nameSpace name : String} :
    (∃ q ∈ k.ownClaims, q.nameSpace = nameSpace ∧ q.name = name) ↔
      k.template.category.nameProperty.isSome = true ∧
        k.template.category.nameSpace = nameSpace ∧ k.name = name := by
  have hne := hn.name_ne_empty
  rw [ownClaims]
  cases hp : k.template.category.nameProperty with
  | none => simp
  | some p => simp [isBad_eq_false h, hne (by simp [hp])]

theorem exists_mem_declaredClaims {k : Component} (h : k.hasBad = false)
    {nameSpace name : String} :
    (∃ q ∈ (match k.declaredClaims with
        | .ok claims => claims
        | .error _ => []), q.nameSpace = nameSpace ∧ q.name = name) ↔
      ∃ spaces names, k.template.declaredNames k.id k.properties.bag = .ok (some spaces) ∧
        (nameSpace, names) ∈ spaces ∧ name ∈ names := by
  rw [declaredClaims, if_neg (by simp [h])]
  cases k.template.declaredNames k.id k.properties.bag with
  | error e => simp
  | ok found =>
    cases found with
    | none => simp
    | some spaces =>
      constructor
      · rintro ⟨q, hq, rfl, rfl⟩
        obtain ⟨⟨space, names⟩, hs, hq⟩ := List.mem_flatMap.mp hq
        obtain ⟨n, hn, rfl⟩ := List.mem_map.mp hq
        exact ⟨spaces, names, rfl, hs, hn⟩
      · rintro ⟨_, names, he, hs, hn⟩
        obtain rfl := Option.some.inj (Except.ok.inj he)
        exact ⟨⟨nameSpace, name, ""⟩,
          List.mem_flatMap.mpr ⟨_, hs, List.mem_map.mpr ⟨name, hn, rfl⟩⟩, rfl, rfl⟩

theorem exists_mem_claims {k : Component} (h : k.hasBad = false) (hn : k.Named)
    {nameSpace name : String} :
    (∃ q ∈ k.claims, q.nameSpace = nameSpace ∧ q.name = name) ↔ k.Claims nameSpace name := by
  rw [claims, Claims, ← exists_mem_ownClaims h hn, ← exists_mem_declaredClaims h]
  constructor
  · rintro ⟨q, hq, hkey⟩
    rcases List.mem_append.mp hq with hq | hq
    · exact Or.inl ⟨q, hq, hkey⟩
    · exact Or.inr ⟨q, hq, hkey⟩
  · rintro (⟨q, hq, hkey⟩ | ⟨q, hq, hkey⟩)
    · exact ⟨q, List.mem_append_left _ hq, hkey⟩
    · exact ⟨q, List.mem_append_right _ hq, hkey⟩

end Component

namespace Canvas

/-! ### The canvas as a whole -/

variable {c : Canvas} {catalog : Catalog} {ks : List Component} {fs : List Diagnostic}

theorem hasErrors_singletonFindings (hsame : ∀ k ∈ ks, ∀ l ∈ ks,
      k.template.category.name = l.template.category.name →
      k.template.category = l.template.category) :
    hasErrors (singletonFindings ks) = false ↔ ∀ k ∈ ks, ∀ l ∈ ks,
      k.template.category.singleton = true →
      k.template.category.name = l.template.category.name → k.id = l.id := by
  have hfirst : ∀ k ∈ ks, ∃ holder ∈ ks,
      ks.find? (·.template.category.name == k.template.category.name) = some holder ∧
        holder.template.category.name = k.template.category.name := by
    intro k hk
    obtain ⟨holder, hfind⟩ := Option.isSome_iff_exists.mp
      (List.find?_isSome (p := (·.template.category.name == k.template.category.name)).mpr
        ⟨k, hk, by simp⟩)
    exact ⟨holder, List.mem_of_find?_eq_some hfind, hfind, by simpa using List.find?_some hfind⟩
  rw [singletonFindings, hasErrors_flatMap_eq_false_iff]
  constructor
  · intro h k hk l hl hsingle hname
    obtain ⟨holder, _, hfind, _⟩ := hfirst k hk
    -- All instances of the category are compared with the first.
    have hid : ∀ m ∈ ks, m.template.category = k.template.category → holder.id = m.id := by
      intro m hm hcat
      by_contra hne
      have hm := h m hm
      simp [hcat, hsingle, hfind, hne] at hm
    exact (hid k hk rfl).symm.trans (hid l hl (hsame k hk l hl hname).symm)
  · intro h k hk
    by_cases hsingle : k.template.category.singleton = true
    · obtain ⟨holder, hholder, hfind, hname⟩ := hfirst k hk
      have hid := h k hk holder hholder hsingle hname.symm
      simp [hsingle, hfind, hid]
    · simp [hsingle]

/-- The first to take a name takes it, and there is one if any takes it. -/
theorem holder?_eq_some {claimed : List (Component × List Component.Claim)}
    {nameSpace name : String} {k : Component} (h : holder? claimed nameSpace name = some k) :
    ∃ e ∈ claimed, e.1 = k ∧ ∃ q ∈ e.2, q.nameSpace = nameSpace ∧ q.name = name := by
  obtain ⟨e, hfind, rfl⟩ := Option.map_eq_some_iff.mp h
  refine ⟨e, List.mem_of_find?_eq_some hfind, rfl, ?_⟩
  simpa using List.find?_some hfind

theorem exists_holder? {claimed : List (Component × List Component.Claim)}
    {e : Component × List Component.Claim} (he : e ∈ claimed) {q : Component.Claim}
    (hq : q ∈ e.2) : ∃ k, holder? claimed q.nameSpace q.name = some k := by
  rw [← Option.isSome_iff_exists, holder?, Option.isSome_map, List.find?_isSome]
  exact ⟨e, he, by simpa using ⟨q, hq, rfl, rfl⟩⟩

theorem claimFinding?_eq_none {claimed : List (Component × List Component.Claim)}
    {k : Component} {q : Component.Claim} :
    (∀ d, claimFinding? claimed k q = some d → d.isError = false) ↔
      ∀ holder, holder? claimed q.nameSpace q.name = some holder → holder.id = k.id := by
  rw [claimFinding?]
  cases holder? claimed q.nameSpace q.name with
  | none => simp
  | some holder =>
    by_cases hid : holder.id = k.id
    · simp [hid]
    · simp [hid]

theorem hasErrors_collisionFindings (hbad : ∀ k ∈ ks, k.hasBad = false)
    (hnamed : ∀ k ∈ ks, k.Named) :
    hasErrors (collisionFindings ks) = false ↔
      (∀ k ∈ ks, ∃ spaces, k.template.declaredNames k.id k.properties.bag = .ok spaces) ∧
        ∀ k ∈ ks, ∀ l ∈ ks, ∀ nameSpace name, k.Claims nameSpace name →
          l.Claims nameSpace name → k.id = l.id := by
  have hparts : hasErrors (collisionFindings ks) = false ↔
      (∀ k ∈ ks, hasErrors k.claimFindings = false) ∧ ∀ k ∈ ks, ∀ q ∈ k.claims,
        ∀ holder, holder? (ks.map fun c => (c, c.claims)) q.nameSpace q.name = some holder →
          holder.id = k.id := by
    rw [collisionFindings, hasErrors_flatMap_eq_false_iff, List.forall_mem_map]
    simp only [hasErrors_append, Bool.or_eq_false_iff, forall_and]
    refine and_congr Iff.rfl (forall₂_congr fun k _ => ?_)
    rw [hasErrors_eq_false_iff]
    simp only [List.mem_filterMap, ← claimFinding?_eq_none]
    exact ⟨fun h q hq d hd => h d ⟨q, hq, hd⟩, fun h d ⟨q, hq, hd⟩ => h q hq d hd⟩
  rw [hparts]
  refine and_congr (forall₂_congr fun k hk => Component.hasErrors_claimFindings (hbad k hk)) ?_
  constructor
  · intro h k hk l hl nameSpace name hkc hlc
    obtain ⟨q, hq, rfl, rfl⟩ := (Component.exists_mem_claims (hbad k hk) (hnamed k hk)).mpr hkc
    obtain ⟨q', hq', hs, hn⟩ := (Component.exists_mem_claims (hbad l hl) (hnamed l hl)).mpr hlc
    have hmem : (k, k.claims) ∈ ks.map fun c => (c, c.claims) := List.mem_map.mpr ⟨k, hk, rfl⟩
    -- Both have the id of the first component that takes the name.
    obtain ⟨holder, hholder⟩ := exists_holder? hmem hq
    exact (h k hk q hq holder hholder).symm.trans (h l hl q' hq' holder (by rw [hs, hn, hholder]))
  · intro h k hk q hq holder hholder
    obtain ⟨_, he, rfl, q', hq', hs, hn⟩ := holder?_eq_some hholder
    obtain ⟨l, hl, rfl⟩ := List.mem_map.mp he
    refine h l hl k hk q.nameSpace q.name ?_ ?_
    · exact (Component.exists_mem_claims (hbad l hl) (hnamed l hl)).mp ⟨q', hq', hs, hn⟩
    · exact (Component.exists_mem_claims (hbad k hk) (hnamed k hk)).mp ⟨q, hq, rfl, rfl⟩

theorem isSome_usable? {k : Connection} :
    (usable? catalog ks k).isSome = true ↔ k.source ≠ k.target ∧ ∃ source target,
      componentWith? ks k.source = some source ∧ componentWith? ks k.target = some target ∧
        (catalog.rule? source.template.category.name
          target.template.category.name).isSome = true := by
  rw [usable?]
  by_cases hne : k.source = k.target
  · simp [hne]
  · cases componentWith? ks k.source with
    | none => simp [hne]
    | some source =>
      cases componentWith? ks k.target with
      | none => simp [hne]
      | some target =>
        cases hr : catalog.rule? source.template.category.name target.template.category.name with
        | none => simp [hne, hr]
        | some rule => simp [hne, hr]

theorem isError_danglingFinding (k : Connection) (hasSource hasTarget : Bool) :
    (danglingFinding k hasSource hasTarget).isError = true := by
  cases hasSource <;> cases hasTarget <;> exact isError_errorOn ..

theorem hasErrors_connectionFinding? {repeated : Bool} {k : Connection} :
    hasErrors (connectionFinding? catalog ks repeated k).toList = false ↔
      k.source ≠ k.target ∧ ∃ source target,
        componentWith? ks k.source = some source ∧ componentWith? ks k.target = some target ∧
          (repeated = true ∨ (catalog.rule? source.template.category.name
            target.template.category.name).isSome = true) := by
  rw [connectionFinding?]
  by_cases hne : k.source = k.target
  · simp [hne]
  · cases componentWith? ks k.source with
    | none => simp [hne, isError_danglingFinding]
    | some source =>
      cases componentWith? ks k.target with
      | none => simp [hne, isError_danglingFinding]
      | some target =>
        cases repeated with
        | true => simp [hne]
        | false =>
          cases hr : catalog.rule? source.template.category.name target.template.category.name with
          | none => simp [hne, hr]
          | some rule => simp [hne, hr]

/-- A connection that was drawn before is not checked again, but the first one
was. -/
theorem hasErrors_connectionFindings : ∀ (connections : List Connection)
    {earlier : List Connection}, (∀ k ∈ earlier, (usable? catalog ks k).isSome = true) →
    (hasErrors (connectionFindings catalog ks earlier connections) = false ↔
      ∀ k ∈ connections, (usable? catalog ks k).isSome = true) := by
  intro connections
  induction connections with
  | nil => exact fun _ => by simp [connectionFindings]
  | cons k rest ih =>
    intro earlier hearlier
    have hfirst : hasErrors (connectionFinding? catalog ks (earlier.contains k) k).toList = false ↔
        (usable? catalog ks k).isSome = true := by
      rw [hasErrors_connectionFinding?]
      constructor
      -- For a connection that is repeated no rule is looked up, but one was found before.
      · rintro ⟨hne, source, target, hs, ht, hrepeated | hrule⟩
        · exact hearlier k (List.contains_iff_mem.mp hrepeated)
        · exact isSome_usable?.mpr ⟨hne, source, target, hs, ht, hrule⟩
      · intro hsome
        obtain ⟨hne, source, target, hs, ht, hrule⟩ := isSome_usable?.mp hsome
        exact ⟨hne, source, target, hs, ht, Or.inr hrule⟩
    rw [connectionFindings, hasErrors_append, Bool.or_eq_false_iff, hfirst, List.forall_mem_cons]
    exact and_congr_right fun hk => ih (List.forall_mem_cons.mpr ⟨hk, hearlier⟩)

/-- Every connection can be used exactly when none of them is an error. -/
theorem hasErrors_connectionFindings_iff (h : c.components catalog = .ok (ks, fs)) :
    hasErrors (connectionFindings catalog ks [] c.connections) = false ↔
      ∀ k ∈ c.connections, ∃ rule, c.Connects catalog k rule := by
  rw [hasErrors_connectionFindings _ fun _ hk => absurd hk List.not_mem_nil]
  refine forall₂_congr fun k hk => ?_
  rw [Option.isSome_iff_exists]
  constructor
  · rintro ⟨u, hu⟩
    obtain ⟨hne, rfl, hs, ht, hr⟩ := (usable?_eq_some h).mp hu
    exact ⟨u.rule, hk, hne, u.source, u.target, hs, ht, hr⟩
  · rintro ⟨rule, _, hne, source, target, hs, ht, hr⟩
    exact ⟨⟨k, source, target, rule⟩, (usable?_eq_some h).mpr ⟨hne, rfl, hs, ht, hr⟩⟩

end Canvas

end SolidityCanvas
