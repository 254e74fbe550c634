/-
Names that are taken.

A component claims its own name, and the names that its template declares; the
same name may be among them more than once.  Of the components that claim a name
the first one on the canvas holds it, and checking the canvas reports every claim
of the others.  A finding can be told from others by its message, which quotes
what it is about (`Canvas.collisionText_inj`).

* `Component.timesClaimed`: how often a component claims a name
  (`countP_claims`);
* `Canvas.holder?_eq_some_iff`: who holds a name;
* `Canvas.countP_collisionFindings`: what is reported about names;
* `Canvas.collisions_are_counted`: how often a name of a component is reported.
-/
import Mathlib.Algebra.BigOperators.Group.List.Lemmas
import SolidityCanvas.Proofs.Property.Binding
import SolidityCanvas.Proofs.Text.PrefixFree
import SolidityCanvas.Proofs.Validation.Verdict

namespace SolidityCanvas

/-- The message about a name that another component holds. -/
def Diagnostic.collisionText (id holder nameSpace name : String) : String :=
  "name " ++ Text.quoted name ++ " of instance " ++ Text.quoted id ++ " collides with instance " ++
    Text.quoted holder ++ " in the " ++ nameSpace ++ " namespace"

/-- The finding is an error about an instance whose name is taken in a name
space. -/
def Diagnostic.tellsCollision (d : Diagnostic) (id nameSpace name : String) : Bool :=
  d.isError && d.code == Code.nameCollision && d.instanceId == id &&
    d.related.any fun holder => d.message == collisionText id holder nameSpace name

namespace Component

/-! ### Claims -/

/-- The component has a name of its own, which could be used. -/
def ownsName (k : Component) (nameSpace name : String) : Bool :=
  (k.template.category.nameProperty.any fun p => !k.isBad p) && !k.name.isEmpty &&
    k.template.category.nameSpace == nameSpace && k.name == name

/-- How often the template declares a name.  With a property that could not be
used nothing is declared. -/
def timesDeclared (k : Component) (nameSpace name : String) : Nat :=
  if k.hasBad then 0
  else match k.template.declaredNames k.id k.properties.bag with
    | .ok (some spaces) => ((spaces.filter (·.1 == nameSpace)).map fun s => s.2.count name).sum
    | _ => 0

/-- How often the component claims a name. -/
def timesClaimed (k : Component) (nameSpace name : String) : Nat :=
  (k.ownsName nameSpace name).toNat + k.timesDeclared nameSpace name

theorem countP_ownClaims (k : Component) (nameSpace name : String) :
    k.ownClaims.countP (fun q => q.nameSpace == nameSpace && q.name == name) =
      (k.ownsName nameSpace name).toNat := by
  rw [ownClaims, ownsName]
  cases k.template.category.nameProperty with
  | none => rfl
  | some p =>
    cases hbad : k.isBad p
    · cases hempty : k.name.isEmpty
      · simp [hbad, List.countP_singleton, Bool.toNat, Bool.cond_eq_ite]
      · simp [hbad]
    · simp [hbad]

theorem countP_flatMap_names (spaces : List (String × List String)) (nameSpace name : String) :
    (spaces.flatMap fun s => s.2.map fun n => (⟨s.1, n, ""⟩ : Claim)).countP
        (fun q => q.nameSpace == nameSpace && q.name == name) =
      ((spaces.filter (·.1 == nameSpace)).map fun s => s.2.count name).sum := by
  induction spaces with
  | nil => rfl
  | cons s spaces ih =>
    rw [List.flatMap_cons, List.countP_append, ih, List.countP_map]
    by_cases hs : s.1 = nameSpace
    · rw [List.filter_cons_of_pos (by simpa using hs), List.map_cons, List.sum_cons, List.count]
      congr 1
      refine List.countP_congr fun n _ => ?_
      simp [hs]
    · rw [List.filter_cons_of_neg (by simpa using hs), List.countP_eq_zero.mpr, Nat.zero_add]
      simp [hs]

/-- **A component claims its own name once, and others as often as they are
declared.** -/
theorem countP_claims (k : Component) (nameSpace name : String) :
    k.claims.countP (fun q => q.nameSpace == nameSpace && q.name == name) =
      k.timesClaimed nameSpace name := by
  rw [claims, List.countP_append, countP_ownClaims, timesClaimed, timesDeclared, declaredClaims]
  congr 1
  cases k.hasBad with
  | true => rfl
  | false =>
    cases k.template.declaredNames k.id k.properties.bag with
    | error e => rfl
    | ok found =>
      cases found with
      | none => rfl
      | some spaces => exact countP_flatMap_names spaces nameSpace name

theorem any_claims (k : Component) (nameSpace name : String) :
    (k.claims.any fun q => q.nameSpace == nameSpace && q.name == name) =
      (k.timesClaimed nameSpace name != 0) := by
  rw [← countP_claims, Bool.eq_iff_iff, List.any_eq_true, bne_iff_ne, ← Nat.pos_iff_ne_zero,
    List.countP_pos_iff]

end Component

namespace Canvas

open Diagnostic

variable {c : Canvas} {catalog : Catalog} {ks : List Component} {fs : List Diagnostic}
  {b k : Component} {nameSpace name : String}

/-! ### Holders -/

/-- The component is the first on the canvas to claim a name. -/
structure FirstClaims (c : Canvas) (ks : List Component) (nameSpace name : String)
    (k : Component) : Prop where
  mem : k ∈ ks
  claims : k.timesClaimed nameSpace name ≠ 0
  first : ∀ l ∈ ks, l.timesClaimed nameSpace name ≠ 0 → c.place k.id ≤ c.place l.id

/-- A component that stands before another one claims a name. -/
def takenBefore (c : Canvas) (ks : List Component) (b : Component) (nameSpace name : String) :
    Bool :=
  ks.any fun k => c.place k.id < c.place b.id && k.timesClaimed nameSpace name != 0

theorem holder?_map (ks : List Component) (nameSpace name : String) :
    holder? (ks.map fun k => (k, k.claims)) nameSpace name =
      ks.find? fun k => k.timesClaimed nameSpace name != 0 := by
  rw [holder?, List.find?_map, Option.map_map]
  simp only [Function.comp_def, Component.any_claims]
  rw [Option.map_id']

/-- **The first component to claim a name holds it.** -/
theorem holder?_eq_some_iff (h : c.components catalog = .ok (ks, fs)) :
    holder? (ks.map fun k => (k, k.claims)) nameSpace name = some k ↔
      c.FirstClaims ks nameSpace name k := by
  rw [holder?_map]
  constructor
  · intro hfind
    refine ⟨List.mem_of_find?_eq_some hfind, by simpa using List.find?_some hfind, ?_⟩
    exact fun l hl hclaims =>
      place_le_of_find? (components_pairwise h) hfind l hl (by simpa using hclaims)
  · rintro ⟨hk, hclaims, hfirst⟩
    obtain ⟨l, hfind⟩ := Option.isSome_iff_exists.mp
      (List.find?_isSome (p := fun k => k.timesClaimed nameSpace name != 0).mpr
        ⟨k, hk, by simpa using hclaims⟩)
    -- Both come first, and no two components share a place.
    have hl := List.mem_of_find?_eq_some hfind
    have hle := place_le_of_find? (components_pairwise h) hfind k hk (by simpa using hclaims)
    have hge := hfirst l hl (by simpa using List.find?_some hfind)
    have hid := eq_of_place_eq ((mem_components h).mp hl) (Nat.le_antisymm hle hge)
    rw [hfind, List.inj_on_of_nodup_map (components_nodup h) hl hk hid]

/-- Whoever claims a name holds it unless it was taken before. -/
theorem takenBefore_eq_true_iff (h : c.components catalog = .ok (ks, fs)) (hb : b ∈ ks)
    (hclaims : b.timesClaimed nameSpace name ≠ 0) :
    c.takenBefore ks b nameSpace name = true ↔
      ∃ holder, c.FirstClaims ks nameSpace name holder ∧ holder.id ≠ b.id := by
  rw [takenBefore, List.any_eq_true]
  simp only [Bool.and_eq_true, decide_eq_true_iff, bne_iff_ne]
  constructor
  · rintro ⟨k, hk, hlt, hkc⟩
    obtain ⟨holder, hholder⟩ : ∃ holder, holder? (ks.map fun k => (k, k.claims)) nameSpace name =
        some holder := by
      rw [holder?_map, ← Option.isSome_iff_exists, List.find?_isSome]
      exact ⟨k, hk, by simpa using hkc⟩
    rw [holder?_eq_some_iff h] at hholder
    refine ⟨holder, hholder, fun hid => ?_⟩
    exact Nat.not_lt_of_le (hholder.first k hk hkc) (hid ▸ hlt)
  · rintro ⟨holder, hholder, hne⟩
    refine ⟨holder, hholder.mem, Nat.lt_of_le_of_ne (hholder.first b hb hclaims) fun hplace => ?_,
      hholder.claims⟩
    exact hne (eq_of_place_eq ((mem_components h).mp hholder.mem) hplace)

/-! ### Findings about names -/

/-- **The message shows what it is about.** -/
theorem collisionText_inj {id holder id' holder' nameSpace' name' : String}
    (h : collisionText id holder nameSpace name = collisionText id' holder' nameSpace' name') :
    holder = holder' ∧ nameSpace = nameSpace' ∧ name = name' := by
  delta collisionText at h
  have hchars := congrArg String.toList h
  simp only [String.toList_append, List.append_assoc] at hchars
  obtain ⟨hname, hrest⟩ := Text.prefixFree_quoted (List.append_cancel_left hchars)
  obtain ⟨-, hrest⟩ := Text.prefixFree_quoted (List.append_cancel_left hrest)
  obtain ⟨hholder, hrest⟩ := Text.prefixFree_quoted (List.append_cancel_left hrest)
  have hspace := List.append_cancel_right (List.append_cancel_left hrest)
  exact ⟨hholder, String.toList_inj.mp hspace, hname⟩

theorem claimFinding?_eq_some {claimed : List (Component × List Component.Claim)}
    {q : Component.Claim} {d : Diagnostic} : claimFinding? claimed k q = some d ↔
      ∃ holder, holder? claimed q.nameSpace q.name = some holder ∧ holder.id ≠ k.id ∧
        d = (Diagnostic.errorOn Code.nameCollision k.id q.property
          (collisionText k.id holder.id q.nameSpace q.name)).withRelated [holder.id] := by
  rw [claimFinding?]
  cases holder? claimed q.nameSpace q.name with
  | none => simp
  | some holder =>
    by_cases hid : holder.id = k.id
    · simp [hid]
    · simp only [beq_iff_eq, hid, if_false, Option.some_inj, exists_eq_left', ne_eq,
        not_false_eq_true, true_and]
      exact eq_comm

/-- A finding about a claim is about the name that is claimed. -/
theorem tellsCollision_of_claimFinding? {claimed : List (Component × List Component.Claim)}
    {q : Component.Claim} {d : Diagnostic} (h : claimFinding? claimed k q = some d)
    {id : String} : d.tellsCollision id nameSpace name = true ↔
      k.id = id ∧ q.nameSpace = nameSpace ∧ q.name = name := by
  obtain ⟨holder, -, -, rfl⟩ := claimFinding?_eq_some.mp h
  simp only [Diagnostic.tellsCollision, Diagnostic.withRelated, Diagnostic.errorOn,
    Diagnostic.isError, List.nil_append, List.any_cons, List.any_nil, Bool.or_false,
    Bool.and_eq_true, beq_iff_eq, true_and]
  constructor
  · rintro ⟨rfl, hmessage⟩
    exact ⟨rfl, (collisionText_inj hmessage).2⟩
  · rintro ⟨rfl, rfl, rfl⟩
    exact ⟨rfl, rfl⟩

/-- **A claim is reported if the name was taken before.** -/
theorem isSome_claimFinding? (h : c.components catalog = .ok (ks, fs)) (hb : b ∈ ks)
    {q : Component.Claim} (hq : q ∈ b.claims) :
    (claimFinding? (ks.map fun k => (k, k.claims)) b q).isSome = true ↔
      c.takenBefore ks b q.nameSpace q.name = true := by
  have hclaims : b.timesClaimed q.nameSpace q.name ≠ 0 := by
    rw [← bne_iff_ne, ← Component.any_claims, List.any_eq_true]
    exact ⟨q, hq, by simp⟩
  rw [takenBefore_eq_true_iff h hb hclaims, Option.isSome_iff_exists]
  simp only [claimFinding?_eq_some, holder?_eq_some_iff h]
  constructor
  · rintro ⟨_, holder, hholder, hne, rfl⟩
    exact ⟨holder, hholder, hne⟩
  · rintro ⟨holder, hholder, hne⟩
    exact ⟨_, holder, hholder, hne, rfl⟩

/-- Of the claims of a component those to one name are reported, all or none. -/
theorem countP_claimFindings (h : c.components catalog = .ok (ks, fs)) (hb : b ∈ ks)
    (nameSpace name : String) :
    (b.claims.filterMap (claimFinding? (ks.map fun k => (k, k.claims)) b)).countP
        (·.tellsCollision b.id nameSpace name) =
      if c.takenBefore ks b nameSpace name then b.timesClaimed nameSpace name else 0 := by
  have hcount : ∀ q ∈ b.claims,
      ((claimFinding? (ks.map fun k => (k, k.claims)) b q).map
        (·.tellsCollision b.id nameSpace name)).getD false = true ↔
      (c.takenBefore ks b nameSpace name &&
        (q.nameSpace == nameSpace && q.name == name)) = true := by
    intro q hq
    have hreported := isSome_claimFinding? h hb hq
    rw [Bool.and_eq_true, Bool.and_eq_true, beq_iff_eq, beq_iff_eq]
    cases hd : claimFinding? (ks.map fun k => (k, k.claims)) b q with
    | none =>
      rw [hd] at hreported
      refine iff_of_false Bool.false_ne_true ?_
      rintro ⟨htaken, rfl, rfl⟩
      exact Bool.false_ne_true (hreported.mpr htaken)
    | some d =>
      rw [hd] at hreported
      rw [Option.map_some, Option.getD_some, tellsCollision_of_claimFinding? hd]
      constructor
      · rintro ⟨-, rfl, rfl⟩
        exact ⟨hreported.mp rfl, rfl, rfl⟩
      · rintro ⟨-, hspace, hname⟩
        exact ⟨rfl, hspace, hname⟩
  rw [List.countP_filterMap, List.countP_congr hcount]
  cases c.takenBefore ks b nameSpace name with
  | false => simp
  | true => simpa using b.countP_claims nameSpace name

/-! ### Other findings -/

/-- None of the findings is an error about a name that is taken. -/
def NoCollision (ds : List Diagnostic) : Prop :=
  ∀ d ∈ ds, d.isError = true → d.code ≠ Code.nameCollision

theorem noCollision_nil : NoCollision [] := fun _ hd => absurd hd List.not_mem_nil

theorem noCollision_singleton {d : Diagnostic} (code : String) (hcode : d.code = code)
    (h : code ≠ Code.nameCollision) : NoCollision [d] := by
  intro d' hd' _
  rw [List.mem_singleton.mp hd', hcode]
  exact h

theorem NoCollision.append {ds es : List Diagnostic} (hd : NoCollision ds)
    (he : NoCollision es) : NoCollision (ds ++ es) := List.forall_mem_append.mpr ⟨hd, he⟩

theorem noCollision_flatMap {α : Type} {l : List α} {f : α → List Diagnostic}
    (h : ∀ a ∈ l, NoCollision (f a)) : NoCollision (l.flatMap f) := by
  intro d hd
  obtain ⟨a, ha, hd⟩ := List.mem_flatMap.mp hd
  exact h a ha d hd

theorem NoCollision.countP {ds : List Diagnostic} (h : NoCollision ds) (id nameSpace name : String) :
    ds.countP (·.tellsCollision id nameSpace name) = 0 := by
  refine List.countP_eq_zero.mpr fun d hd htells => ?_
  simp only [tellsCollision, Bool.and_eq_true, beq_iff_eq] at htells
  exact h d hd htells.1.1.1 htells.1.1.2

theorem noCollision_bind (id : String) (ps : List Property) (raw : Bag) :
    NoCollision (bind id ps raw).2 := by
  intro d hd _
  have hmem := List.mem_map_of_mem (f := heading) hd
  rw [heading_bind, List.mem_append, List.mem_map, List.mem_map] at hmem
  obtain ⟨p, -, hp⟩ | ⟨n, -, hn⟩ := hmem
  · have hcode : (if p.isMissing raw then Code.missingProperty else Code.typeMismatch) = d.code :=
      congrArg (·.2.1) hp
    rw [← hcode]
    split
    · decide
    · decide
  · have hcode : Code.unknownProperty = d.code := congrArg (·.2.1) hn
    rw [← hcode]
    decide

theorem noCollision_bindFrom : ∀ (is : List Instance) {seen : List String} {ks : List Component}
    {fs : List Diagnostic}, bindFrom catalog seen is = .ok (ks, fs) → NoCollision fs := by
  intro is
  induction is with
  | nil =>
    intro seen ks fs h
    obtain ⟨rfl, rfl⟩ := Prod.mk.inj (Except.ok.inj h)
    exact noCollision_nil
  | cons i rest ih =>
    intro seen ks fs h
    obtain ⟨_, fs', hrest, rfl⟩ | ⟨_, k, ks', fs', hk, hrest, rfl, rfl⟩ := bindFrom_cons_eq_ok h
    · exact (noCollision_singleton Code.duplicateInstance rfl (by decide)).append (ih hrest)
    · obtain ⟨t, -, rfl⟩ := componentOf?_eq_some.mp hk
      exact (noCollision_bind i.id t.properties i.properties).append (ih hrest)

theorem noCollision_nameFindings (k : Component) : NoCollision k.nameFindings := by
  rw [Component.nameFindings]
  split
  · exact noCollision_nil
  split
  · exact noCollision_nil
  split
  · exact noCollision_singleton Code.invalidIdentifier rfl (by decide)
  split
  · exact noCollision_singleton Code.reservedWord rfl (by decide)
  · exact noCollision_nil

/-- What is unusual about a value is no error. -/
theorem noCollision_valueFindings (k : Component) (declared : String → Bool) (p : Property) :
    NoCollision (k.valueFindings declared p) := by
  intro d hd herr
  rw [hasErrors_eq_false_iff.mp (k.hasErrors_valueFindings declared p) d hd] at herr
  cases herr

theorem noCollision_singletonFindings (ks : List Component) :
    NoCollision (singletonFindings ks) := by
  refine noCollision_flatMap fun k _ => ?_
  dsimp only
  split
  · exact noCollision_nil
  split
  · exact noCollision_nil
  split
  · exact noCollision_nil
  · exact noCollision_singleton Code.singleton rfl (by decide)

theorem noCollision_claimFindings (k : Component) : NoCollision k.claimFindings := by
  rw [Component.claimFindings, Component.declaredClaims]
  split
  · exact noCollision_nil
  · rename_i d hd
    split at hd
    · cases hd
    split at hd
    · cases hd
    · obtain rfl := Except.error.inj hd
      exact noCollision_singleton Code.invalidLiteral rfl (by decide)

theorem noCollision_connectionFinding? (repeated : Bool) (k : Connection) :
    NoCollision (connectionFinding? catalog ks repeated k).toList := by
  rw [connectionFinding?]
  split
  · exact noCollision_singleton Code.selfLoop rfl (by decide)
  split
  · split
    · exact noCollision_singleton Code.duplicateLink rfl (by decide)
    dsimp only
    split
    · exact noCollision_nil
    · exact noCollision_singleton Code.incompatible rfl (by decide)
  · refine noCollision_singleton Code.danglingEndpoint ?_ (by decide)
    rw [danglingFinding]
    dsimp only
    split
    · rfl
    split
    · rfl
    · rfl

theorem noCollision_connectionFindings : ∀ (connections : List Connection)
    (earlier : List Connection),
    NoCollision (connectionFindings catalog ks earlier connections) := by
  intro connections
  induction connections with
  | nil => exact fun _ => noCollision_nil
  | cons k rest ih =>
    exact fun earlier => (noCollision_connectionFinding? (earlier.contains k) k).append
      (ih (k :: earlier))

/-- Only the check of names reports names that are taken. -/
theorem exists_parts_of_validate {ds : List Diagnostic} (h : c.validate catalog = .ok ds) :
    ∃ ks fs before after, c.components catalog = .ok (ks, fs) ∧
      ds = before ++ collisionFindings ks ++ after ∧ NoCollision before ∧ NoCollision after := by
  obtain ⟨⟨ks, fs⟩, hks, h⟩ := except_bind_eq_ok.mp h
  obtain rfl := Except.ok.inj h
  refine ⟨ks, fs, _, _, hks, rfl, ?_, noCollision_connectionFindings c.connections []⟩
  refine ((noCollision_bindFrom c.instances hks).append ?_).append
    (noCollision_singletonFindings ks)
  exact noCollision_flatMap fun k _ => (noCollision_nameFindings k).append
    (noCollision_flatMap fun p _ => noCollision_valueFindings k _ p)

/-! ### What is reported -/

theorem collisionFindings_eq (ks : List Component) : collisionFindings ks =
    ks.flatMap fun k => k.claimFindings ++
      k.claims.filterMap (claimFinding? (ks.map fun k => (k, k.claims)) k) := by
  rw [collisionFindings, List.flatMap_map]

theorem mem_collisionFindings {d : Diagnostic} : d ∈ collisionFindings ks ↔
    ∃ k ∈ ks, d ∈ k.claimFindings ∨
      ∃ q ∈ k.claims, claimFinding? (ks.map fun k => (k, k.claims)) k q = some d := by
  simp only [collisionFindings_eq, List.mem_flatMap, List.mem_append, List.mem_filterMap]

open scoped Classical in
/-- **What the check of names reports about a name of a component.** -/
theorem countP_collisionFindings (h : c.components catalog = .ok (ks, fs)) (hb : b ∈ ks)
    (nameSpace name : String) :
    (collisionFindings ks).countP (·.tellsCollision b.id nameSpace name) =
      if c.takenBefore ks b nameSpace name then b.timesClaimed nameSpace name else 0 := by
  have hnodup := components_nodup h
  have hother : ∀ k, k ≠ b → k ∈ ks → (k.claimFindings ++
      k.claims.filterMap (claimFinding? (ks.map fun k => (k, k.claims)) k)).countP
        (·.tellsCollision b.id nameSpace name) = 0 := by
    intro k hne hk
    rw [List.countP_append, (noCollision_claimFindings k).countP, Nat.zero_add,
      List.countP_eq_zero]
    intro d hd htells
    obtain ⟨q, -, hd⟩ := List.mem_filterMap.mp hd
    have hid := ((tellsCollision_of_claimFinding? hd).mp htells).1
    exact hne (List.inj_on_of_nodup_map hnodup hk hb hid)
  rw [collisionFindings_eq, List.countP_flatMap]
  refine (List.sum_map_eq_nsmul_single b _ hother).trans ?_
  rw [List.count_eq_one_of_mem hnodup.of_map hb, one_smul, List.countP_append,
    (noCollision_claimFindings b).countP, Nat.zero_add]
  exact countP_claimFindings h hb nameSpace name

/-- Nothing else reports it. -/
theorem countP_of_validate {ds : List Diagnostic} (h : c.validate catalog = .ok ds)
    (hks : c.components catalog = .ok (ks, fs)) (hb : b ∈ ks) (nameSpace name : String) :
    ds.countP (·.tellsCollision b.id nameSpace name) =
      if c.takenBefore ks b nameSpace name then b.timesClaimed nameSpace name else 0 := by
  obtain ⟨_, _, before, after, hks', rfl, hbefore, hafter⟩ := exists_parts_of_validate h
  obtain ⟨rfl, rfl⟩ := Prod.mk.inj (Except.ok.inj (hks.symm.trans hks'))
  rw [List.countP_append, List.countP_append, hbefore.countP, hafter.countP, Nat.zero_add,
    Nat.add_zero, countP_collisionFindings hks hb]

/-- What is reported relates the first component that claims the name. -/
theorem related_of_tellsCollision {ds : List Diagnostic} (h : c.validate catalog = .ok ds)
    (hks : c.components catalog = .ok (ks, fs)) {d : Diagnostic} (hd : d ∈ ds) {id : String}
    (htells : d.tellsCollision id nameSpace name = true) :
    ∃ first, c.FirstClaims ks nameSpace name first ∧ d.related = [first.id] := by
  obtain ⟨_, _, before, after, hks', rfl, hbefore, hafter⟩ := exists_parts_of_validate h
  obtain ⟨rfl, rfl⟩ := Prod.mk.inj (Except.ok.inj (hks.symm.trans hks'))
  have hnone : ∀ {es : List Diagnostic}, NoCollision es → d ∉ es := fun hes hd =>
    List.countP_eq_zero.mp (hes.countP id nameSpace name) d hd htells
  obtain (hd | hd) | hd := (List.mem_append.mp hd).imp_left List.mem_append.mp
  · exact absurd hd (hnone hbefore)
  · obtain ⟨k, -, hd | ⟨q, -, hd⟩⟩ := mem_collisionFindings.mp hd
    · exact absurd hd (hnone (noCollision_claimFindings k))
    · obtain ⟨-, rfl, rfl⟩ := (tellsCollision_of_claimFinding? hd).mp htells
      obtain ⟨holder, hholder, -, rfl⟩ := claimFinding?_eq_some.mp hd
      exact ⟨holder, (holder?_eq_some_iff hks).mp hholder, rfl⟩
  · exact absurd hd (hnone hafter)

/-- **Reported names are counted.**  For each component of a canvas and each name in
a name space: as many errors say that the name is taken as the component claims the
name, if a component that stands before it claims the name too, and otherwise none
does.  Each relates just the first component on the canvas that claims the name.  So
there is one error for a name that was taken, and none for others, exactly if no name
that was taken is claimed more than once. -/
theorem collisions_are_counted {ds : List Diagnostic} (h : c.validate catalog = .ok ds) :
    ∃ ks fs, c.components catalog = .ok (ks, fs) ∧ ∀ b ∈ ks, ∀ nameSpace name,
      ds.countP (·.tellsCollision b.id nameSpace name) =
        (if c.takenBefore ks b nameSpace name then b.timesClaimed nameSpace name else 0) ∧
      (∀ d ∈ ds, d.tellsCollision b.id nameSpace name = true →
        ∃ first, c.FirstClaims ks nameSpace name first ∧ d.related = [first.id]) ∧
      (ds.countP (·.tellsCollision b.id nameSpace name) =
          (if c.takenBefore ks b nameSpace name && b.timesClaimed nameSpace name != 0 then 1 else 0) ↔
        (c.takenBefore ks b nameSpace name = true → b.timesClaimed nameSpace name ≤ 1)) := by
  obtain ⟨ks, fs, -, -, hks, -, -, -⟩ := exists_parts_of_validate h
  refine ⟨ks, fs, hks, fun b hb nameSpace name => ?_⟩
  have hcount := countP_of_validate h hks hb nameSpace name
  refine ⟨hcount, fun d hd htells => related_of_tellsCollision h hks hd htells, ?_⟩
  rw [hcount]
  cases c.takenBefore ks b nameSpace name with
  | false => simp
  | true =>
    cases b.timesClaimed nameSpace name with
    | zero => simp
    | succ n => simp

end Canvas

/-! ### Boxes with one name -/

/-- Tins, which have a name, and boxes, which declare theirs once more. -/
def Catalog.boxFiles : List (String × Definitions) :=
  let name : PropertyDefinition := ⟨"name", .string, true, none, "identifier", [], ""⟩
  [("box", {
    categories := [⟨"box", "state", "boxes", true, "name", false, false⟩]
    templates := [
      { sampleTemplate "tin" [name] with category := "box" },
      { sampleTemplate "box" [name] with
        declares := .object [(.literal (.string "boxes"), .tuple [.reference "name" []])] }] })]

/-- The catalog of these definitions. -/
def Catalog.boxes : Catalog := ((build boxFiles).toOption).getD {}

/-- Two instances of a template with one name. -/
def Canvas.namesakes (template : String) : Canvas where
  instances := [
    ⟨"a", template, [("name", .string "x")]⟩, ⟨"b", template, [("name", .string "x")]⟩]

/-- Of two tins with one name the second one is reported once. -/
theorem Canvas.tin_is_reported_once : ∃ ds, (namesakes "tin").validate .boxes = .ok ds ∧
    ds.countP (·.tellsCollision "b" "boxes" "x") = 1 := by
  obtain ⟨ds, hds⟩ : ∃ ds, (namesakes "tin").validate .boxes = .ok ds := ⟨_, rfl⟩
  obtain ⟨ks, fs, hks, b, hb, hid, htaken, htimes⟩ : ∃ ks fs,
      (namesakes "tin").components .boxes = .ok (ks, fs) ∧ ∃ b ∈ ks, b.id = "b" ∧
        (namesakes "tin").takenBefore ks b "boxes" "x" = true ∧
        b.timesClaimed "boxes" "x" = 1 := ⟨_, _, rfl, by decide⟩
  obtain ⟨_, _, hks', hcounts⟩ := collisions_are_counted hds
  obtain ⟨rfl, rfl⟩ := Prod.mk.inj (Except.ok.inj (hks.symm.trans hks'))
  refine ⟨ds, hds, ?_⟩
  rw [← hid, (hcounts b hb "boxes" "x").1, if_pos htaken, htimes]

/-- Of two boxes with one name the second one is reported twice. -/
theorem Canvas.box_is_reported_twice :
    Catalog.build Catalog.boxFiles = .ok .boxes ∧
    ∃ ks fs ds, (namesakes "box").components .boxes = .ok (ks, fs) ∧
      (namesakes "box").validate .boxes = .ok ds ∧
      (∀ k ∈ ks, k.timesClaimed "boxes" "x" ≠ 0) ∧
      ds.countP (·.tellsCollision "b" "boxes" "x") = 2 := by
  obtain ⟨ds, hds⟩ : ∃ ds, (namesakes "box").validate .boxes = .ok ds := ⟨_, rfl⟩
  obtain ⟨ks, fs, hks, hclaims, b, hb, hid, htaken, htimes⟩ : ∃ ks fs,
      (namesakes "box").components .boxes = .ok (ks, fs) ∧
        (∀ k ∈ ks, k.timesClaimed "boxes" "x" ≠ 0) ∧ ∃ b ∈ ks, b.id = "b" ∧
          (namesakes "box").takenBefore ks b "boxes" "x" = true ∧
          b.timesClaimed "boxes" "x" = 2 := ⟨_, _, rfl, by decide, by decide⟩
  refine ⟨rfl, ks, fs, ds, hks, hds, hclaims, ?_⟩
  rw [← hid, countP_of_validate hds hks hb, if_pos htaken, htimes]

end SolidityCanvas
