/-
When a canvas and its catalog do not fit together.

The check and the order each walk along the instances to find their templates,
and both break down at the earliest instance that is the first with its id and
names a template that the catalog lacks (`Canvas.FirstUnknown`).  Nothing else
breaks either of them:

* `bindFrom_eq_error_iff`: where the walk breaks down;
* `resolve_eq_ok`: what the order adds to the findings so far are errors, and
  there are some exactly if there is no arrangement;
* `validate_agrees_with_resolve`: the verdicts of the two side by side.
-/
import SolidityCanvas.Proofs.Arrangement.Total
import SolidityCanvas.Validation

namespace SolidityCanvas

namespace Canvas

variable {c : Canvas} {catalog : Catalog} {e : InvariantError}

/-! ### The first unknown template -/

/-- No component can be made of an instance that has none of the earlier ids:
the catalog lacks its template. -/
structure IsUnknown (catalog : Catalog) (earlier : List String) (i : Instance) : Prop where
  first : i.id ∉ earlier
  missing : catalog.template? i.template = none

/-- The error is about the earliest instance of which no component can be made.
`seen` holds the ids of the instances before. -/
def FirstUnknownAmong (catalog : Catalog) (seen : List String) (is : List Instance)
    (e : InvariantError) : Prop :=
  ∃ before i after, is = before ++ i :: after ∧
    IsUnknown catalog (seen ++ before.map (·.id)) i ∧
    (∀ before' j after', before = before' ++ j :: after' →
      ¬ IsUnknown catalog (seen ++ before'.map (·.id)) j) ∧
    e = ⟨i.id, .unknownTemplate i.template⟩

/-- The error is about the earliest instance of the canvas that is the first
with its id and names a template that the catalog lacks. -/
def FirstUnknown (c : Canvas) (catalog : Catalog) (e : InvariantError) : Prop :=
  FirstUnknownAmong catalog [] c.instances e

theorem isUnknown_congr {seen seen' : List String} (h : ∀ id, id ∈ seen ↔ id ∈ seen')
    (i : Instance) : IsUnknown catalog seen i ↔ IsUnknown catalog seen' i := by
  constructor
  · exact fun hi => ⟨fun hid => hi.first ((h _).mpr hid), hi.missing⟩
  · exact fun hi => ⟨fun hid => hi.first ((h _).mp hid), hi.missing⟩

/-- Only which ids were seen matters. -/
theorem firstUnknownAmong_congr {seen seen' : List String} (h : ∀ id, id ∈ seen ↔ id ∈ seen')
    (is : List Instance) :
    FirstUnknownAmong catalog seen is e ↔ FirstUnknownAmong catalog seen' is e := by
  have happend : ∀ (l : List Instance) (i : Instance),
      IsUnknown catalog (seen ++ l.map (·.id)) i ↔ IsUnknown catalog (seen' ++ l.map (·.id)) i :=
    fun l i => isUnknown_congr (fun id => by rw [List.mem_append, List.mem_append, h]) i
  simp only [FirstUnknownAmong, happend]

/-- The first unknown instance is the one at hand, or comes later. -/
theorem firstUnknownAmong_cons {seen : List String} {i : Instance} {rest : List Instance} :
    FirstUnknownAmong catalog seen (i :: rest) e ↔
      (IsUnknown catalog seen i ∧ e = ⟨i.id, .unknownTemplate i.template⟩) ∨
        (¬ IsUnknown catalog seen i ∧ FirstUnknownAmong catalog (i.id :: seen) rest e) := by
  -- The id at hand can stand before the others that were seen or after them.
  have hshift : FirstUnknownAmong catalog (i.id :: seen) rest e ↔
      FirstUnknownAmong catalog (seen ++ [i.id]) rest e :=
    firstUnknownAmong_congr (fun id => by simp [or_comm]) rest
  rw [hshift]
  constructor
  · rintro ⟨before, j, after, hsplit, hj, hbefore, rfl⟩
    cases before with
    | nil =>
      obtain ⟨rfl, rfl⟩ := List.cons.inj hsplit
      rw [List.map_nil, List.append_nil] at hj
      exact .inl ⟨hj, rfl⟩
    | cons x before =>
      obtain ⟨rfl, rfl⟩ := List.cons.inj hsplit
      refine .inr ⟨?_, before, j, after, rfl, ?_, fun before' k after' heq => ?_, rfl⟩
      · have hi := hbefore [] i before rfl
        rwa [List.map_nil, List.append_nil] at hi
      · rwa [List.append_assoc]
      · have hk := hbefore (i :: before') k after' (by rw [heq]; rfl)
        rwa [List.append_assoc]
  · rintro (⟨hi, rfl⟩ | ⟨hi, before, j, after, rfl, hj, hbefore, rfl⟩)
    · refine ⟨[], i, rest, rfl, ?_, fun before' k after' heq => ?_, rfl⟩
      · rwa [List.map_nil, List.append_nil]
      · exact absurd heq (by simp)
    · refine ⟨i :: before, j, after, rfl, ?_, fun before' k after' heq => ?_, rfl⟩
      · rwa [List.append_assoc] at hj
      · cases before' with
        | nil =>
          obtain ⟨rfl, -⟩ := List.cons.inj heq
          rwa [List.map_nil, List.append_nil]
        | cons x before' =>
          obtain ⟨rfl, rfl⟩ := List.cons.inj heq
          have hk := hbefore before' k after' rfl
          rwa [List.append_assoc] at hk

/-- **Where binding instances to templates breaks down.** -/
theorem bindFrom_eq_error_iff (catalog : Catalog) (e : InvariantError) :
    ∀ (is : List Instance) (seen : List String),
      bindFrom catalog seen is = .error e ↔ FirstUnknownAmong catalog seen is e := by
  intro is
  induction is with
  | nil =>
    intro seen
    refine iff_of_false (by simp [bindFrom]) ?_
    rintro ⟨before, i, after, hsplit, -⟩
    exact absurd hsplit (by simp)
  | cons i rest ih =>
    intro seen
    rw [firstUnknownAmong_cons, bindFrom]
    split
    -- An id that was seen is passed over.
    · rename_i hseen
      rw [List.contains_iff_mem] at hseen
      have hi : ¬ IsUnknown catalog seen i := fun hi => hi.first hseen
      have hsame : ∀ id, id ∈ i.id :: seen ↔ id ∈ seen := fun id =>
        ⟨fun hid => (List.mem_cons.mp hid).elim (fun heq => heq ▸ hseen) fun hid => hid,
          List.mem_cons_of_mem _⟩
      rw [and_iff_right hi, or_iff_right fun h => hi h.1, firstUnknownAmong_congr hsame, ← ih seen]
      exact except_bind_eq_error_iff fun r => ⟨_, rfl⟩
    · rename_i hseen
      rw [Bool.not_eq_true, ← Bool.not_eq_true, List.contains_iff_mem] at hseen
      cases ht : catalog.template? i.template with
      | none =>
        have hi : IsUnknown catalog seen i := ⟨hseen, ht⟩
        rw [and_iff_right hi, or_iff_left fun h => h.1 hi, Except.error.injEq]
        exact eq_comm
      | some t =>
        have hi : ¬ IsUnknown catalog seen i := fun hi => by simp [hi.missing] at ht
        rw [and_iff_right hi, or_iff_right fun h => hi h.1, ← ih (i.id :: seen)]
        exact except_bind_eq_error_iff fun r => ⟨_, rfl⟩

/-! ### The two verdicts -/

theorem components_eq_error_iff :
    c.components catalog = .error e ↔ c.FirstUnknown catalog e :=
  bindFrom_eq_error_iff catalog e c.instances []

theorem validate_eq_error_iff :
    c.validate catalog = .error e ↔ c.FirstUnknown catalog e := by
  rw [← components_eq_error_iff, validate]
  exact except_bind_eq_error_iff fun r => ⟨_, rfl⟩

/-- Nothing breaks down once the components are known. -/
theorem arrange_eq_error_iff :
    c.arrange catalog = .error e ↔ c.FirstUnknown catalog e := by
  rw [← components_eq_error_iff]
  constructor
  · intro h
    cases hks : c.components catalog with
    | error e' =>
      rw [arrange_of_error hks] at h
      rw [Except.error.inj h]
    | ok r =>
      obtain ⟨verdict, hverdict⟩ := exists_arrange_of_components hks
      rw [hverdict] at h
      cases h
  · exact arrange_of_error

theorem resolve_eq_error_iff {soFar : List Diagnostic} :
    c.resolve catalog soFar = .error e ↔ c.FirstUnknown catalog e := by
  rw [← arrange_eq_error_iff, resolve]
  refine except_bind_eq_error_iff fun verdict => ?_
  cases verdict with
  | error own => exact ⟨_, rfl⟩
  | ok a => exact ⟨_, rfl⟩

/-- Some instance is the first unknown one as soon as any is unknown. -/
theorem exists_firstUnknown_iff : (∃ e, c.FirstUnknown catalog e) ↔
    ∃ i ∈ c.instances, c.instance? i.id = some i ∧ catalog.template? i.template = none := by
  constructor
  · rintro ⟨e, before, i, after, hsplit, hi, -, -⟩
    refine ⟨i, by simp [hsplit], ?_, hi.missing⟩
    have hfirst : before.find? (·.id == i.id) = none := by
      refine List.find?_eq_none.mpr fun j hj hid => hi.first ?_
      exact List.mem_map.mpr ⟨j, hj, eq_of_beq hid⟩
    rw [instance?, hsplit, List.find?_append, hfirst, Option.none_or,
      List.find?_cons_of_pos (by simp)]
  · rintro ⟨i, hi, hfirst, hmissing⟩
    cases hks : c.components catalog with
    | error e => exact ⟨e, components_eq_error_iff.mp hks⟩
    | ok r =>
      have hknown := known_of_components hks i hi hfirst
      rw [hmissing] at hknown
      cases hknown

/-! ### What the order finds -/

/-- What stands against an arrangement are errors, and there are some. -/
theorem isError_of_arrange {own : List Diagnostic} (h : c.arrange catalog = .ok (.error own)) :
    own ≠ [] ∧ ∀ d ∈ own, d.isError = true := by
  obtain ⟨ks, fs, g, -, -, ⟨hsome, hr⟩ | ⟨-, hsome, hr⟩ | ⟨-, -, sections, hr, -⟩⟩ :=
    arrange_cases h
  · obtain rfl := Except.error.inj hr
    refine ⟨fun hnil => hsome (List.map_eq_nil_iff.mp hnil), fun d hd => ?_⟩
    obtain ⟨members, -, rfl⟩ := List.mem_map.mp hd
    rfl
  · obtain rfl := Except.error.inj hr
    refine ⟨hsome, fun d hd => ?_⟩
    obtain ⟨p, -, hp⟩ := List.mem_filterMap.mp hd
    exact (code_conflictFinding? hp).2
  · cases hr

/-- **What the order adds to the findings so far.** -/
theorem resolve_eq_ok {soFar ds : List Diagnostic} {sections : Option Arrangement}
    (h : c.resolve catalog soFar = .ok (sections, ds)) :
    ∃ own, ds = soFar ++ own ∧ (∀ d ∈ own, d.isError = true) ∧ (own ≠ [] ↔ sections = none) := by
  rw [resolve_eq] at h
  cases hr : c.arrange catalog with
  | error e => rw [hr] at h; cases h
  | ok verdict =>
    rw [hr] at h
    cases verdict with
    | error own =>
      obtain ⟨rfl, rfl⟩ := Prod.mk.inj (Except.ok.inj h)
      obtain ⟨hsome, herror⟩ := isError_of_arrange hr
      exact ⟨own, rfl, herror, iff_of_true hsome rfl⟩
    | ok a =>
      obtain ⟨rfl, rfl⟩ := Prod.mk.inj (Except.ok.inj h)
      exact ⟨[], (List.append_nil _).symm, by simp, by simp⟩

/-- **The check and the order break down alike**: if some instance that is the
first with its id names a template that the catalog lacks, and then at the
earliest of these. Otherwise the order comes to an end, and its own findings
are errors that say why there is no arrangement. -/
theorem validate_agrees_with_resolve (c : Canvas) (catalog : Catalog) (soFar : List Diagnostic) :
    ((∃ e, c.validate catalog = .error e) ↔
      ∃ i ∈ c.instances, c.instance? i.id = some i ∧ catalog.template? i.template = none) ∧
    (∀ e, c.validate catalog = .error e ↔ c.FirstUnknown catalog e) ∧
    (∀ e, c.resolve catalog soFar = .error e ↔ c.FirstUnknown catalog e) ∧
    ((∃ e, c.FirstUnknown catalog e) ∨
      ∃ sections own, c.resolve catalog soFar = .ok (sections, soFar ++ own) ∧
        (∀ d ∈ own, d.isError = true) ∧ (own ≠ [] ↔ sections = none)) := by
  refine ⟨?_, fun e => validate_eq_error_iff, fun e => resolve_eq_error_iff, ?_⟩
  · rw [← exists_firstUnknown_iff]
    exact exists_congr fun e => validate_eq_error_iff
  · cases hr : c.resolve catalog soFar with
    | error e => exact .inl ⟨e, resolve_eq_error_iff.mp hr⟩
    | ok r =>
      obtain ⟨own, hds, herror, hnone⟩ := resolve_eq_ok hr
      exact .inr ⟨r.1, own, by rw [← hds], herror, hnone⟩

/-- Two templates that are missing, and one of an id that was seen. -/
def gaps : Canvas where
  instances := [⟨"f", "function", [("name", .string "first")]⟩, ⟨"f", "lost", []⟩,
    ⟨"g", "gone", []⟩, ⟨"h", "lost", []⟩]

example : gaps.validate .sample = .error ⟨"g", .unknownTemplate "gone"⟩ ∧
    gaps.resolve .sample [] = .error ⟨"g", .unknownTemplate "gone"⟩ := ⟨rfl, rfl⟩

end Canvas

end SolidityCanvas
