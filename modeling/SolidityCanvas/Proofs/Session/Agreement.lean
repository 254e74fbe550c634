/-
Sessions that many clients work on at once.

A client has a session and a version.  It begins, and if it may go on it
completes with some result; in between, any number of other clients take their
steps (`SessionStore.Step`).  Whatever the order of the steps:

* the version of the latest result never goes back (`Step.latest?_mono`);
* a result is accepted exactly when nothing newer has begun
  (`complete_eq_true_iff`);
* when nobody is at work any more, the latest result is one of the greatest
  version begun (`Consistent.latest?_eq_some`).

The invariant behind this is `SessionStore.Consistent`.
-/
import Mathlib.Data.UInt
import Mathlib.Logic.Function.Basic
import Mathlib.Logic.Relation
import SolidityCanvas.Proofs.Basic
import SolidityCanvas.Session

namespace SolidityCanvas

namespace SessionStore

open Relation

variable {α : Type} {store : SessionStore α} {session : String} {version : UInt64}

/-! ### Operations -/

@[simp] theorem get_empty (session : String) : (empty : SessionStore α).get session = {} := rfl

@[simp] theorem get_set_self (store : SessionStore α) (session : String) (s : Session α) :
    (store.set session s).get session = s := by
  simp [get, set]

theorem get_set_of_ne {other : String} (h : other ≠ session) (s : Session α) :
    (store.set session s).get other = store.get other := by
  rw [get, get, set, List.lookup_cons, beq_eq_false_iff_ne.mpr h]
  exact congrArg (·.getD {}) (lookup_filter_of_ne h store.sessions)

/-- What beginning a version can do. -/
theorem begin_cases (store : SessionStore α) (session : String) (version : UInt64) :
    ((∃ newest, (store.get session).newest = some newest ∧ version < newest) ∧
        store.begin session version = (false, store)) ∨
      ((∀ newest, (store.get session).newest = some newest → newest ≤ version) ∧
        store.begin session version =
          (true, store.set session { store.get session with newest := some version })) := by
  rw [begin]
  cases hn : (store.get session).newest with
  | none => exact Or.inr ⟨fun _ h => absurd h (by simp), rfl⟩
  | some newest =>
    by_cases hlt : version < newest
    · exact Or.inl ⟨⟨newest, rfl, hlt⟩, if_pos hlt⟩
    · refine Or.inr ⟨fun n h => ?_, if_neg hlt⟩
      rw [← Option.some.inj h]
      exact UInt64.not_lt.mp hlt

/-- What completing a version can do. -/
theorem complete_cases (store : SessionStore α) (session : String) (version : UInt64)
    (result : α) :
    (((∃ newest, (store.get session).newest = some newest ∧ version < newest) ∨
          ∃ v r, store.latest? session = some (v, r) ∧ version < v) ∧
        store.complete session version result = (false, store)) ∨
      ((∀ newest, (store.get session).newest = some newest → newest ≤ version) ∧
        store.complete session version result = (true,
          store.set session { store.get session with result := some (version, result) })) := by
  rw [complete]
  dsimp only
  split
  · rename_i hnewer
    refine Or.inl ⟨?_, rfl⟩
    rw [Bool.or_eq_true, Option.any_eq_true, Option.any_eq_true] at hnewer
    rcases hnewer with ⟨newest, hnewest, hlt⟩ | ⟨⟨v, r⟩, hresult, hlt⟩
    · exact Or.inl ⟨newest, hnewest, of_decide_eq_true hlt⟩
    · exact Or.inr ⟨v, r, hresult, of_decide_eq_true hlt⟩
  · rename_i hnewer
    refine Or.inr ⟨fun newest hnewest => ?_, rfl⟩
    rw [Bool.or_eq_true, not_or, Option.any_eq_true] at hnewer
    exact UInt64.not_lt.mp fun hlt => hnewer.1 ⟨newest, hnewest, decide_eq_true hlt⟩

/-! ### Clients -/

/-- What a client works on. -/
structure Task where
  session : String
  version : UInt64

/-- How far a client is. -/
inductive Phase (α : Type)
  | waiting
  | running
  | refused
  | done (result : α) (accepted : Bool)

/-- A client was allowed to begin. -/
def Phase.Begun : Phase α → Prop
  | waiting | refused => False
  | running | done _ _ => True

/-- The store, and how far each client is. -/
structure World (ι α : Type) where
  store : SessionStore α
  phase : ι → Phase α

variable {ι : Type} {task : ι → Task} {w w' : World ι α}

/-- Nobody has done anything. -/
def World.start : World ι α := ⟨empty, fun _ => .waiting⟩

/-- What holds of the store and the clients at all times. -/
structure Consistent (task : ι → Task) (w : World ι α) : Prop where
  /-- No version begun is newer than the newest. -/
  le_newest : ∀ i, (w.phase i).Begun → ∃ newest,
    (w.store.get (task i).session).newest = some newest ∧ (task i).version ≤ newest
  /-- The newest version was begun. -/
  newest_begun : ∀ session newest, (w.store.get session).newest = some newest →
    ∃ i, (w.phase i).Begun ∧ task i = ⟨session, newest⟩
  /-- The latest result is that of a client that completed. -/
  latest_done : ∀ session version result, w.store.latest? session = some (version, result) →
    ∃ i, w.phase i = .done result true ∧ task i = ⟨session, version⟩
  /-- Once a client has completed the newest version, the latest result is of
  that version. -/
  newest_done : ∀ i result accepted, w.phase i = .done result accepted →
    (w.store.get (task i).session).newest = some (task i).version →
    ∃ latest, w.store.latest? (task i).session = some ((task i).version, latest)

theorem consistent_start : Consistent task (World.start : World ι α) := by
  refine ⟨fun i hi => hi.elim, fun _ _ h => ?_, fun _ _ _ h => ?_, fun _ _ _ h => ?_⟩
  · exact absurd h (by simp [World.start])
  · exact absurd h (by simp [World.start, latest?])
  · exact absurd h (by simp [World.start])

/-- The latest result is not newer than the newest version. -/
theorem Consistent.latest_le (hw : Consistent task w) {session : String} {version : UInt64}
    {result : α} (h : w.store.latest? session = some (version, result)) :
    ∃ newest, (w.store.get session).newest = some newest ∧ version ≤ newest := by
  obtain ⟨i, hi, htask⟩ := hw.latest_done session version result h
  have hle := hw.le_newest i (by rw [hi]; trivial)
  rwa [htask] at hle

/-- A result that is discarded is not of the newest version. -/
theorem Consistent.lt_newest (hw : Consistent task w) {session : String} {version : UInt64}
    (h : (∃ newest, (w.store.get session).newest = some newest ∧ version < newest) ∨
      ∃ v r, w.store.latest? session = some (v, r) ∧ version < v) :
    ∃ newest, (w.store.get session).newest = some newest ∧ version < newest := by
  rcases h with h | ⟨v, r, hlatest, hlt⟩
  · exact h
  · obtain ⟨newest, hn, hle⟩ := hw.latest_le hlatest
    exact ⟨newest, hn, UInt64.lt_of_lt_of_le hlt hle⟩

theorem ne_of_done {phase : ι → Phase α} {i j : ι} (hi : phase i = .running) {result : α}
    {accepted : Bool} (hj : phase j = .done result accepted) : j ≠ i := by
  rintro rfl
  exact absurd (hi.symm.trans hj) (by simp)

/-! ### One step -/

variable [DecidableEq ι]

namespace World

/-- The world after a client has begun its task. -/
def afterBegin (w : World ι α) (i : ι) (t : Task) : World ι α :=
  let (accepted, store) := w.store.begin t.session t.version
  ⟨store, Function.update w.phase i (if accepted then .running else .refused)⟩

/-- The world after a client has completed its task. -/
def afterComplete (w : World ι α) (i : ι) (t : Task) (result : α) : World ι α :=
  let (accepted, store) := w.store.complete t.session t.version result
  ⟨store, Function.update w.phase i (.done result accepted)⟩

end World

/-- One step of one client: it begins, or it was allowed to and completes with
some result. -/
inductive Step (task : ι → Task) (w : World ι α) : World ι α → Prop
  | begins (i : ι) (h : w.phase i = .waiting) : Step task w (w.afterBegin i (task i))
  | completes (i : ι) (result : α) (h : w.phase i = .running) :
      Step task w (w.afterComplete i (task i) result)

/-- What a step can do: a client is refused, begins, has its result discarded
or has it accepted. -/
theorem Step.cases (h : Step task w w') : ∃ i,
    (w.phase i = .waiting ∧ w' = ⟨w.store, Function.update w.phase i .refused⟩) ∨
    (w.phase i = .waiting ∧
      (∀ newest, (w.store.get (task i).session).newest = some newest →
        newest ≤ (task i).version) ∧
      w' = ⟨w.store.set (task i).session
          { w.store.get (task i).session with newest := some (task i).version },
        Function.update w.phase i .running⟩) ∨
    (∃ result, w.phase i = .running ∧
      ((∃ newest, (w.store.get (task i).session).newest = some newest ∧
          (task i).version < newest) ∨
        ∃ v r, w.store.latest? (task i).session = some (v, r) ∧ (task i).version < v) ∧
      w' = ⟨w.store, Function.update w.phase i (.done result false)⟩) ∨
    (∃ result, w.phase i = .running ∧
      (∀ newest, (w.store.get (task i).session).newest = some newest →
        newest ≤ (task i).version) ∧
      w' = ⟨w.store.set (task i).session
          { w.store.get (task i).session with result := some ((task i).version, result) },
        Function.update w.phase i (.done result true)⟩) := by
  cases h with
  | begins i hi =>
    refine ⟨i, ?_⟩
    rcases begin_cases w.store (task i).session (task i).version with ⟨_, heq⟩ | ⟨hle, heq⟩
    · exact Or.inl ⟨hi, by simp [World.afterBegin, heq]⟩
    · exact Or.inr (Or.inl ⟨hi, hle, by simp [World.afterBegin, heq]⟩)
  | completes i result hi =>
    refine ⟨i, ?_⟩
    rcases complete_cases w.store (task i).session (task i).version result with
      ⟨hnewer, heq⟩ | ⟨hle, heq⟩
    · exact Or.inr (Or.inr (Or.inl ⟨result, hi, hnewer, by simp [World.afterComplete, heq]⟩))
    · exact Or.inr (Or.inr (Or.inr ⟨result, hi, hle, by simp [World.afterComplete, heq]⟩))

theorem begun_update (phase : ι → Phase α) (i : ι) (p : Phase α)
    (h : p.Begun ↔ (phase i).Begun) (j : ι) :
    (Function.update phase i p j).Begun ↔ (phase j).Begun := by
  by_cases hij : j = i
  · rw [hij, Function.update_self, h]
  · rw [Function.update_of_ne hij]

theorem update_eq_done (phase : ι → Phase α) (i : ι) (p : Phase α)
    (hi : ∀ result accepted, phase i ≠ .done result accepted)
    (hp : ∀ result accepted, p ≠ .done result accepted) (j : ι) (result : α) (accepted : Bool) :
    Function.update phase i p j = .done result accepted ↔ phase j = .done result accepted := by
  by_cases hij : j = i
  · rw [hij, Function.update_self]
    exact iff_of_false (hp _ _) (hi _ _)
  · rw [Function.update_of_ne hij]

/-- A client that is refused changes nothing. -/
theorem Consistent.refuse (hw : Consistent task w) {i : ι} (hi : w.phase i = .waiting) :
    Consistent task ⟨w.store, Function.update w.phase i .refused⟩ := by
  have hbegun := begun_update w.phase i .refused (by simp [hi, Phase.Begun])
  have hdone := update_eq_done w.phase i .refused (by simp [hi]) (by simp)
  refine ⟨?_, ?_, ?_, ?_⟩
  · simpa only [hbegun] using hw.le_newest
  · simpa only [hbegun] using hw.newest_begun
  · simpa only [hdone] using hw.latest_done
  · simpa only [hdone] using hw.newest_done

/-- A client that begins has the newest version. -/
theorem Consistent.run (hw : Consistent task w) {i : ι} (hi : w.phase i = .waiting)
    (hle : ∀ newest, (w.store.get (task i).session).newest = some newest →
      newest ≤ (task i).version) :
    Consistent task ⟨w.store.set (task i).session
        { w.store.get (task i).session with newest := some (task i).version },
      Function.update w.phase i .running⟩ := by
  have hdone := update_eq_done w.phase i .running (by simp [hi]) (by simp)
  have hlatest : ∀ session, (w.store.set (task i).session
      { w.store.get (task i).session with newest := some (task i).version }).latest? session =
        w.store.latest? session := by
    intro session
    by_cases hs : session = (task i).session
    · rw [hs, latest?, get_set_self, latest?]
    · rw [latest?, get_set_of_ne hs, latest?]
  refine ⟨fun j hj => ?_, fun session newest hn => ?_, ?_, fun j result accepted hj hn => ?_⟩
  · dsimp only at hj ⊢
    by_cases hij : j = i
    · subst hij
      exact ⟨_, by rw [get_set_self], UInt64.le_refl _⟩
    · rw [Function.update_of_ne hij] at hj
      obtain ⟨newest, hn, hjn⟩ := hw.le_newest j hj
      by_cases hs : (task j).session = (task i).session
      · rw [hs] at hn ⊢
        exact ⟨_, by rw [get_set_self], UInt64.le_trans hjn (hle newest hn)⟩
      · exact ⟨newest, by rw [get_set_of_ne hs, hn], hjn⟩
  · dsimp only at hn ⊢
    by_cases hs : session = (task i).session
    · rw [hs, get_set_self] at hn
      obtain rfl := Option.some.inj hn
      exact ⟨i, by rw [Function.update_self]; trivial, by rw [hs]⟩
    · rw [get_set_of_ne hs] at hn
      obtain ⟨j, hj, htask⟩ := hw.newest_begun session newest hn
      refine ⟨j, ?_, htask⟩
      -- The client that begins now had not begun before.
      rw [Function.update_of_ne (by rintro rfl; simp [hi, Phase.Begun] at hj)]
      exact hj
  · simpa only [hdone, hlatest] using hw.latest_done
  · dsimp only at hj hn ⊢
    rw [hdone] at hj
    rw [hlatest]
    refine hw.newest_done j result accepted hj ?_
    by_cases hs : (task j).session = (task i).session
    · -- The version of the client was the newest before as well.
      obtain ⟨newest, hold, hjn⟩ := hw.le_newest j (by rw [hj]; trivial)
      rw [hs, get_set_self] at hn
      rw [hs] at hold ⊢
      rw [hold, UInt64.le_antisymm (Option.some.inj hn ▸ hle newest hold) hjn]
    · rwa [get_set_of_ne hs] at hn

/-- A client whose result is discarded changes nothing. -/
theorem Consistent.discard (hw : Consistent task w) {i : ι} (hi : w.phase i = .running)
    (hnewer : ∃ newest, (w.store.get (task i).session).newest = some newest ∧
      (task i).version < newest) (result : α) :
    Consistent task ⟨w.store, Function.update w.phase i (.done result false)⟩ := by
  have hbegun := begun_update w.phase i (.done result false) (by simp [hi, Phase.Begun])
  refine ⟨?_, ?_, fun session version r h => ?_, fun j r accepted hj hn => ?_⟩
  · simpa only [hbegun] using hw.le_newest
  · simpa only [hbegun] using hw.newest_begun
  · obtain ⟨j, hj, htask⟩ := hw.latest_done session version r h
    exact ⟨j, (Function.update_of_ne (ne_of_done hi hj) ..).trans hj, htask⟩
  · dsimp only at hj hn
    by_cases hij : j = i
    · obtain ⟨newest, hnewest, hlt⟩ := hnewer
      rw [hij, hnewest, Option.some_inj] at hn
      -- A result that is discarded is not of the newest version.
      exact absurd hlt (by rw [hn]; exact UInt64.lt_irrefl _)
    · rw [Function.update_of_ne hij] at hj
      exact hw.newest_done j r accepted hj hn

/-- A client whose result is accepted has the latest one. -/
theorem Consistent.accept (hw : Consistent task w) {i : ι} (hi : w.phase i = .running)
    (hle : ∀ newest, (w.store.get (task i).session).newest = some newest →
      newest ≤ (task i).version) (result : α) :
    Consistent task ⟨w.store.set (task i).session
        { w.store.get (task i).session with result := some ((task i).version, result) },
      Function.update w.phase i (.done result true)⟩ := by
  have hbegun := begun_update w.phase i (.done result true) (by simp [hi, Phase.Begun])
  have hnewest : ∀ session, ((w.store.set (task i).session
      { w.store.get (task i).session with
        result := some ((task i).version, result) }).get session).newest =
        (w.store.get session).newest := by
    intro session
    by_cases hs : session = (task i).session
    · rw [hs, get_set_self]
    · rw [get_set_of_ne hs]
  refine ⟨?_, ?_, fun session version r h => ?_, fun j r accepted hj hn => ?_⟩
  · simpa only [hbegun, hnewest] using hw.le_newest
  · simpa only [hbegun, hnewest] using hw.newest_begun
  · dsimp only at h ⊢
    by_cases hs : session = (task i).session
    · rw [hs, latest?, get_set_self, Option.some_inj, Prod.mk.injEq] at h
      obtain ⟨rfl, rfl⟩ := h
      exact ⟨i, Function.update_self .., by rw [hs]⟩
    · rw [latest?, get_set_of_ne hs] at h
      obtain ⟨j, hj, htask⟩ := hw.latest_done session version r h
      exact ⟨j, (Function.update_of_ne (ne_of_done hi hj) ..).trans hj, htask⟩
  · dsimp only at hj hn ⊢
    rw [hnewest] at hn
    by_cases hs : (task j).session = (task i).session
    · -- Both clients have the newest version.
      obtain ⟨newest, hnew, hin⟩ := hw.le_newest i (by rw [hi]; trivial)
      have heq := UInt64.le_antisymm hin (hle newest hnew)
      rw [hs, hnew, Option.some_inj] at hn
      exact ⟨result, by rw [hs, latest?, get_set_self, heq, hn]⟩
    · rw [latest?, get_set_of_ne hs]
      have hij : j ≠ i := fun h => hs (by rw [h])
      rw [Function.update_of_ne hij] at hj
      exact hw.newest_done j r accepted hj hn

/-- **Every step keeps the store and the clients consistent.** -/
theorem Consistent.step (hw : Consistent task w) (h : Step task w w') : Consistent task w' := by
  obtain ⟨i, ⟨hi, rfl⟩ | ⟨hi, hle, rfl⟩ | ⟨r, hi, hnewer, rfl⟩ | ⟨r, hi, hle, rfl⟩⟩ := h.cases
  · exact hw.refuse hi
  · exact hw.run hi hle
  · exact hw.discard hi (hw.lt_newest hnewer) r
  · exact hw.accept hi hle r

/-- Every run keeps the store and the clients consistent. -/
theorem consistent_of_run (h : ReflTransGen (Step task) World.start w) : Consistent task w := by
  induction h with
  | refl => exact consistent_start
  | tail _ hstep ih => exact ih.step hstep

/-! ### What clients see -/

/-- The version of the latest result does not go back. -/
theorem Step.latest?_mono (hw : Consistent task w) (h : Step task w w') {session : String}
    {version : UInt64} {result : α} (hlatest : w.store.latest? session = some (version, result)) :
    ∃ v r, w'.store.latest? session = some (v, r) ∧ version ≤ v := by
  obtain ⟨i, ⟨_, rfl⟩ | ⟨_, _, rfl⟩ | ⟨_, _, _, rfl⟩ | ⟨r, _, hle, rfl⟩⟩ := h.cases
  · exact ⟨version, result, hlatest, UInt64.le_refl _⟩
  · refine ⟨version, result, ?_, UInt64.le_refl _⟩
    by_cases hs : session = (task i).session
    · rw [← hlatest, hs, latest?, get_set_self, latest?]
    · rw [← hlatest, latest?, get_set_of_ne hs, latest?]
  · exact ⟨version, result, hlatest, UInt64.le_refl _⟩
  · by_cases hs : session = (task i).session
    · obtain ⟨newest, hn, hvn⟩ := hw.latest_le hlatest
      refine ⟨(task i).version, r, by rw [hs, latest?, get_set_self], ?_⟩
      exact UInt64.le_trans hvn (hle newest (hs ▸ hn))
    · refine ⟨version, result, ?_, UInt64.le_refl _⟩
      rw [← hlatest, latest?, get_set_of_ne hs, latest?]

theorem latest?_mono_of_run (hw : Consistent task w) (h : ReflTransGen (Step task) w w')
    {session : String} {version : UInt64} {result : α}
    (hlatest : w.store.latest? session = some (version, result)) :
    Consistent task w' ∧ ∃ v r, w'.store.latest? session = some (v, r) ∧ version ≤ v := by
  induction h with
  | refl => exact ⟨hw, version, result, hlatest, UInt64.le_refl _⟩
  | tail _ hstep ih =>
    obtain ⟨hb, v, r, hv, hle⟩ := ih
    obtain ⟨v', r', hv', hle'⟩ := hstep.latest?_mono hb hv
    exact ⟨hb.step hstep, v', r', hv', UInt64.le_trans hle hle'⟩

omit [DecidableEq ι] in
/-- A result is accepted exactly when nothing newer has begun. -/
theorem Consistent.complete_eq_true_iff (hw : Consistent task w) (session : String)
    (version : UInt64) (result : α) :
    (w.store.complete session version result).1 = true ↔
      ∀ j, (w.phase j).Begun → (task j).session = session → (task j).version ≤ version := by
  rcases complete_cases w.store session version result with ⟨hnewer, heq⟩ | ⟨hle, heq⟩
  · obtain ⟨newest, hn, hlt⟩ := hw.lt_newest hnewer
    -- Something newer stands in the way, and it was begun by somebody.
    obtain ⟨j, hj, htask⟩ := hw.newest_begun session newest hn
    rw [heq]
    refine iff_of_false (by simp) fun hall => ?_
    have hj := hall j hj (by rw [htask])
    rw [htask] at hj
    exact absurd hlt (UInt64.not_lt.mpr hj)
  · rw [heq]
    refine iff_of_true rfl fun j hj hs => ?_
    obtain ⟨newest, hn, hjn⟩ := hw.le_newest j hj
    exact UInt64.le_trans hjn (hle newest (hs ▸ hn))

theorem latest?_of_complete {result : α}
    (h : (store.complete session version result).1 = true) :
    (store.complete session version result).2.latest? session = some (version, result) := by
  rcases complete_cases store session version result with ⟨_, heq⟩ | ⟨_, heq⟩
  · rw [heq] at h
    cases h
  · rw [heq, latest?, get_set_self]

theorem get_begin_of_ne {other : String} (h : other ≠ session) :
    (store.begin session version).2.get other = store.get other := by
  rcases begin_cases store session version with ⟨_, heq⟩ | ⟨_, heq⟩
  · rw [heq]
  · rw [heq, get_set_of_ne h]

theorem get_complete_of_ne {other : String} (h : other ≠ session) {result : α} :
    (store.complete session version result).2.get other = store.get other := by
  rcases complete_cases store session version result with ⟨_, heq⟩ | ⟨_, heq⟩
  · rw [heq]
  · rw [heq, get_set_of_ne h]

omit [DecidableEq ι] in
/-- When nobody works on a session any more, its latest result is one of the
greatest version begun. -/
theorem Consistent.latest?_eq_some (hw : Consistent task w) {session : String}
    (hidle : ∀ i, (task i).session = session → w.phase i ≠ .running) {i : ι}
    (hi : (w.phase i).Begun) (hs : (task i).session = session) :
    ∃ j result, w.phase j = .done result true ∧ (task j).session = session ∧
      w.store.latest? session = some ((task j).version, result) ∧
      ∀ k, (w.phase k).Begun → (task k).session = session →
        (task k).version ≤ (task j).version := by
  obtain ⟨newest, hn, _⟩ := hw.le_newest i hi
  rw [hs] at hn
  -- The client with the newest version has begun, and so it is done.
  obtain ⟨m, hm, hmtask⟩ := hw.newest_begun session newest hn
  obtain ⟨r, accepted, hmdone⟩ : ∃ r accepted, w.phase m = .done r accepted := by
    cases hphase : w.phase m with
    | waiting => exact absurd hm (by rw [hphase]; exact id)
    | running => exact absurd hphase (hidle m (by rw [hmtask]))
    | refused => exact absurd hm (by rw [hphase]; exact id)
    | done r accepted => exact ⟨r, accepted, rfl⟩
  obtain ⟨result, hlatest⟩ := hw.newest_done m r accepted hmdone (by rw [hmtask, hn])
  rw [hmtask] at hlatest
  -- The latest result may be that of another client with the same version.
  obtain ⟨j, hj, hjtask⟩ := hw.latest_done session newest result hlatest
  refine ⟨j, result, hj, by rw [hjtask], by rw [hjtask, hlatest], fun k hk hks => ?_⟩
  obtain ⟨newest', hn', hle⟩ := hw.le_newest k hk
  rw [hks, hn, Option.some_inj] at hn'
  rw [hjtask, hn']
  exact hle

/-- **Whatever the order of the steps, clients agree on each session.**  At
every point of a run: the version of the latest result never goes back from
there on; a result is accepted exactly when nothing newer has begun, and is
then the latest; what clients of other sessions do changes nothing; and when
nobody works on a session any more, its latest result is one of the greatest
version begun. -/
theorem sessions_agree (h : ReflTransGen (Step task) World.start w) :
    (∀ w', ReflTransGen (Step task) w w' → ∀ session version result,
        w.store.latest? session = some (version, result) →
        ∃ v r, w'.store.latest? session = some (v, r) ∧ version ≤ v) ∧
      (∀ i result, w.phase i = .running →
        ((w.store.complete (task i).session (task i).version result).1 = true ↔
          ∀ j, (w.phase j).Begun → (task j).session = (task i).session →
            (task j).version ≤ (task i).version) ∧
        ((w.store.complete (task i).session (task i).version result).1 = true →
          (w.afterComplete i (task i) result).store.latest? (task i).session =
            some ((task i).version, result))) ∧
      (∀ i result session, session ≠ (task i).session →
        (w.afterBegin i (task i)).store.get session = w.store.get session ∧
          (w.afterComplete i (task i) result).store.get session = w.store.get session) ∧
      ∀ session, (∀ i, (task i).session = session → w.phase i ≠ .running) →
        ∀ i, (w.phase i).Begun → (task i).session = session →
        ∃ j result, w.phase j = .done result true ∧ (task j).session = session ∧
          w.store.latest? session = some ((task j).version, result) ∧
          ∀ k, (w.phase k).Begun → (task k).session = session →
            (task k).version ≤ (task j).version := by
  have hw := consistent_of_run h
  refine ⟨fun w' hrun session version result hlatest => ?_, fun i result _ => ?_,
    fun i result session hs => ?_, fun session hidle i hi hs => ?_⟩
  · exact (latest?_mono_of_run hw hrun hlatest).2
  · exact ⟨hw.complete_eq_true_iff _ _ _, latest?_of_complete⟩
  · exact ⟨get_begin_of_ne hs, get_complete_of_ne hs⟩
  · exact hw.latest?_eq_some hidle hi hs

/-- Two clients send an older and a newer version of one session. -/
def sampleTask (newer : Bool) : Task := ⟨"s", if newer then 2 else 1⟩

/-- The newer version is begun while the older is compiled; both complete. -/
def sampleWorld : World Bool String :=
  (((World.start.afterBegin false (sampleTask false)).afterBegin true
    (sampleTask true)).afterComplete false (sampleTask false) "old").afterComplete true
    (sampleTask true) "new"

theorem sampleWorld_agrees : ReflTransGen (Step sampleTask) World.start sampleWorld ∧
    sampleWorld.phase false = .done "old" false ∧
    ∃ j result, sampleWorld.phase j = .done result true ∧ (sampleTask j).session = "s" ∧
      sampleWorld.store.latest? "s" = some ((sampleTask j).version, result) ∧
      ∀ k, (sampleWorld.phase k).Begun → (sampleTask k).session = "s" →
        (sampleTask k).version ≤ (sampleTask j).version := by
  have hrun : ReflTransGen (Step sampleTask) World.start sampleWorld :=
    .tail (.tail (.tail (.tail .refl (.begins false rfl)) (.begins true rfl))
      (.completes false "old" rfl)) (.completes true "new" rfl)
  refine ⟨hrun, rfl, (sessions_agree hrun).2.2.2 "s" (fun i _ => ?_) true trivial rfl⟩
  cases i <;> exact nofun

end SessionStore

end SolidityCanvas
