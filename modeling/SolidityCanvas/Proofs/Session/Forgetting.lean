/-
Sessions that are forgotten.

The calls of any number of clients reach the store one after another: they
begin and complete versions, ask for the latest result and forget sessions
(`SessionStore.Call`).  A client only completes what it was allowed to begin
(`SessionStore.Run`).  A store that has forgotten a session knows what was
called since, but not that older work is still under way:

* `allows_after`: which versions a session still allows, by the calls since it
  was forgotten;
* `complete_since_forgotten`: a result is accepted exactly if nothing newer was
  begun or completed since; if nothing was completed that was begun before,
  exactly if nothing newer was begun;
* `stale_is_accepted`: what was begun before may be accepted, and then stands in
  the way of what was begun since.

Histories list the last call first.
-/
import Mathlib.Data.List.TakeWhile
import SolidityCanvas.Proofs.Session.Agreement

namespace SolidityCanvas

variable {ι α : Type}

/-- Nothing newer than the version is known. -/
def Session.Allows (s : Session α) (version : UInt64) : Prop :=
  (∀ newest ∈ s.newest, newest ≤ version) ∧ ∀ x ∈ s.result, x.1 ≤ version

namespace SessionStore

variable {store : SessionStore α} {session : String} {version : UInt64} {result : α}

/-! ### One call -/

theorem complete_eq_true_iff : (store.complete session version result).1 = true ↔
    (store.get session).Allows version := by
  rw [complete]
  split
  · rename_i hnewer
    refine iff_of_false (by simp) ?_
    rintro ⟨hnewest, hresult⟩
    rw [Bool.or_eq_true, Option.any_eq_true, Option.any_eq_true] at hnewer
    rcases hnewer with ⟨newest, h, hlt⟩ | ⟨x, h, hlt⟩
    · exact absurd (of_decide_eq_true hlt) (UInt64.not_lt.mpr (hnewest newest h))
    · exact absurd (of_decide_eq_true hlt) (UInt64.not_lt.mpr (hresult x h))
  · rename_i hnewer
    rw [Bool.or_eq_true, not_or, Option.any_eq_true, Option.any_eq_true] at hnewer
    refine iff_of_true rfl ⟨fun newest h => UInt64.not_lt.mp fun hlt => ?_,
      fun x h => UInt64.not_lt.mp fun hlt => ?_⟩
    · exact hnewer.1 ⟨newest, h, decide_eq_true hlt⟩
    · exact hnewer.2 ⟨x, h, decide_eq_true hlt⟩

/-- A version that begins is known, and so is a newer one that stands in its
way. -/
theorem allows_begin {v : UInt64} : ((store.begin session v).2.get session).Allows version ↔
    (store.get session).Allows version ∧ v ≤ version := by
  rcases begin_cases store session v with ⟨⟨newest, hnewest, hlt⟩, heq⟩ | ⟨hle, heq⟩
  · rw [heq]
    refine ⟨fun h => ⟨h, ?_⟩, And.left⟩
    exact UInt64.le_trans (UInt64.le_of_lt hlt) (h.1 newest hnewest)
  · rw [heq, get_set_self]
    constructor
    · rintro ⟨hnewest, hresult⟩
      have hv := hnewest v rfl
      exact ⟨⟨fun newest h => UInt64.le_trans (hle newest h) hv, hresult⟩, hv⟩
    · rintro ⟨⟨-, hresult⟩, hv⟩
      exact ⟨fun _ h => Option.some.inj h ▸ hv, hresult⟩

/-- A version that completes is known, and so is a newer one that stands in its
way. -/
theorem allows_complete {v : UInt64} :
    ((store.complete session v result).2.get session).Allows version ↔
      (store.get session).Allows version ∧ v ≤ version := by
  rcases complete_cases store session v result with ⟨hnewer, heq⟩ | ⟨-, heq⟩
  · rw [heq]
    refine ⟨fun h => ⟨h, ?_⟩, And.left⟩
    rcases hnewer with ⟨newest, hnewest, hlt⟩ | ⟨w, r, hlatest, hlt⟩
    · exact UInt64.le_trans (UInt64.le_of_lt hlt) (h.1 newest hnewest)
    · exact UInt64.le_trans (UInt64.le_of_lt hlt) (h.2 (w, r) hlatest)
  · have hallows : (store.get session).Allows v := complete_eq_true_iff.mp (congrArg Prod.fst heq)
    rw [heq, get_set_self]
    constructor
    · rintro ⟨hnewest, hresult⟩
      have hv := hresult (v, result) rfl
      exact ⟨⟨hnewest, fun x h => UInt64.le_trans (hallows.2 x h) hv⟩, hv⟩
    · rintro ⟨⟨hnewest, -⟩, hv⟩
      exact ⟨hnewest, fun _ h => Option.some.inj h ▸ hv⟩

/-- What a client asks of the store. -/
inductive Call (α : Type)
  | begin (session : String) (version : UInt64)
  | complete (session : String) (version : UInt64) (result : α)
  | latest (session : String)
  | forget (session : String)

namespace Call

/-- The store after a call. -/
def run (store : SessionStore α) : Call α → SessionStore α
  | begin session version => (store.begin session version).2
  | complete session version result => (store.complete session version result).2
  | latest _ => store
  | forget session => store.forget session

/-- Whether the call forgets the session. -/
def forgets (session : String) : Call α → Bool
  | forget s => s == session
  | _ => false

/-- The call begins or completes the version in the session. -/
inductive WorksOn (session : String) (version : UInt64) : Call α → Prop
  | begins : WorksOn session version (.begin session version)
  | completes (result : α) : WorksOn session version (.complete session version result)

/-- **What a call changes**, unless it forgets: the session allows what it
allowed before and what is not older than the version that the call works on. -/
theorem allows_run {c : Call α} (hc : c.forgets session = false) :
    ((c.run store).get session).Allows version ↔
      (store.get session).Allows version ∧ ∀ v, c.WorksOn session v → v ≤ version := by
  cases c with
  | begin s v =>
    by_cases hs : session = s
    · subst hs
      rw [run, allows_begin]
      exact and_congr_right' ⟨fun h _ hw => by cases hw; exact h, fun h => h v .begins⟩
    · rw [run, get_begin_of_ne hs]
      exact (and_iff_left fun _ hw => absurd (by cases hw; rfl) hs).symm
  | complete s v r =>
    by_cases hs : session = s
    · subst hs
      rw [run, allows_complete]
      exact and_congr_right' ⟨fun h _ hw => by cases hw; exact h, fun h => h v (.completes r)⟩
    · rw [run, get_complete_of_ne hs]
      exact (and_iff_left fun _ hw => absurd (by cases hw; rfl) hs).symm
  | latest s => exact (and_iff_left fun _ hw => nomatch hw).symm
  | forget s =>
    have hs : session ≠ s := fun h => by simp [forgets, h] at hc
    rw [run, SessionStore.forget, get_set_of_ne hs]
    exact (and_iff_left fun _ hw => nomatch hw).symm

/-- A session that was just forgotten allows every version. -/
theorem allows_forgotten {c : Call α} (hc : c.forgets session = true) :
    ((c.run store).get session).Allows version := by
  cases c with
  | forget s =>
    obtain rfl := eq_of_beq hc
    rw [run, SessionStore.forget, get_set_self]
    exact ⟨nofun, nofun⟩
  | _ => cases hc

/-- Where the latest result comes from. -/
theorem latest?_run {c : Call α}
    (h : (c.run store).latest? session = some (version, result)) :
    c = .complete session version result ∨
      (c.forgets session = false ∧ store.latest? session = some (version, result)) := by
  cases c with
  | begin s v =>
    refine Or.inr ⟨rfl, ?_⟩
    rcases begin_cases store s v with ⟨-, heq⟩ | ⟨-, heq⟩
    · rwa [run, heq] at h
    · rw [run, heq, latest?] at h
      by_cases hs : session = s
      · subst hs
        rwa [get_set_self] at h
      · rwa [get_set_of_ne hs] at h
  | complete s v r =>
    rcases complete_cases store s v r with ⟨-, heq⟩ | ⟨-, heq⟩
    · rw [run, heq] at h
      exact Or.inr ⟨rfl, h⟩
    · rw [run, heq, latest?] at h
      by_cases hs : session = s
      · subst hs
        rw [get_set_self] at h
        cases h
        exact Or.inl rfl
      · rw [get_set_of_ne hs] at h
        exact Or.inr ⟨rfl, h⟩
  | latest s => exact Or.inr ⟨rfl, h⟩
  | forget s =>
    rw [run, SessionStore.forget, latest?] at h
    by_cases hs : session = s
    · subst hs
      rw [get_set_self] at h
      cases h
    · rw [get_set_of_ne hs] at h
      exact Or.inr ⟨beq_eq_false_iff_ne.mpr (Ne.symm hs), h⟩

end Call

/-! ### Histories -/

/-- The store after the calls of some clients. -/
def after : List (ι × Call α) → SessionStore α
  | [] => empty
  | (_, c) :: earlier => c.run (after earlier)

/-- The calls since a session was forgotten. -/
def since (session : String) (calls : List (ι × Call α)) : List (ι × Call α) :=
  calls.takeWhile fun c => !c.2.forgets session

theorem since_cons (session : String) (c : ι × Call α) (calls : List (ι × Call α)) :
    since session (c :: calls) = if c.2.forgets session then [] else c :: since session calls := by
  rw [since, List.takeWhile_cons]
  cases c.2.forgets session <;> rfl

theorem since_eq_self {calls : List (ι × Call α)}
    (h : ∀ c ∈ calls, c.2.forgets session = false) : since session calls = calls :=
  List.takeWhile_eq_self_iff.mpr fun c hc => by rw [h c hc]; rfl

/-- **Which versions a session allows**: those that are not older than one begun
or completed since it was forgotten. -/
theorem allows_after (calls : List (ι × Call α)) :
    ((after calls).get session).Allows version ↔
      ∀ c ∈ since session calls, ∀ v, c.2.WorksOn session v → v ≤ version := by
  induction calls with
  | nil => exact iff_of_true ⟨nofun, nofun⟩ nofun
  | cons c earlier ih =>
    rw [after, since_cons]
    by_cases hc : c.2.forgets session = true
    · rw [if_pos hc]
      exact iff_of_true (Call.allows_forgotten hc) nofun
    · rw [if_neg hc, Call.allows_run (Bool.eq_false_iff.mpr hc), ih, and_comm]
      exact (List.forall_mem_cons (p := fun c : ι × Call α =>
        ∀ v, c.2.WorksOn session v → v ≤ version)).symm

/-- The latest result was completed since the session was forgotten. -/
theorem exists_complete_of_latest? {calls : List (ι × Call α)}
    (h : (after calls).latest? session = some (version, result)) :
    ∃ i, (i, .complete session version result) ∈ since session calls := by
  induction calls with
  | nil => cases h
  | cons c earlier ih =>
    obtain ⟨i, c⟩ := c
    rw [since_cons]
    rcases Call.latest?_run h with rfl | ⟨hc, hlatest⟩
    · exact ⟨i, List.mem_cons_self⟩
    · obtain ⟨j, hj⟩ := ih hlatest
      rw [hc]
      exact ⟨j, List.mem_cons_of_mem _ hj⟩

/-- The client was allowed to begin the version. -/
def HasBegun (calls : List (ι × Call α)) (i : ι) (session : String) (version : UInt64) : Prop :=
  ∃ later earlier, calls = later ++ (i, .begin session version) :: earlier ∧
    ((after earlier).begin session version).1 = true

theorem HasBegun.mem {calls : List (ι × Call α)} {i : ι} (h : HasBegun calls i session version) :
    (i, .begin session version) ∈ calls := by
  obtain ⟨later, earlier, rfl, -⟩ := h
  exact List.mem_append_right _ List.mem_cons_self

/-- Calls of clients that complete what they were allowed to begin. -/
inductive Run : List (ι × Call α) → Prop
  | start : Run []
  | begins {calls} (h : Run calls) (i : ι) (session : String) (version : UInt64) :
      Run ((i, .begin session version) :: calls)
  | completes {calls i session version} (h : Run calls) (hi : HasBegun calls i session version)
      (result : α) : Run ((i, .complete session version result) :: calls)
  | asks {calls} (h : Run calls) (i : ι) (session : String) : Run ((i, .latest session) :: calls)
  | forgets {calls} (h : Run calls) (i : ι) (session : String) : Run ((i, .forget session) :: calls)

/-- What is completed was begun. -/
theorem Run.exists_begin {calls : List (ι × Call α)} (h : Run calls) {i : ι}
    (hmem : (i, .complete session version result) ∈ calls) :
    (i, .begin session version) ∈ calls := by
  induction h with
  | start => cases hmem
  | completes h hi r ih =>
    rcases List.mem_cons.mp hmem with heq | hmem
    · cases heq
      exact List.mem_cons_of_mem _ hi.mem
    · exact List.mem_cons_of_mem _ (ih hmem)
  | begins h i s v ih =>
    exact List.mem_cons_of_mem _ (ih ((List.mem_cons.mp hmem).resolve_left nofun))
  | asks h i s ih =>
    exact List.mem_cons_of_mem _ (ih ((List.mem_cons.mp hmem).resolve_left nofun))
  | forgets h i s ih =>
    exact List.mem_cons_of_mem _ (ih ((List.mem_cons.mp hmem).resolve_left nofun))

/-- The version is the newest one begun in the session since it was
forgotten. -/
def NewestSince (calls : List (ι × Call α)) (session : String) (version : UInt64) : Prop :=
  (∃ i, (i, .begin session version) ∈ since session calls) ∧
    ∀ i v, (i, .begin session v) ∈ since session calls → v ≤ version

/-- Without work from before, only what was begun stands in the way. -/
theorem allows_after_iff_newestSince {calls : List (ι × Call α)} {i : ι}
    (hsince : ∀ j v r, (j, .complete session v r) ∈ since session calls →
      (j, .begin session v) ∈ since session calls)
    (hi : (i, .begin session version) ∈ since session calls) :
    ((after calls).get session).Allows version ↔ NewestSince calls session version := by
  rw [allows_after]
  constructor
  · exact fun h => ⟨⟨i, hi⟩, fun j v hj => h _ hj v .begins⟩
  · rintro ⟨-, hnewest⟩ ⟨j, c⟩ hc v (_ | ⟨r⟩)
    · exact hnewest j v hc
    · exact hnewest j v (hsince j v r hc)

/-- **Results and forgotten sessions.**  Clients complete what they were allowed
to begin.  A result is accepted exactly if no newer version was begun or
completed since the session was forgotten.  If everything that was completed
since was begun since as well, it is accepted exactly if its version is the
newest one begun since; so it is if the session was never forgotten.  The latest
result was completed since. -/
theorem complete_since_forgotten {calls : List (ι × Call α)} (hrun : Run calls) {i : ι}
    (hi : HasBegun calls i session version) (result : α) :
    (((after calls).complete session version result).1 = true ↔
      ∀ c ∈ since session calls, ∀ v, c.2.WorksOn session v → v ≤ version) ∧
    ((∀ j v r, (j, .complete session v r) ∈ since session calls →
        (j, .begin session v) ∈ since session calls) →
      (i, .begin session version) ∈ since session calls →
      (((after calls).complete session version result).1 = true ↔
        NewestSince calls session version)) ∧
    ((∀ c ∈ calls, c.2.forgets session = false) →
      (((after calls).complete session version result).1 = true ↔
        NewestSince calls session version)) ∧
    ∀ v r, (after calls).latest? session = some (v, r) →
      ∃ j, (j, .complete session v r) ∈ since session calls := by
  refine ⟨complete_eq_true_iff.trans (allows_after calls),
    fun hsince hmem => complete_eq_true_iff.trans (allows_after_iff_newestSince hsince hmem),
    fun hnever => complete_eq_true_iff.trans (allows_after_iff_newestSince (i := i) ?_ ?_),
    fun v r => exists_complete_of_latest?⟩
  · rw [since_eq_self hnever]
    exact fun j v r hj => hrun.exists_begin hj
  · rw [since_eq_self hnever]
    exact hi.mem

/-- Two clients begin versions of a session, the session is forgotten, and a
third client begins a version of it. -/
def forgottenCalls : List (Nat × Call String) :=
  [(2, .begin "s" 1), (0, .forget "s"), (1, .begin "s" 7), (0, .begin "s" 5)]

/-- The third client completes the newest version since. -/
theorem newest_is_accepted : Run forgottenCalls ∧ HasBegun forgottenCalls 2 "s" 1 ∧
    ((after forgottenCalls).complete "s" 1 "fresh").1 = true ∧
    NewestSince forgottenCalls "s" 1 := by
  have hrun : Run forgottenCalls := .begins (.forgets (.begins (.begins .start ..) ..) ..) ..
  have hi : HasBegun forgottenCalls 2 "s" 1 := ⟨[], _, rfl, rfl⟩
  obtain ⟨-, hiff, -⟩ := complete_since_forgotten hrun hi "fresh"
  have hsince : since "s" forgottenCalls = [(2, .begin "s" 1)] := rfl
  have haccepted : ((after forgottenCalls).complete "s" 1 "fresh").1 = true := by decide
  exact ⟨hrun, hi, haccepted, (hiff (by simp [hsince]) (by simp [hsince])).mp haccepted⟩

/-- **What was begun before a session was forgotten may be accepted**, even if
something newer had begun by then, **and then the newest version begun since is
discarded.** -/
theorem stale_is_accepted :
    (Run forgottenCalls ∧ HasBegun forgottenCalls 0 "s" 5 ∧
      ¬NewestSince forgottenCalls "s" 5 ∧
      ((after forgottenCalls).complete "s" 5 "stale").1 = true) ∧
    Run ((0, .complete "s" 5 "stale") :: forgottenCalls) ∧
      HasBegun ((0, .complete "s" 5 "stale") :: forgottenCalls) 2 "s" 1 ∧
      NewestSince ((0, .complete "s" 5 "stale") :: forgottenCalls) "s" 1 ∧
      ((after ((0, .complete "s" 5 "stale") :: forgottenCalls)).complete "s" 1 "fresh").1 =
        false := by
  have hrun : Run forgottenCalls := .begins (.forgets (.begins (.begins .start ..) ..) ..) ..
  have hi : HasBegun forgottenCalls 0 "s" 5 := ⟨[_, _, _], [], rfl, rfl⟩
  refine ⟨⟨hrun, hi, ?_, by decide⟩, hrun.completes hi _, ⟨[_], _, rfl, rfl⟩, ?_, by decide⟩
  · simp [NewestSince, forgottenCalls, since, Call.forgets]
  · simp [NewestSince, forgottenCalls, since, Call.forgets]

end SessionStore

end SolidityCanvas
