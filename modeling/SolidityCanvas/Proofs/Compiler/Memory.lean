/-
Remembering without being wrong.

A compiler remembers renderings and results.  What is remembered is right as
long as the keys tell apart what has to be told apart:

* `Entry.Faithful`: the remembered renderings are those of the entries;
  rendering then gives what it gives without remembering anything
  (`renderAll_eq_renderings`), so that a compilation does not depend on what
  is remembered (`run_eq_of_faithful`);
* `answers_eq_of_pairwise`: one compiler answers a row of calls as a new one
  would answer each, if no call has the key of an earlier one that ends
  differently;
* `pairwise_of_answers_eq`: and only then, as soon as nothing is dropped.
-/
import Mathlib.Data.Set.Function
import SolidityCanvas.Compiler
import SolidityCanvas.Proofs.Arrangement.Precedence

namespace SolidityCanvas

/-! ### Caches -/

namespace Cache

variable {κ α : Type} [BEq κ] [LawfulBEq κ] {c : Cache κ α} {key other : κ} {value : α}

@[simp] theorem find?_promote_self (c : Cache κ α) (key : κ) (value : α) :
    (c.promote key value).find? key = some value := by
  simp [find?, promote]

theorem find?_promote_of_ne (h : other ≠ key) :
    (c.promote key value).find? other = c.find? other := by
  rw [find?, promote, List.lookup_cons, beq_eq_false_iff_ne.mpr h]
  exact lookup_filter_of_ne h c.entries

omit [LawfulBEq κ] in
theorem get_fst (c : Cache κ α) (key : κ) : (c.get key).1 = c.find? key := by
  rw [get]
  split <;> rename_i h <;> rw [h]

omit [LawfulBEq κ] in
theorem get_of_none (h : c.find? key = none) : c.get key = (none, c) := by
  rw [get, h]

omit [LawfulBEq κ] in
@[simp] theorem get_capacity (c : Cache κ α) (key : κ) : (c.get key).2.capacity = c.capacity := by
  rw [get]
  split <;> rfl

/-- Looking up a value changes no value. -/
theorem find?_get (c : Cache κ α) (key other : κ) :
    (c.get key).2.find? other = c.find? other := by
  rw [get]
  split
  · rename_i value h
    by_cases ho : other = key
    · rw [ho, find?_promote_self, h]
    · exact find?_promote_of_ne ho
  · rfl

/-- Looking up a value needs no room. -/
theorem length_get (c : Cache κ α) (key : κ) :
    (c.get key).2.entries.length ≤ c.entries.length := by
  rw [get]
  split
  · rename_i value h
    obtain ⟨e, he, hkey⟩ : ∃ e ∈ c.entries, e.1 = key := by
      have hsome : (c.entries.lookup key).isSome := by
        rw [← find?, h]
        rfl
      obtain ⟨e, he, hkey⟩ := List.lookup_isSome_iff.mp hsome
      exact ⟨e, he, (eq_of_beq hkey).symm⟩
    rw [promote, List.length_cons]
    -- The entry moves to the front, so that one is dropped for the one that is added.
    have hlt : (c.entries.filter fun e => !(e.1 == key)).length < c.entries.length :=
      List.length_filter_lt_length_iff_exists.mpr ⟨e, he, by simp [hkey]⟩
    omega
  · exact Nat.le_refl _

omit [LawfulBEq κ] in
theorem length_add (c : Cache κ α) (key : κ) (value : α) :
    (c.add key value).entries.length ≤ c.entries.length + 1 := by
  rw [add, promote]
  refine Nat.le_trans (List.length_take_le' ..) ?_
  rw [List.length_cons]
  exact Nat.succ_le_succ (List.length_filter_le ..)

@[simp] theorem find?_add_self (c : Cache κ α) (key : κ) (value : α) :
    (c.add key value).find? key = some value := by
  -- A cache has room for one entry at least, and that is the first one.
  obtain ⟨n, hn⟩ : ∃ n, max 1 c.capacity = n + 1 := ⟨max 1 c.capacity - 1, by omega⟩
  simp [find?, add, promote, hn]

theorem find?_add_of_ne {v : α} (h : other ≠ key) (hf : (c.add key value).find? other = some v) :
    c.find? other = some v := by
  rw [← find?_promote_of_ne h]
  exact (List.take_prefix ..).lookup_eq_some hf

/-- Where there is room nothing is dropped. -/
theorem find?_add_of_room (h : other ≠ key) (hroom : c.entries.length < c.capacity) :
    (c.add key value).find? other = c.find? other := by
  have hlen : (c.promote key value).entries.length ≤ max 1 c.capacity := by
    have hfilter := List.length_filter_le (fun e => !(e.1 == key)) c.entries
    rw [promote, List.length_cons]
    omega
  have hadd : c.add key value = c.promote key value := by
    rw [add, List.take_of_length_le hlen]
  rw [hadd, find?_promote_of_ne h]

end Cache

/-! ### Renderings -/

namespace Entry

/-- What an entry adds to a contract, with nothing remembered. -/
def rendering (e : Entry) : Except RenderError Rendered :=
  e.component.template.render e.bindings

/-- The key under which its rendering is remembered. -/
def key (e : Entry) : List UInt8 := renderKey e.component.template.id e.bindings

/-- What is remembered of some entries is right. -/
def Faithful (es : Set Entry) (cache : RenderCache) : Prop :=
  ∀ e ∈ es, ∀ r, cache.find? e.key = some r → e.rendering = .ok r

/-- Keys tell apart what is rendered differently. -/
def KeysTell (es : Set Entry) : Prop :=
  ∀ e ∈ es, ∀ e' ∈ es, e.key = e'.key → e.rendering = e'.rendering

variable {es : Set Entry} {e : Entry} {cache : RenderCache}

theorem faithful_new (es : Set Entry) (capacity : Nat) :
    Faithful es (RenderCache.new capacity) :=
  fun _ _ _ h => absurd h (by simp [RenderCache.new, Cache.find?])

theorem Faithful.get (h : Faithful es cache) (key : List UInt8) :
    Faithful es (cache.get key).2 := by
  intro e he r hr
  rw [Cache.find?_get] at hr
  exact h e he r hr

theorem Faithful.add (hkeys : KeysTell es) (h : Faithful es cache) (he : e ∈ es) {r : Rendered}
    (hr : e.rendering = .ok r) : Faithful es (cache.add e.key r) := by
  intro e' he' r' hr'
  by_cases hkey : e'.key = e.key
  · rw [hkey, Cache.find?_add_self, Option.some_inj] at hr'
    rw [hkeys e' he' e he hkey, hr, hr']
  · exact h e' he' r' (Cache.find?_add_of_ne hkey hr')

/-- A remembered rendering is found. -/
theorem render_of_some {r : Rendered} (h : cache.find? e.key = some r) :
    e.render cache = (.ok r, (cache.get e.key).2) := by
  have hget : cache.get (renderKey e.component.template.id e.bindings) =
      (some r, (cache.get e.key).2) := Prod.ext ((Cache.get_fst ..).trans h) rfl
  simp only [Entry.render, hget]

/-- Another one is made and remembered. -/
theorem render_of_none {r : Rendered} (h : cache.find? e.key = none) (hr : e.rendering = .ok r) :
    e.render cache = (.ok r, cache.add e.key r) := by
  have hget : cache.get (renderKey e.component.template.id e.bindings) = (none, cache) :=
    Cache.get_of_none h
  have hrender : e.component.template.render e.bindings = .ok r := hr
  simp only [Entry.render, hget, hrender, key]

/-- Nothing is remembered of one that cannot be made. -/
theorem render_of_error {f : RenderError} (h : cache.find? e.key = none)
    (hr : e.rendering = .error f) : e.render cache = (.error f, cache) := by
  have hget : cache.get (renderKey e.component.template.id e.bindings) = (none, cache) :=
    Cache.get_of_none h
  have hrender : e.component.template.render e.bindings = .error f := hr
  simp only [Entry.render, hget, hrender]

/-- Rendering gives what it gives with nothing remembered. -/
theorem Faithful.render (hkeys : KeysTell es) (h : Faithful es cache) (he : e ∈ es) :
    (e.render cache).1 = e.rendering ∧ Faithful es (e.render cache).2 := by
  cases hf : cache.find? e.key with
  | some r =>
    rw [render_of_some hf]
    exact ⟨(h e he r hf).symm, h.get e.key⟩
  | none =>
    cases hr : e.rendering with
    | error f =>
      rw [render_of_error hf hr]
      exact ⟨rfl, h⟩
    | ok r =>
      rw [render_of_none hf hr]
      exact ⟨rfl, h.add hkeys he hr⟩

end Entry

/-- What some entries add to a contract, with nothing remembered. -/
def renderings : List Entry → Except InvariantError (List (Entry × Rendered))
  | [] => .ok []
  | e :: rest =>
    match e.rendering with
    | .error f => .error ⟨e.id, .render f⟩
    | .ok r => (renderings rest).map ((e, r) :: ·)

/-- The entries that are rendered: all of them, or those up to the first that
cannot be. -/
def reached : List Entry → List Entry
  | [] => []
  | e :: rest =>
    e :: match e.rendering with
      | .error _ => []
      | .ok _ => reached rest

/-- **Remembering renderings changes none of them.** -/
theorem renderAll_eq_renderings {es : Set Entry} (hkeys : Entry.KeysTell es) :
    ∀ (entries : List Entry) {cache : RenderCache}, (∀ e ∈ reached entries, e ∈ es) →
      Entry.Faithful es cache →
      (renderAll cache entries).1 = renderings entries ∧
        Entry.Faithful es (renderAll cache entries).2 := by
  intro entries
  induction entries with
  | nil => exact fun _ h => ⟨rfl, h⟩
  | cons e rest ih =>
    intro cache hmem h
    obtain ⟨hfst, hsnd⟩ := h.render hkeys (hmem e List.mem_cons_self)
    rw [reached] at hmem
    rw [renderAll, renderings, ← hfst]
    -- Whether the others are reached depends on how this one ends.
    rw [← hfst] at hmem
    generalize e.render cache = rendered at hsnd hmem
    obtain ⟨r, cache'⟩ := rendered
    cases r with
    | error f => exact ⟨rfl, hsnd⟩
    | ok r =>
      obtain ⟨hothers, hcache⟩ := ih (fun e' he' => hmem e' (List.mem_cons_of_mem _ he')) hsnd
      exact ⟨by rw [← hothers], hcache⟩

theorem mem_of_mem_reached : ∀ {entries : List Entry} {e : Entry}, e ∈ reached entries →
    e ∈ entries := by
  intro entries
  induction entries with
  | nil => exact fun h => h
  | cons e rest ih =>
    intro e' h
    rw [reached] at h
    rcases List.mem_cons.mp h with rfl | h
    · exact List.mem_cons_self
    · cases hr : e.rendering with
      | error f =>
        rw [hr] at h
        exact absurd h List.not_mem_nil
      | ok r =>
        rw [hr] at h
        exact List.mem_cons_of_mem _ (ih h)

/-- What writing an arrangement comes to, with nothing remembered. -/
def Arrangement.outcome (a : Arrangement) (h : Header) : Except InvariantError Document :=
  (renderings a.entries).map (Document.ofRendered h.withDefaults a.sizes)

/-- **An arrangement is written as with nothing remembered**, as long as what is
remembered is right. -/
theorem Arrangement.emit_of_faithful {es : Set Entry} (hkeys : Entry.KeysTell es)
    {a : Arrangement} (hmem : ∀ e ∈ reached a.entries, e ∈ es) {cache : RenderCache}
    (hcache : Entry.Faithful es cache) (h : Header) :
    (a.emit h cache).1 = a.outcome h ∧ Entry.Faithful es (a.emit h cache).2 := by
  obtain ⟨hrendered, hafter⟩ := renderAll_eq_renderings hkeys a.entries hmem hcache
  rw [outcome, ← hrendered]
  exact ⟨rfl, hafter⟩

/-! ### Calls -/

/-- What a compiler is asked for. -/
structure Call where
  canvas : Canvas
  header : Header

namespace Call

/-- The key under which the result is remembered. -/
def key (x : Call) : List UInt8 := Compiler.resultKey x.canvas x.header.withDefaults

/-- The entries that are rendered on the way. -/
def Renders (catalog : Catalog) (x : Call) : Set Entry :=
  {e | ∃ findings a, x.canvas.validate catalog = .ok findings ∧
    Diagnostic.hasErrors findings = false ∧ x.canvas.arrange catalog = .ok (.ok a) ∧
    e ∈ reached a.entries}

/-- What a call comes to, with nothing remembered. -/
def outcome (catalog : Catalog) (x : Call) : Except CompileError CompileResult :=
  match x.canvas.validate catalog with
  | .error e => .error (.invariant e)
  | .ok findings =>
    match x.canvas.arrange catalog with
    | .error e => .error (.invariant e)
    | .ok (.error more) => .ok (.rejected (findings ++ more))
    | .ok (.ok a) =>
      if Diagnostic.hasErrors findings then .ok (.rejected findings)
      else match renderings a.entries with
        | .error e => .error (.invariant e)
        | .ok rendered =>
          match a.interface? with
          | none => .error .broken
          | some interface => .ok {
              status := .emitted
              document := some (Document.ofRendered x.header.withDefaults.withDefaults
                a.sizes rendered)
              interface := some interface, diagnostics := some findings, order := a.order }

end Call

namespace Compiler

variable {c : Compiler} {es : Set Entry} {x y : Call} {calls : List Call}

/-- What a compiler answers to a call. -/
def answer (c : Compiler) (x : Call) : Except CompileError CompileResult :=
  (c.compile x.canvas x.header false).1

/-- The compiler after a call. -/
def after (c : Compiler) (x : Call) : Compiler := (c.compile x.canvas x.header false).2

/-- What a compiler answers to calls, one after another. -/
def answers (c : Compiler) : List Call → List (Except CompileError CompileResult)
  | [] => []
  | x :: rest => c.answer x :: (c.after x).answers rest

/-- What a new compiler answers to a call. -/
def firstAnswer (catalog : Catalog) (capacity : Nat) (x : Call) :
    Except CompileError CompileResult :=
  (new catalog capacity).answer x

/-- **A compilation does not depend on what is remembered**, as long as that
is right. -/
theorem run_eq_of_faithful (hkeys : Entry.KeysTell es) (h : Entry.Faithful es c.renders)
    (hrenders : x.Renders c.catalog ⊆ es) :
    (c.run x.canvas x.header.withDefaults false).1 = x.outcome c.catalog ∧
      Entry.Faithful es (c.run x.canvas x.header.withDefaults false).2 := by
  rw [run, Call.outcome]
  cases hv : x.canvas.validate c.catalog with
  | error e => exact ⟨rfl, h⟩
  | ok findings =>
    simp only [Bool.false_eq_true, if_false, Canvas.resolve_eq]
    cases ha : x.canvas.arrange c.catalog with
    | error e => exact ⟨rfl, h⟩
    | ok r =>
      cases r with
      | error more => exact ⟨rfl, h⟩
      | ok a =>
        by_cases herr : Diagnostic.hasErrors findings = true
        · dsimp only
          rw [if_pos herr, if_pos herr]
          exact ⟨rfl, h⟩
        · have hmem : ∀ e ∈ reached a.entries, e ∈ es :=
            fun e he => hrenders ⟨findings, a, hv, by simpa using herr, ha, he⟩
          obtain ⟨hdocument, hcache⟩ :=
            Arrangement.emit_of_faithful hkeys hmem h x.header.withDefaults
          simp only [herr, if_false, Bool.false_eq_true]
          refine ⟨?_, hcache⟩
          rw [hdocument, Arrangement.outcome]
          cases renderings a.entries with
          | error e => rfl
          | ok rendered => rfl

/-- A remembered result is found. -/
theorem compile_of_some {r : CompileResult} (h : c.results.find? x.key = some r) :
    c.compile x.canvas x.header false =
      (.ok r, { c with results := (c.results.get x.key).2 }) := by
  have hget : c.results.get (resultKey x.canvas x.header.withDefaults) =
      (some r, (c.results.get x.key).2) := Prod.ext ((Cache.get_fst ..).trans h) rfl
  simp only [compile, hget]

/-- Another one is made and remembered. -/
theorem compile_of_none {r : CompileResult} {renders : RenderCache}
    (h : c.results.find? x.key = none)
    (hr : c.run x.canvas x.header.withDefaults false = (.ok r, renders)) :
    c.compile x.canvas x.header false =
      (.ok r, { c with results := c.results.add x.key r, renders }) := by
  have hget : c.results.get (resultKey x.canvas x.header.withDefaults) = (none, c.results) :=
    Cache.get_of_none h
  simp only [compile, hget, hr, Call.key]

/-- Nothing is remembered of an error but what was rendered. -/
theorem compile_of_error {e : CompileError} {renders : RenderCache}
    (h : c.results.find? x.key = none)
    (hr : c.run x.canvas x.header.withDefaults false = (.error e, renders)) :
    c.compile x.canvas x.header false = (.error e, { c with renders }) := by
  have hget : c.results.get (resultKey x.canvas x.header.withDefaults) = (none, c.results) :=
    Cache.get_of_none h
  simp only [compile, hget, hr]

/-! ### Rows of calls -/

/-- What a compiler remembers is right for the calls that come. -/
structure Right (catalog : Catalog) (es : Set Entry) (calls : List Call) (c : Compiler) :
    Prop where
  catalog_eq : c.catalog = catalog
  renders : Entry.Faithful es c.renders
  results : ∀ y ∈ calls, ∀ r, c.results.find? y.key = some r → y.outcome catalog = .ok r

variable {catalog : Catalog}

theorem right_new (catalog : Catalog) (es : Set Entry) (calls : List Call) (capacity : Nat) :
    Right catalog es calls (new catalog capacity) :=
  ⟨rfl, Entry.faithful_new es _, fun _ _ _ h => absurd h (by simp [new, Cache.find?])⟩

/-- A call is answered by its outcome, and what is remembered stays right if no
call to come has the key of this one and another outcome. -/
theorem Right.step (hkeys : Entry.KeysTell es) (h : Right catalog es (x :: calls) c)
    (hrenders : x.Renders catalog ⊆ es)
    (htell : ∀ y ∈ calls, x.key = y.key → ∀ r, x.outcome catalog = .ok r →
      y.outcome catalog = .ok r) :
    c.answer x = x.outcome catalog ∧ Right catalog es calls (c.after x) := by
  obtain ⟨rfl, hcache, hresults⟩ := h
  have hrest : ∀ y ∈ calls, ∀ r, c.results.find? y.key = some r →
      y.outcome c.catalog = .ok r := fun y hy => hresults y (List.mem_cons_of_mem _ hy)
  obtain ⟨hrun, hfaithful⟩ := run_eq_of_faithful hkeys hcache hrenders
  rw [answer, after]
  cases hf : c.results.find? x.key with
  | some r =>
    rw [compile_of_some hf]
    refine ⟨(hresults x List.mem_cons_self r hf).symm, rfl, hcache, fun y hy r' hr' => ?_⟩
    rw [Cache.find?_get] at hr'
    exact hrest y hy r' hr'
  | none =>
    rcases hran : c.run x.canvas x.header.withDefaults false with ⟨result, renders⟩
    rw [hran] at hrun hfaithful
    cases result with
    | error e =>
      rw [compile_of_error hf hran]
      exact ⟨hrun, rfl, hfaithful, hrest⟩
    | ok r =>
      rw [compile_of_none hf hran]
      refine ⟨hrun, rfl, hfaithful, fun y hy r' hr' => ?_⟩
      by_cases hkey : y.key = x.key
      -- The key of the call itself: whoever has it ends alike.
      · dsimp only at hr'
        rw [hkey, Cache.find?_add_self, Option.some_inj] at hr'
        exact hr' ▸ htell y hy hkey.symm r hrun.symm
      · exact hrest y hy r' (Cache.find?_add_of_ne hkey hr')

/-- The calls of a row that have one key end alike. -/
def KeysTell (catalog : Catalog) (calls : List Call) : Prop :=
  calls.Pairwise fun x y => x.key = y.key → ∀ r, x.outcome catalog = .ok r →
    y.outcome catalog = .ok r

/-- **One compiler answers a row of calls by their outcomes** if calls with one
key end alike. -/
theorem answers_eq_of_pairwise (hkeys : Entry.KeysTell es) :
    ∀ {calls : List Call} {c : Compiler}, Right catalog es calls c →
      (∀ x ∈ calls, x.Renders catalog ⊆ es) → KeysTell catalog calls →
      c.answers calls = calls.map (Call.outcome catalog) := by
  intro calls
  induction calls with
  | nil => exact fun _ _ _ => rfl
  | cons x rest ih =>
    intro c h hrenders htell
    obtain ⟨hx, hrest⟩ := List.pairwise_cons.mp htell
    obtain ⟨hanswer, hright⟩ := h.step hkeys (hrenders x List.mem_cons_self) hx
    rw [answers, List.map_cons, hanswer,
      ih hright (fun y hy => hrenders y (List.mem_cons_of_mem _ hy)) hrest]

/-- A new compiler answers by the outcome. -/
theorem firstAnswer_eq (hkeys : Entry.KeysTell es) (hrenders : x.Renders catalog ⊆ es)
    (capacity : Nat) : firstAnswer catalog capacity x = x.outcome catalog :=
  ((right_new catalog es [x] capacity).step hkeys hrenders
    fun _ hy => absurd hy List.not_mem_nil).1

/-! ### Room for everything -/

/-- What a call leaves in memory where there is room: all that was there, and
its own result. -/
theorem find?_after (hroom : c.results.entries.length < c.results.capacity) (x : Call) :
    (∀ k r, c.results.find? k = some r → (c.after x).results.find? k = some r) ∧
      (∀ r, c.answer x = .ok r → (c.after x).results.find? x.key = some r) ∧
      (c.after x).results.capacity = c.results.capacity ∧
      (c.after x).results.entries.length ≤ c.results.entries.length + 1 := by
  rw [answer, after]
  cases hf : c.results.find? x.key with
  | some r =>
    rw [compile_of_some hf]
    refine ⟨fun k r' hk => ?_, fun r' hr' => ?_, Cache.get_capacity .., ?_⟩
    · rw [Cache.find?_get]
      exact hk
    · rw [Cache.find?_get, hf, ← Except.ok.inj hr']
    · exact Nat.le_succ_of_le (Cache.length_get ..)
  | none =>
    rcases hran : c.run x.canvas x.header.withDefaults false with ⟨result, renders⟩
    cases result with
    | error e =>
      rw [compile_of_error hf hran]
      exact ⟨fun _ _ hk => hk, fun _ hr => absurd hr (by simp), rfl, Nat.le_succ _⟩
    | ok r =>
      rw [compile_of_none hf hran]
      refine ⟨fun k r' hk => ?_, fun r' hr' => ?_, rfl, Cache.length_add ..⟩
      · have hne : k ≠ x.key := fun he => by simp [he, hf] at hk
        dsimp only
        rw [Cache.find?_add_of_room hne hroom, hk]
      · dsimp only
        rw [Cache.find?_add_self, ← Except.ok.inj hr']

/-- What is remembered is what later calls with the key are answered by. -/
theorem answers_of_find? : ∀ {calls : List Call} {c : Compiler},
    c.results.entries.length + calls.length ≤ c.results.capacity →
    ∀ {k : List UInt8} {r : CompileResult}, c.results.find? k = some r →
      ∀ p ∈ calls.zip (c.answers calls), p.1.key = k → p.2 = .ok r := by
  intro calls
  induction calls with
  | nil => exact fun _ _ _ _ p hp => absurd hp List.not_mem_nil
  | cons x rest ih =>
    intro c hroom k r hk p hp hkey
    rw [List.length_cons] at hroom
    obtain ⟨hkeep, _, hcap, hlen⟩ := find?_after (c := c) (by omega) x
    rcases List.mem_cons.mp hp with rfl | hp
    · have hfind : c.results.find? x.key = some r := hkey ▸ hk
      rw [answer, compile_of_some hfind]
    · exact ih (by omega) (hkeep k r hk) p hp hkey

/-- **Calls with one key have to end alike** if a compiler with room for all
results answers a row of calls in a fixed way. -/
theorem pairwise_of_answers_eq {f : Call → Except CompileError CompileResult} :
    ∀ {calls : List Call} {c : Compiler},
      c.results.entries.length + calls.length ≤ c.results.capacity →
      c.answers calls = calls.map f →
      calls.Pairwise fun x y => x.key = y.key → ∀ r, f x = .ok r → f y = .ok r := by
  intro calls
  induction calls with
  | nil => exact fun _ _ => List.Pairwise.nil
  | cons x rest ih =>
    intro c hroom heq
    rw [List.length_cons] at hroom
    obtain ⟨hanswer, hrest⟩ := List.cons.inj heq
    obtain ⟨_, hown, hcap, hlen⟩ := find?_after (c := c) (by omega) x
    refine List.Pairwise.cons (fun y hy hkey r hr => ?_) (ih (by omega) hrest)
    have hmem : (y, f y) ∈ rest.zip ((c.after x).answers rest) := by
      rw [hrest, ← List.map_prod_left_eq_zip]
      exact List.mem_map.mpr ⟨y, hy, rfl⟩
    have hfind : (c.after x).results.find? y.key = some r := by
      rw [← hkey]
      exact hown r (hanswer.trans hr)
    exact answers_of_find? (by omega) hfind (y, f y) hmem rfl

end Compiler

end SolidityCanvas
