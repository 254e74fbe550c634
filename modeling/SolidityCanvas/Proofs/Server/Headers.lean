/-
The names of contracts.

A contract is named by the header it is written for (`CompileResult.IsWrittenFor`),
which is put together of that of a request, that of the server and the default one
(`Server.headerFor`).

* `Project.isContractName_of_load`: the name in a project file is legal;
* `Compiler.RemembersWritten.step`: what a compiler answers is written for the header
  of this call, or of one with its key before;
* `Server.named_of_emitted`: the name that a server writes is legal exactly if the
  first one that is given is, and nothing else is asked of it;
* `Server.contract_named_contract`: so it may be a reserved word.
-/
import SolidityCanvas.Project
import SolidityCanvas.Proofs.Compiler.Written
import SolidityCanvas.Proofs.Contract.Layout
import SolidityCanvas.Proofs.Server.History

namespace SolidityCanvas

/-! ### Names of headers -/

theorem Project.isContractName_default : isContractName Header.default.contractName = true := by
  have hdefault : Solidity.isReserved Header.default.contractName = false :=
    Solidity.isReserved_of_mem_plainNames _ (by decide)
  rw [isContractName, hdefault]
  decide

namespace Header

variable (h other : Header)

/-- The name is legal, or it is left open. -/
def NamesLegally : Prop :=
  h.contractName = "" ∨ Project.isContractName h.contractName = true

theorem contractName_orElse : (h.orElse other).contractName =
    if h.contractName = "" then other.contractName else h.contractName := by
  simp [orElse]

@[simp] theorem orElse_empty : h.orElse {} = h := by
  have hfield : ∀ given : String, (if given.isEmpty then "" else given) = given := by
    intro given
    cases hgiven : given.isEmpty
    · rfl
    · simp_all
  exact Header.mk.injEq .. ▸ ⟨hfield _, hfield _, hfield _⟩

theorem orElse_orElse : (h.orElse other).orElse other = h.orElse other := by
  have hfield : ∀ given standard : String,
      (if (if given.isEmpty then standard else given).isEmpty then standard
        else if given.isEmpty then standard else given) =
          if given.isEmpty then standard else given := by
    intro given standard
    cases hgiven : given.isEmpty <;> simp [hgiven]
  exact Header.mk.injEq .. ▸ ⟨hfield .., hfield .., hfield ..⟩

theorem withDefaults_withDefaults : h.withDefaults.withDefaults = h.withDefaults :=
  h.orElse_orElse default

/-- With its defaults, a header has a legal name exactly if it gives no other one. -/
theorem isContractName_withDefaults :
    Project.isContractName h.withDefaults.contractName = true ↔ h.NamesLegally := by
  rw [withDefaults, contractName_orElse, NamesLegally]
  split
  next hopen => exact iff_of_true Project.isContractName_default (.inl hopen)
  next hgiven => exact (or_iff_right hgiven).symm

/-- The first name that is given counts. -/
theorem namesLegally_orElse : (h.orElse other).NamesLegally ↔
    if h.contractName = "" then other.NamesLegally
    else Project.isContractName h.contractName = true := by
  rw [NamesLegally, contractName_orElse]
  split
  · rfl
  next hgiven => exact or_iff_right hgiven

end Header

/-! ### Project files -/

namespace Project

variable {tree : FileTree} {path : String} {h : Header}

/-- A project file has a legal name, or there is none. -/
theorem load_cases (hload : load tree path = .ok h) :
    h = Header.default ∨ ∃ given : Header, isContractName given.contractName = true ∧
      h = given.withDefaults := by
  rw [load] at hload
  split at hload
  · exact .inl (Except.ok.inj hload).symm
  split at hload
  · cases hload
  rw [ofText] at hload
  split at hload
  · cases hload
  obtain ⟨read, -, hread⟩ := except_bind_eq_ok.mp hload
  cases read with
  | none => exact .inl (Except.ok.inj hread).symm
  | some given =>
    dsimp only at hread
    split at hread
    next hlegal => exact .inr ⟨given, hlegal, (Except.ok.inj hread).symm⟩
    next => cases hread

/-- **A project file gives a legal name**, and leaves nothing open. -/
theorem isContractName_of_load (hload : load tree path = .ok h) :
    isContractName h.contractName = true ∧ h.withDefaults = h := by
  rcases load_cases hload with rfl | ⟨given, hlegal, rfl⟩
  · exact ⟨isContractName_default, Header.withDefaults_withDefaults {}⟩
  · exact ⟨given.isContractName_withDefaults.mpr (.inr hlegal), given.withDefaults_withDefaults⟩

end Project

/-! ### Documents and their headers -/

namespace CompileResult

/-- The document of the result is laid out for a header, whose name is in the source as
it is. -/
def IsWrittenFor (r : CompileResult) (h : Header) : Prop :=
  ∃ d blocks, r.document = some d ∧ d.source = Document.layout h d.imports d.inherits blocks

/-- The contract of the result has a legal name. -/
def IsNamed (r : CompileResult) : Prop :=
  ∃ h, r.IsWrittenFor h ∧ Project.isContractName h.contractName = true

end CompileResult

namespace Compiler

variable {c : Compiler} {canvas : Canvas} {header : Header} {canceled : Bool} {r : CompileResult}
  {calls : List Call} {x : Call}

/-- A canvas is written for the header. -/
theorem isWrittenFor_of_run (hr : (c.run canvas header.withDefaults canceled).1 = .ok r)
    (hemitted : r.status = .emitted) : r.IsWrittenFor header.withDefaults := by
  obtain ⟨a, d, hwrites⟩ := written_of_run hr hemitted
  obtain ⟨rendered, -, rfl⟩ := Arrangement.emit_eq_ok.mp hwrites.emit
  rw [Header.withDefaults_withDefaults] at hwrites
  exact ⟨_, _, hwrites.document, rfl⟩

/-- A call finds what is remembered, or is compiled: with a result, which is remembered
from then on, or without one. -/
theorem compile_found_or_run (c : Compiler) (x : Call) (canceled : Bool) :
    (∃ r, c.results.find? x.key = some r ∧ (c.compile x.canvas x.header canceled).1 = .ok r ∧
      ∀ k, (c.compile x.canvas x.header canceled).2.results.find? k = c.results.find? k) ∨
    (∃ r, (c.run x.canvas x.header.withDefaults canceled).1 = .ok r ∧
      (c.compile x.canvas x.header canceled).1 = .ok r ∧
      (c.compile x.canvas x.header canceled).2.results = c.results.add x.key r) ∨
    ∃ e, (c.compile x.canvas x.header canceled).1 = .error e ∧
      (c.compile x.canvas x.header canceled).2.results = c.results := by
  have hfind := Cache.get_fst c.results x.key
  have hkeeps := Cache.find?_get c.results x.key
  rw [compile]
  simp only [← Call.key.eq_1]
  cases hget : c.results.get x.key with
  | mk found results =>
    rw [hget] at hfind hkeeps
    cases found with
    | some r => exact .inl ⟨r, hfind.symm, rfl, hkeeps⟩
    | none =>
      obtain rfl : results = c.results := by
        rw [Cache.get_of_none hfind.symm] at hget
        exact (Prod.mk.inj hget).2.symm
      cases hrun : c.run x.canvas x.header.withDefaults canceled with
      | mk outcome renders =>
        cases outcome with
        | ok r => exact .inr (.inl ⟨r, rfl, rfl, rfl⟩)
        | error e => exact .inr (.inr ⟨e, rfl, rfl⟩)

/-- What is remembered as written was written for calls with its key. -/
def RemembersWritten (calls : List Call) (c : Compiler) : Prop :=
  ∀ key r, c.results.find? key = some r → r.status = .emitted →
    ∃ x ∈ calls, x.key = key ∧ r.IsWrittenFor x.header.withDefaults

theorem RemembersWritten.mono {more : List Call} (h : c.RemembersWritten calls)
    (hsub : calls ⊆ more) : c.RemembersWritten more := by
  intro key r hr hemitted
  obtain ⟨x, hx, hkey⟩ := h key r hr hemitted
  exact ⟨x, hsub hx, hkey⟩

/-- **One call** is answered by what was written for a call with its key, and what is
remembered was written for such calls again. -/
theorem RemembersWritten.step (h : c.RemembersWritten calls) (hx : x ∈ calls) (canceled : Bool) :
    (∀ r, (c.compile x.canvas x.header canceled).1 = .ok r → r.status = .emitted →
      ∃ y ∈ calls, y.key = x.key ∧ r.IsWrittenFor y.header.withDefaults) ∧
    (c.compile x.canvas x.header canceled).2.RemembersWritten calls := by
  rcases compile_found_or_run c x canceled with ⟨r, hfind, hr, hkeeps⟩ | ⟨r, hrun, hr, hadds⟩ |
    ⟨e, he, hkeeps⟩
  · refine ⟨fun r' hr' => ?_, fun key r' hr' => h key r' (hkeeps key ▸ hr')⟩
    obtain rfl := Except.ok.inj (hr.symm.trans hr')
    exact h _ r hfind
  · have hown : r.status = .emitted →
        ∃ y ∈ calls, y.key = x.key ∧ r.IsWrittenFor y.header.withDefaults :=
      fun hemitted => ⟨x, hx, rfl, isWrittenFor_of_run hrun hemitted⟩
    refine ⟨fun r' hr' => ?_, fun key r' hr' => ?_⟩
    · obtain rfl := Except.ok.inj (hr.symm.trans hr')
      exact hown
    · rw [hadds] at hr'
      by_cases hkey : key = x.key
      · subst hkey
        rw [Cache.find?_add_self, Option.some_inj] at hr'
        exact hr' ▸ hown
      · exact h key r' (Cache.find?_add_of_ne hkey hr')
  · refine ⟨fun r hr => absurd (he.symm.trans hr) (by simp), fun key r hr => ?_⟩
    rw [hkeeps] at hr
    exact h key r hr

end Compiler

/-! ### Requests -/

namespace Server

variable {s : Server} {catalog : Catalog} {h : List Post} {x : Post}

/-- The header that the canvas of a request is compiled with. -/
def headerFor (s : Server) (r : CompileRequest) : Header := (r.header.orElse s.header).withDefaults

theorem isContractName_headerFor (s : Server) (r : CompileRequest) :
    Project.isContractName (s.headerFor r).contractName = true ↔
      if r.header.contractName = "" then s.header.NamesLegally
      else Project.isContractName r.header.contractName = true :=
  (Header.isContractName_withDefaults _).trans (Header.namesLegally_orElse ..)

theorem mem_calls {call : Call} : call ∈ s.calls h ↔ ∃ y ∈ h, ∃ r c,
    y.request? = some (r, c) ∧ call = ⟨c, r.header.orElse s.header⟩ := by
  simp only [calls, List.mem_filterMap, Post.call?, Option.map_eq_some_iff, Prod.exists]
  simp only [eq_comm]

/-- **What is remembered was written for the requests so far.** -/
theorem IsNew.remembersWritten_after (hs : s.IsNew catalog) (h : List Post) :
    (s.after h).compiler.RemembersWritten (s.calls h) := by
  induction h with
  | nil =>
    obtain ⟨capacity, hnew⟩ := hs.compiler
    intro key r hr
    rw [after, hnew] at hr
    cases hr
  | cons x h ih =>
    have hsub : s.calls h ⊆ s.calls (x :: h) := (calls_cons_subset (List.Subset.refl _)).2
    rw [after]
    rcases compiler_post_eq (hs.tracks_after h).ordered x with heq | ⟨call, hcall, heq⟩
    · rw [heq]
      exact ih.mono hsub
    · rw [hs.header_after] at hcall
      rw [heq]
      have hmem := (calls_cons_subset (List.Subset.refl (s.calls (x :: h)))).1 call hcall
      exact ((ih.mono hsub).step hmem x.canceled).2

/-- **Which contracts have legal names.**  A project file gives a legal name, and a
canvas compiled with its header is written for it.

A new server has had some requests.  If a canvas is written for one more, then with the
header of this request, or of one before that has its key, put together with that of
the server and the default one.  The name in it is legal exactly if the first one that
is given is.  So the contract has a legal name if no request gives another one, and
what stands for a name that is left open is legal. -/
theorem named_of_emitted (hs : s.IsNew catalog) (h : List Post) :
    (∀ tree path header, Project.load tree path = .ok header →
      Project.isContractName header.contractName = true ∧
      ∀ capacity canvas canceled result,
        ((Compiler.new catalog capacity).compile canvas header canceled).1 = .ok result →
        result.status = .emitted → result.IsWrittenFor header) ∧
    (∀ r, Project.isContractName (s.headerFor r).contractName = true ↔
      if r.header.contractName = "" then s.header.NamesLegally
      else Project.isContractName r.header.contractName = true) ∧
    ∀ x r c result, x.request? = some (r, c) →
      ((s.after h).run r c x.canceled).1 = .ok result → result.status = .emitted →
      (∃ y ∈ x :: h, ∃ q k, y.request? = some (q, k) ∧
        Compiler.resultKey k (s.headerFor q) = Compiler.resultKey c (s.headerFor r) ∧
        result.IsWrittenFor (s.headerFor q)) ∧
      ((∀ y ∈ x :: h, ∀ q k, y.request? = some (q, k) →
        Project.isContractName (s.headerFor q).contractName = true) → result.IsNamed) := by
  refine ⟨fun tree path header hload => ?_, s.isContractName_headerFor,
    fun x r c result hx hr hemitted => ?_⟩
  · obtain ⟨hlegal, hfull⟩ := Project.isContractName_of_load hload
    refine ⟨hlegal, fun capacity canvas canceled result hr hemitted => ?_⟩
    rw [Compiler.compile_of_unremembered rfl] at hr
    exact hfull ▸ Compiler.isWrittenFor_of_run hr hemitted
  · have hsub : s.calls h ⊆ s.calls (x :: h) := (calls_cons_subset (List.Subset.refl _)).2
    have hmem : (⟨c, r.header.orElse s.header⟩ : Call) ∈ s.calls (x :: h) :=
      mem_calls.mpr ⟨x, List.mem_cons_self, r, c, hx, rfl⟩
    have hstep := ((hs.remembersWritten_after h).mono hsub).step hmem x.canceled
    rw [run, hs.header_after] at hr
    obtain ⟨call, hcall, hkey, hwritten⟩ := hstep.1 result hr hemitted
    obtain ⟨y, hy, q, k, hq, rfl⟩ := mem_calls.mp hcall
    exact ⟨⟨y, hy, q, k, hq, hkey, hwritten⟩,
      fun hlegal => ⟨_, hwritten, hlegal y hy q k hq⟩⟩

/-- A server that has a name and a license for what is left open. -/
def vaultServer : Server := new Catalog.sample ⟨"Vault", "MIT", ""⟩

/-- The document of a request that gives a name. -/
def namedRequest (canvas : Json) (name : String) : Json :=
  .object [("canvas", canvas), ("header", .object [("contractName", .string name)])]

/-- A request that gives a name of its own. -/
def tokenPost : Post where
  body := "\x7b\"canvas\":" ++ markedText ++ ",\"header\":\x7b\"contractName\":\"Token\"\x7d\x7d"

theorem request?_tokenPost : tokenPost.request? =
    some (⟨"", 0, some markedCanvas, ⟨"Token", "", ""⟩⟩, markedCanvas) :=
  Post.request?_eq_some (⟨rfl, by decide⟩ : tokenPost.body =
    (namedRequest markedJson "Token").text ∧ _) (by simp [markedJson]) (by decide) (rfl) rfl

/-- The name that a request gives stands for that of the server, and is legal. -/
theorem token_is_named : ∃ result, IsNew Catalog.sample vaultServer ∧
    ((vaultServer.after []).run ⟨"", 0, some markedCanvas, ⟨"Token", "", ""⟩⟩ markedCanvas
      tokenPost.canceled).1 = .ok result ∧ result.status = .emitted ∧
    result.IsWrittenFor ⟨"Token", "MIT", Header.default.pragma⟩ ∧ result.IsNamed := by
  have hwritable : markedCanvas.isWritableWith Solidity.plainNames Catalog.sample = true := by
    decide
  obtain ⟨result, hresult, hstatus⟩ := Compiler.exists_emitted_of_isWritableWith hwritable
    Solidity.isReserved_of_mem_plainNames 0 ⟨"Token", "MIT", ""⟩
  have hs : IsNew Catalog.sample vaultServer := isNew_new ..
  have hheader : Header.orElse ⟨"Token", "", ""⟩ ⟨"Vault", "MIT", ""⟩ = ⟨"Token", "MIT", ""⟩ := by
    decide
  have hrun : ((vaultServer.after []).run ⟨"", 0, some markedCanvas, ⟨"Token", "", ""⟩⟩ markedCanvas
      false).1 = .ok result := by
    have hcompiler : (vaultServer.after []).compiler = Compiler.new Catalog.sample 0 := rfl
    have hdefault : (vaultServer.after []).header = ⟨"Vault", "MIT", ""⟩ := rfl
    rw [run_fst, hcompiler, hdefault, hheader, Compiler.answer]
    exact hresult
  obtain ⟨-, hmerged, hposts⟩ := named_of_emitted hs []
  obtain ⟨⟨y, hy, q, k, hq, -, hwritten⟩, hnamed⟩ :=
    hposts tokenPost _ _ result request?_tokenPost hrun hstatus
  have honly : ∀ y ∈ [tokenPost], ∀ q k, y.request? = some (q, k) →
      q = ⟨"", 0, some markedCanvas, ⟨"Token", "", ""⟩⟩ := by
    intro y hy q k hq
    rw [List.mem_singleton.mp hy, request?_tokenPost] at hq
    exact (Prod.mk.inj (Option.some_inj.mp hq)).1.symm
  obtain rfl := honly y hy q k hq
  refine ⟨result, hs, hrun, hstatus, hwritten, hnamed fun y hy q k hq => ?_⟩
  obtain rfl := honly y hy q k hq
  -- The name that is given counts, and it is legal.
  refine (hmerged _).mpr ?_
  rw [if_neg (by decide), Project.isContractName, Solidity.isReserved_of_mem_plainNames _ (by decide)]
  decide

/-- A new compiler writes an empty canvas. -/
theorem firstAnswer_of_empty (h : Header) :
    Compiler.firstAnswer {} 0 ⟨{}, h⟩ = .ok (emptyResult h) := by
  have hnothing : (⟨{}, h⟩ : Call).Renders {} ⊆ ∅ :=
    fun e he => Compiler.notMem_renders_of_empty rfl e he
  have htell : Entry.KeysTell ∅ := fun e he => absurd he (Set.notMem_empty e)
  exact Compiler.firstAnswer_eq htell hnothing 0

theorem run_of_empty (r : CompileRequest) :
    ((new {} {}).run r {} false).1 = .ok (emptyResult r.header) := by
  have hrun := run_fst (new {} {}) r {}
  rw [new, r.header.orElse_empty] at hrun
  exact hrun.trans (firstAnswer_of_empty r.header)

/-- A request for an empty canvas, whose contract is to be named by a reserved word. -/
def contractPost : Post where
  body := "\x7b\"canvas\":\x7b\x7d,\"header\":\x7b\"contractName\":\"contract\"\x7d\x7d"

theorem request?_contractPost :
    contractPost.request? = some (⟨"", 0, some {}, ⟨"contract", "", ""⟩⟩, {}) :=
  Post.request?_eq_some (by decide : contractPost.body =
    (namedRequest (.object []) "contract").text ∧ _) (by simp) (by decide) (rfl) rfl

/-- **A contract can be named by a reserved word**, which no project file can do: nothing
asks whether the name in a request is legal. -/
theorem contract_named_contract : Project.isContractName "contract" = false ∧
    (new {} {}).reply contractPost = compiledReply ⟨"", 0, some {}, ⟨"contract", "", ""⟩⟩
      (.ok (emptyResult ⟨"contract", "", ""⟩)) ∧
    (emptyResult ⟨"contract", "", ""⟩).status = .emitted ∧
    (emptyResult ⟨"contract", "", ""⟩).source =
      "// SPDX-License-Identifier: MIT\npragma solidity ^0.8.20;\n\n" ++
        "contract contract \x7b\n\x7d\n" := by
  refine ⟨by decide, ?_, rfl, by decide⟩
  rw [reply, post_of_sessionless request?_contractPost rfl]
  exact congrArg (compiledReply _) (run_of_empty _)

end Server

end SolidityCanvas
