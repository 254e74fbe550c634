/-
Sessions over the network.

A server is sent requests to compile, one after another: of any sessions, of any
versions and with any bodies (`Server.after`).  Histories list the last request
first.

* `Server.Tracks.reply_eq_superseded_iff`: a request is superseded exactly if a newer
  version of its session was asked for before;
* `Server.IsNew.latest?_after_iff`: the latest result of a session is that of the
  last request of the session that was accepted;
* `Server.IsNew.latest?_after_ofSession`: it is what it would be without the
  requests of other sessions, if the keys of the compiler tell the results apart;
* `Server.latest_of_other_session`: if they do not, it may be the result of
  another session.

The invariant behind this is `Server.Tracks`.
-/
import SolidityCanvas.Proofs.Compiler.Transparency
import SolidityCanvas.Proofs.Server.Posts

namespace SolidityCanvas

namespace Server

variable {s : Server} {x : Post} {r : CompileRequest} {c : Canvas} {catalog : Catalog}
  {h : List Post} {session : String} {version : UInt64} {result : CompileResult}

/-! ### Histories -/

/-- The server after some requests. -/
def after (s : Server) : List Post → Server
  | [] => s
  | x :: earlier => ((s.after earlier).post x).2

/-- A newer version of the session was asked for. -/
def Overtaken (h : List Post) (session : String) (version : UInt64) : Prop :=
  ∃ y ∈ h, ∃ newer, y.Asks session newer ∧ version < newer

/-- The requests of one session, without all others. -/
def ofSession (session : String) (h : List Post) : List Post :=
  h.filter (·.session? == some session)

/-- The server has not been asked for anything. -/
structure IsNew (catalog : Catalog) (s : Server) : Prop where
  sessions : s.sessions = .empty
  compiler : ∃ capacity, s.compiler = Compiler.new catalog capacity

theorem isNew_new (catalog : Catalog) (header : Header) : IsNew catalog (new catalog header) :=
  ⟨rfl, 0, rfl⟩

theorem overtaken_cons : Overtaken (x :: h) session version ↔
    (∃ newer, x.Asks session newer ∧ version < newer) ∨ Overtaken h session version :=
  List.exists_mem_cons_iff ..

/-- The sessions know which versions were asked for. -/
structure Tracks (h : List Post) (s : Server) : Prop where
  hasNewer_iff : ∀ session ≠ "", ∀ version,
    s.sessions.HasNewer session version ↔ Overtaken h session version
  ordered : s.sessions.IsOrdered

theorem IsNew.tracks (hs : s.IsNew catalog) : Tracks [] s := by
  refine ⟨fun session _ version => iff_of_false ?_ ?_, fun session x hx => ?_⟩
  · rintro ⟨_, hn, -⟩
    rw [hs.sessions] at hn
    cases hn
  · rintro ⟨_, hy, -⟩
    cases hy
  · rw [hs.sessions] at hx
    cases hx

/-- **All requests are tracked.** -/
theorem IsNew.tracks_after (hs : s.IsNew catalog) (h : List Post) : Tracks h (s.after h) := by
  induction h with
  | nil => exact hs.tracks
  | cons x h ih =>
    refine ⟨fun session hsession version => ?_, isOrdered_post ih.ordered x⟩
    rw [overtaken_cons, ← ih.hasNewer_iff session hsession]
    exact hasNewer_post ih.ordered hsession x

/-- **When a request is superseded.** -/
theorem Tracks.reply_eq_superseded_iff (hs : Tracks h s) (hx : x.request? = some (r, c)) :
    s.reply x = supersededReply r ↔ r.session ≠ "" ∧ Overtaken h r.session r.version := by
  rw [reply]
  by_cases hempty : r.session = ""
  · rw [post_of_sessionless hx hempty]
    exact iff_of_false (supersededReply_ne r _).symm fun hr => hr.1 hempty
  rw [← hs.hasNewer_iff r.session hempty]
  by_cases hnewer : s.sessions.HasNewer r.session r.version
  · rw [post_of_hasNewer hx hempty hnewer]
    exact iff_of_true rfl ⟨hempty, hnewer⟩
  · rw [(post_of_not_hasNewer hs.ordered hx hempty hnewer).1]
    exact iff_of_false (supersededReply_ne r _).symm fun hr => hnewer hr.2

/-- Otherwise the reply is what comes of the compilation. -/
theorem Tracks.reply_eq_compiled (hs : Tracks h s) (hx : x.request? = some (r, c))
    (hr : ¬(r.session ≠ "" ∧ Overtaken h r.session r.version)) :
    s.reply x = compiledReply r (s.run r c x.canceled).1 := by
  rw [reply]
  by_cases hempty : r.session = ""
  · rw [post_of_sessionless hx hempty]
  · rw [← hs.hasNewer_iff r.session hempty] at hr
    exact (post_of_not_hasNewer hs.ordered hx hempty fun hnewer => hr ⟨hempty, hnewer⟩).1

/-! ### Latest results -/

/-- After some requests, one more of the session is compiled with a result, and is
not superseded. -/
def Accepts (s : Server) (h : List Post) (x : Post) (session : String) (version : UInt64)
    (result : CompileResult) : Prop :=
  ∃ r c, x.request? = some (r, c) ∧ r.session = session ∧ session ≠ "" ∧ r.version = version ∧
    ¬Overtaken h session version ∧ ((s.after h).run r c x.canceled).1 = .ok result

/-- The last request of the session that was accepted had this version and this
result. -/
inductive LastAccepted (s : Server) (session : String) :
    List Post → UInt64 → CompileResult → Prop
  | accepted (earlier : List Post) (x : Post) (version : UInt64) (result : CompileResult)
      (hx : Accepts s earlier x session version result) :
      LastAccepted s session (x :: earlier) version result
  | kept (earlier : List Post) (x : Post) (version : UInt64) (result : CompileResult)
      (hx : ∀ version result, ¬Accepts s earlier x session version result)
      (hearlier : LastAccepted s session earlier version result) :
      LastAccepted s session (x :: earlier) version result

theorem Accepts.unique {version' : UInt64} {result' : CompileResult}
    (hx : Accepts s h x session version result) (hx' : Accepts s h x session version' result') :
    version = version' ∧ result = result' := by
  obtain ⟨r, c, hr, -, -, rfl, -, ho⟩ := hx
  obtain ⟨r', c', hr', -, -, rfl, -, ho'⟩ := hx'
  obtain ⟨rfl, rfl⟩ := Prod.mk.inj (Option.some_inj.mp (hr.symm.trans hr'))
  exact ⟨rfl, Except.ok.inj (ho.symm.trans ho')⟩

/-- What is accepted is the latest result. -/
theorem latest?_of_accepts (hs : Tracks h (s.after h)) (hx : Accepts s h x session version result) :
    (s.after (x :: h)).sessions.latest? session = some (version, result) := by
  obtain ⟨r, c, hr, rfl, hempty, rfl, hnot, ho⟩ := hx
  rw [← hs.hasNewer_iff r.session hempty] at hnot
  obtain ⟨-, -, -, hget, -⟩ := post_of_not_hasNewer hs.ordered hr hempty hnot
  rw [after, SessionStore.latest?, hget, ho]
  rfl

/-- What is not accepted leaves the latest result as it was. -/
theorem latest?_of_not_accepts (hs : Tracks h (s.after h))
    (hx : ∀ version result, ¬Accepts s h x session version result) :
    (s.after (x :: h)).sessions.latest? session = (s.after h).sessions.latest? session := by
  rw [after]
  cases hr : x.request? with
  | none => rw [post_of_none hr]
  | some q =>
    obtain ⟨r, c⟩ := q
    by_cases hempty : r.session = ""
    · rw [post_of_sessionless hr hempty]
      rfl
    by_cases hnewer : (s.after h).sessions.HasNewer r.session r.version
    · rw [post_of_hasNewer hr hempty hnewer]
    obtain ⟨-, -, -, hget, hothers⟩ := post_of_not_hasNewer hs.ordered hr hempty hnewer
    rw [SessionStore.latest?, SessionStore.latest?]
    by_cases hsession : session = r.session
    · subst hsession
      rw [hget]
      cases ho : ((s.after h).run r c x.canceled).1 with
      | error e => rfl
      | ok result =>
        rw [hs.hasNewer_iff r.session hempty] at hnewer
        exact absurd ⟨r, c, hr, rfl, hempty, rfl, hnewer, ho⟩ (hx r.version result)
    · rw [hothers session hsession]

/-- **The latest result is that of the last request that was accepted.** -/
theorem IsNew.latest?_after_iff (hs : s.IsNew catalog) :
    (s.after h).sessions.latest? session = some (version, result) ↔
      LastAccepted s session h version result := by
  induction h with
  | nil =>
    refine iff_of_false (fun hlatest => ?_) nofun
    rw [after, hs.sessions] at hlatest
    cases hlatest
  | cons x h ih =>
    have htracks := hs.tracks_after h
    by_cases hx : ∃ version result, Accepts s h x session version result
    · obtain ⟨version', result', hx⟩ := hx
      rw [latest?_of_accepts htracks hx, Option.some_inj, Prod.mk.injEq]
      constructor
      · rintro ⟨rfl, rfl⟩
        exact .accepted _ _ _ _ hx
      · intro hlast
        cases hlast with
        | accepted _ _ _ _ hx' => exact hx.unique hx'
        | kept _ _ _ _ hnot _ => exact absurd hx (hnot _ _)
    · have hnot : ∀ version result, ¬Accepts s h x session version result :=
        fun version result hx' => hx ⟨version, result, hx'⟩
      rw [latest?_of_not_accepts htracks hnot, ih]
      constructor
      · exact .kept _ _ _ _ hnot
      · intro hlast
        cases hlast with
        | accepted _ _ _ _ hx' => exact absurd hx' (hnot _ _)
        | kept _ _ _ _ _ hearlier => exact hearlier

/-! ### Other sessions -/

theorem mem_ofSession {y : Post} : y ∈ ofSession session h ↔
    y ∈ h ∧ y.session? = some session := by
  rw [ofSession, List.mem_filter, beq_iff_eq]

/-- Whether a newer version was asked for does not depend on other sessions. -/
theorem overtaken_ofSession :
    Overtaken (ofSession session h) session version ↔ Overtaken h session version := by
  constructor
  · rintro ⟨y, hy, hnewer⟩
    exact ⟨y, (mem_ofSession.mp hy).1, hnewer⟩
  · rintro ⟨y, hy, newer, hasks, hlt⟩
    exact ⟨y, mem_ofSession.mpr ⟨hy, hasks.session?_eq⟩, newer, hasks, hlt⟩

/-- What the compiler is asked for in some requests. -/
def calls (s : Server) (h : List Post) : List Call := h.filterMap (Post.call? s.header)

/-- The keys of the compiler tell apart what has to be told apart. -/
structure KeysTell (catalog : Catalog) (calls : List Call) : Prop where
  renders : Entry.KeysTell {e | ∃ x ∈ calls, e ∈ x.Renders catalog}
  results : ∀ x ∈ calls, ∀ y ∈ calls, x.key = y.key → x.outcome catalog = y.outcome catalog

theorem IsNew.header_after (hs : s.IsNew catalog) (h : List Post) :
    (s.after h).header = s.header := by
  induction h with
  | nil => rfl
  | cons x h ih => rw [after, header_post _ (hs.tracks_after h).ordered, ih]

section told

variable {asked : List Call}

/-- One call is answered by its outcome, and what is remembered stays right. -/
theorem KeysTell.step (htell : KeysTell catalog asked) {compiler : Compiler}
    (hright : compiler.Right catalog {e | ∃ x ∈ asked, e ∈ x.Renders catalog} asked)
    {call : Call} (hcall : call ∈ asked) : compiler.answer call = call.outcome catalog ∧
      (compiler.after call).Right catalog {e | ∃ x ∈ asked, e ∈ x.Renders catalog} asked := by
  refine Compiler.Right.step htell.renders ⟨hright.catalog_eq, hright.renders, ?_⟩
    (fun e he => ⟨call, hcall, he⟩) fun y hy hkey r hr => ?_
  · exact List.forall_mem_cons.mpr ⟨hright.results call hcall, hright.results⟩
  · rw [← htell.results call hcall y hy hkey, hr]

theorem calls_cons_subset (hcalls : s.calls (x :: h) ⊆ asked) :
    (∀ call ∈ x.call? s.header, call ∈ asked) ∧ s.calls h ⊆ asked := by
  refine ⟨fun call hcall => hcalls ?_, fun call hcall => hcalls ?_⟩
  · exact List.mem_filterMap.mpr ⟨x, List.mem_cons_self, hcall⟩
  · obtain ⟨y, hy, hcall⟩ := List.mem_filterMap.mp hcall
    exact List.mem_filterMap.mpr ⟨y, List.mem_cons_of_mem _ hy, hcall⟩

/-- **What is remembered stays right.** -/
theorem IsNew.right_after (hs : s.IsNew catalog) (htell : KeysTell catalog asked)
    (hcalls : s.calls h ⊆ asked) (hcanceled : ∀ x ∈ h, x.canceled = false) :
    (s.after h).compiler.Right catalog {e | ∃ x ∈ asked, e ∈ x.Renders catalog} asked := by
  induction h with
  | nil =>
    obtain ⟨capacity, hnew⟩ := hs.compiler
    rw [after, hnew]
    exact Compiler.right_new ..
  | cons x h ih =>
    obtain ⟨hx, hh⟩ := calls_cons_subset hcalls
    obtain ⟨hxc, hhc⟩ := List.forall_mem_cons.mp hcanceled
    have hright := ih hh hhc
    rw [after]
    rcases compiler_post (hs.tracks_after h).ordered hxc with heq | ⟨call, hcall, heq⟩
    · rwa [heq]
    · rw [hs.header_after] at hcall
      rw [heq]
      exact (htell.step hright (hx call hcall)).2

/-- Requests are accepted by what they come to with nothing remembered. -/
theorem IsNew.accepts_iff (hs : s.IsNew catalog) (htell : KeysTell catalog asked)
    (hcalls : s.calls (x :: h) ⊆ asked) (hcanceled : ∀ y ∈ x :: h, y.canceled = false) :
    Accepts s h x session version result ↔ ∃ r c, x.request? = some (r, c) ∧ r.session = session ∧
      session ≠ "" ∧ r.version = version ∧ ¬Overtaken h session version ∧
      Call.outcome catalog ⟨c, r.header.orElse s.header⟩ = .ok result := by
  obtain ⟨hx, hh⟩ := calls_cons_subset hcalls
  obtain ⟨hxc, hhc⟩ := List.forall_mem_cons.mp hcanceled
  refine exists_congr fun r => exists_congr fun c => and_congr_right fun hr => ?_
  have hcall : (⟨c, r.header.orElse s.header⟩ : Call) ∈ asked := by
    refine hx _ ?_
    rw [Post.call?, hr]
    rfl
  rw [hxc, run_fst, hs.header_after h, (htell.step (hs.right_after htell hh hhc) hcall).1]

/-- **The latest result of a session does not depend on other sessions**, if the
keys of the compiler tell apart what has to be told apart and no client went
away. -/
theorem IsNew.latest?_after_ofSession (hs : s.IsNew catalog) (htell : KeysTell catalog asked)
    (hcalls : s.calls h ⊆ asked) (hcanceled : ∀ x ∈ h, x.canceled = false) (session : String) :
    (s.after h).sessions.latest? session =
      (s.after (ofSession session h)).sessions.latest? session := by
  induction h with
  | nil => rfl
  | cons x h ih =>
    have hih := ih (calls_cons_subset hcalls).2 (List.forall_mem_cons.mp hcanceled).2
    by_cases hx : x.session? = some session
    · have hmem : ∀ y ∈ x :: ofSession session h, y ∈ x :: h :=
        List.cons_subset_cons x fun y hy => (mem_ofSession.mp hy).1
      have hcalls' : s.calls (x :: ofSession session h) ⊆ asked := by
        intro call hcall
        obtain ⟨y, hy, hcall⟩ := List.mem_filterMap.mp hcall
        exact hcalls (List.mem_filterMap.mpr ⟨y, hmem y hy, hcall⟩)
      have haccepts : ∀ version result, Accepts s (ofSession session h) x session version result ↔
          Accepts s h x session version result := by
        intro version result
        rw [hs.accepts_iff htell hcalls hcanceled,
          hs.accepts_iff htell hcalls' fun y hy => hcanceled y (hmem y hy)]
        simp only [overtaken_ofSession]
      have hfilter : ofSession session (x :: h) = x :: ofSession session h :=
        List.filter_cons_of_pos (by simpa using hx)
      rw [hfilter]
      by_cases haccepted : ∃ version result, Accepts s h x session version result
      · obtain ⟨version, result, haccepted⟩ := haccepted
        rw [latest?_of_accepts (hs.tracks_after _) haccepted,
          latest?_of_accepts (hs.tracks_after _) ((haccepts _ _).mpr haccepted)]
      · have hnot : ∀ version result, ¬Accepts s h x session version result :=
          fun version result hx' => haccepted ⟨version, result, hx'⟩
        rw [latest?_of_not_accepts (hs.tracks_after _) hnot,
          latest?_of_not_accepts (hs.tracks_after _) fun v r hx' => hnot v r ((haccepts v r).mp hx'),
          hih]
    · have hfilter : ofSession session (x :: h) = ofSession session h :=
        List.filter_cons_of_neg (by simpa using hx)
      rw [hfilter, latest?_of_not_accepts (hs.tracks_after h), hih]
      rintro version result ⟨r, c, hr, rfl, -⟩
      exact hx (by rw [Post.session?, hr]; rfl)

end told

/-! ### Keys that tell -/

theorem described_of_mem_calls {call : Call} (hcall : call ∈ s.calls h) :
    ∀ i ∈ call.canvas.instances, i.properties.Described := by
  obtain ⟨x, _, hx⟩ := List.mem_filterMap.mp hcall
  obtain ⟨q, hq, rfl⟩ := Option.map_eq_some_iff.mp hx
  obtain ⟨j, hj⟩ := exists_ofJson_of_request? hq
  exact Canvas.described_of_ofJson hj

/-- **When keys tell**: digests do not collide, no two numbers are written alike,
and no zero character stands in the first two texts of a header. -/
theorem keysTell_calls {files : List (String × Definitions)}
    (hread : ∀ f ∈ files, ∃ b, Definitions.read b = .ok f.2)
    (hbuild : Catalog.build files = .ok catalog)
    (hhash : Compiler.NoCollision catalog (s.calls h))
    (hN : Number.Distinct (Compiler.numbers catalog (s.calls h)))
    (hseparated : ∀ call ∈ s.calls h, call.header.Separated) : KeysTell catalog (s.calls h) where
  renders := hhash.keysTell (Compiler.rendersTold_of_distinct
    (Catalog.sound_of_build hread hbuild) hN)
  results _ hx _ hy := hhash.outcome_eq hN (fun _ => described_of_mem_calls) hseparated hx hy

/-- **Sessions over the network.**  A new server is sent requests to compile, one
after another.

A request for a canvas is superseded exactly if it has a session in which a newer
version was asked for before; else the reply is what comes of its compilation.
Whether it is superseded does not depend on other sessions, nor on bodies without
such a request.  The latest result of a session is that of its last request that
was compiled with a result and not superseded.

Nor does the latest result depend on other sessions, if no client went away and the
keys of the compiler tell apart what has to be told apart.  They do if digests do
not collide, no two numbers are written alike and no zero character stands in the
first two texts of a header. -/
theorem sessions_of_history (hs : s.IsNew catalog) (h : List Post) :
    (∀ x r c, x.request? = some (r, c) →
      ((s.after h).reply x = supersededReply r ↔
        r.session ≠ "" ∧ Overtaken h r.session r.version) ∧
      (¬(r.session ≠ "" ∧ Overtaken h r.session r.version) →
        (s.after h).reply x = compiledReply r ((s.after h).run r c x.canceled).1) ∧
      ((s.after h).reply x = supersededReply r ↔
        (s.after (ofSession r.session h)).reply x = supersededReply r)) ∧
    (∀ session version result,
      (s.after h).sessions.latest? session = some (version, result) ↔
        LastAccepted s session h version result) ∧
    (KeysTell catalog (s.calls h) → (∀ x ∈ h, x.canceled = false) → ∀ session,
      (s.after h).sessions.latest? session =
        (s.after (ofSession session h)).sessions.latest? session) ∧
    ∀ files, (∀ f ∈ files, ∃ b, Definitions.read b = .ok f.2) →
      Catalog.build files = .ok catalog → Compiler.NoCollision catalog (s.calls h) →
      Number.Distinct (Compiler.numbers catalog (s.calls h)) →
      (∀ call ∈ s.calls h, call.header.Separated) → KeysTell catalog (s.calls h) := by
  refine ⟨fun x r c hx => ⟨?_, ?_, ?_⟩, fun session version result => hs.latest?_after_iff,
    fun htell hcanceled => ?_, fun files hread hbuild => keysTell_calls hread hbuild⟩
  · exact (hs.tracks_after h).reply_eq_superseded_iff hx
  · exact (hs.tracks_after h).reply_eq_compiled hx
  · rw [(hs.tracks_after h).reply_eq_superseded_iff hx,
      (hs.tracks_after _).reply_eq_superseded_iff hx, overtaken_ofSession]
  · exact hs.latest?_after_ofSession htell (List.Subset.refl _) hcanceled

/-- A canvas of one function. -/
def markedCanvas : Canvas where
  instances := [⟨"f", "function", [("name", .string "one")]⟩]

/-- The canvas as a document. -/
def markedText : String :=
  "\x7b\"instances\":[\x7b\"id\":\"f\",\"templateId\":\"function\"," ++
    "\"properties\":\x7b\"name\":\"one\"\x7d\x7d]\x7d"

/-- The document before it is written. -/
def markedJson : Json :=
  .object [("instances", .array [.object [("id", .string "f"), ("templateId", .string "function"),
    ("properties", .object [("name", .string "one")])]])]

/-- A request for the canvas in a session. -/
def markedRequest (session version : String) : Json :=
  .object [("session", .string session), ("version", .number version), ("canvas", markedJson)]

/-- Requests of two sessions, and a body that is cut off. -/
def sampleHistory : List Post :=
  [⟨"\x7b\"session\":", false⟩,
    ⟨"\x7b\"session\":\"b\",\"version\":7,\"canvas\":" ++ markedText ++ "\x7d", false⟩,
    ⟨"\x7b\"session\":\"a\",\"version\":1,\"canvas\":" ++ markedText ++ "\x7d", false⟩]

/-- A request of the first session, of an older version. -/
def stalePost : Post where
  body := "\x7b\"session\":\"a\",\"canvas\":\x7b\x7d\x7d"

theorem request?_sampleHistory : sampleHistory.map Post.request? =
    [none, some (⟨"b", 7, some markedCanvas, {}⟩, markedCanvas),
      some (⟨"a", 1, some markedCanvas, {}⟩, markedCanvas)] := by
  have hnumber : ∀ t ∈ ["1", "7"], Json.IsNumber t := by
    intro t ht
    simp only [List.mem_cons, List.not_mem_nil, or_false] at ht
    rcases ht with rfl | rfl <;> exact ⟨_, _, _, _, rfl, rfl, rfl, rfl⟩
  have hread : ∀ (x : Post) (session version : String), version ∈ ["1", "7"] →
      x.body = (markedRequest session version).text ∧ x.body.utf8ByteSize ≤ maxBodyBytes →
      ∀ r, CompileRequest.ofJson (markedRequest session version) = .ok r →
        r.canvas = some markedCanvas → x.request? = some (r, markedCanvas) :=
    fun x session version hversion hbody r hr hc => Post.request?_eq_some hbody
      (by simp [markedJson, Json.Readable.number (hnumber version hversion)])
      (Nat.le_of_ble_eq_true rfl) hr hc
  have hcut : (⟨"\x7b\"session\":", false⟩ : Post).request? = none := (rfl)
  have hother := hread
    ⟨"\x7b\"session\":\"b\",\"version\":7,\"canvas\":" ++ markedText ++ "\x7d", false⟩ "b" "7"
    (by decide) ⟨rfl, by decide⟩ ⟨"b", 7, some markedCanvas, {}⟩ (rfl) rfl
  have hfirst := hread
    ⟨"\x7b\"session\":\"a\",\"version\":1,\"canvas\":" ++ markedText ++ "\x7d", false⟩ "a" "1"
    (by decide) ⟨rfl, by decide⟩ ⟨"a", 1, some markedCanvas, {}⟩ (rfl) rfl
  rw [sampleHistory, List.map_cons, List.map_cons, List.map_cons, List.map_nil, hcut, hother, hfirst]

theorem request?_stalePost : stalePost.request? = some (⟨"a", 0, some {}, {}⟩, {}) :=
  Post.request?_eq_some (⟨rfl, by decide⟩ : stalePost.body =
    (Json.object [("session", .string "a"), ("canvas", .object [])]).text ∧ _) (by simp) (by decide)
    (rfl) rfl

theorem calls_sampleHistory :
    ∀ call ∈ (new Catalog.sample {}).calls sampleHistory, call = ⟨markedCanvas, {}⟩ := by
  intro call hcall
  obtain ⟨x, hx, hcall⟩ := List.mem_filterMap.mp hcall
  obtain ⟨⟨r, c⟩, hrequest, rfl⟩ := Option.map_eq_some_iff.mp hcall
  have hmem := List.mem_map_of_mem (f := Post.request?) hx
  rw [request?_sampleHistory, hrequest] at hmem
  have hheader : Header.orElse {} (new Catalog.sample {}).header = {} := rfl
  simp only [List.mem_cons, reduceCtorEq, Option.some.injEq, Prod.mk.injEq, List.not_mem_nil,
    or_false, false_or] at hmem
  rcases hmem with ⟨rfl, rfl⟩ | ⟨rfl, rfl⟩ <;> rw [hheader]

/-- The older version is superseded, and the other session and the body that is cut
off change nothing for the session. -/
theorem stale_is_superseded : IsNew Catalog.sample (new Catalog.sample {}) ∧
    stalePost.request? = some (⟨"a", 0, some {}, {}⟩, {}) ∧
    ((new Catalog.sample {}).after sampleHistory).reply stalePost =
      supersededReply ⟨"a", 0, some {}, {}⟩ ∧
    KeysTell Catalog.sample ((new Catalog.sample {}).calls sampleHistory) ∧
    ((new Catalog.sample {}).after sampleHistory).sessions.latest? "a" =
      ((new Catalog.sample {}).after (ofSession "a" sampleHistory)).sessions.latest? "a" := by
  have hs := isNew_new Catalog.sample {}
  obtain ⟨a, e, ha, hentries⟩ : ∃ a e, markedCanvas.arrange Catalog.sample = .ok (.ok a) ∧
      a.entries = [e] := ⟨_, _, rfl, rfl⟩
  -- All calls render the one entry.
  have honly : ∀ call ∈ (new Catalog.sample {}).calls sampleHistory,
      ∀ e' ∈ call.Renders Catalog.sample, e' = e := by
    rintro call hcall e' ⟨_, a', -, -, ha', he'⟩
    rw [calls_sampleHistory call hcall, ha] at ha'
    obtain rfl := Except.ok.inj (Except.ok.inj ha')
    have hmem := mem_of_mem_reached he'
    rw [hentries] at hmem
    exact List.mem_singleton.mp hmem
  have htell : KeysTell Catalog.sample ((new Catalog.sample {}).calls sampleHistory) := by
    refine ⟨?_, fun call hcall call' hcall' _ => ?_⟩
    · rintro e₁ ⟨call, hcall, he₁⟩ e₂ ⟨call', hcall', he₂⟩ -
      rw [honly call hcall e₁ he₁, honly call' hcall' e₂ he₂]
    · rw [calls_sampleHistory call hcall, calls_sampleHistory call' hcall']
  obtain ⟨hreply, -, hlatest, -⟩ := sessions_of_history hs sampleHistory
  refine ⟨hs, request?_stalePost, ?_, htell, hlatest htell ?_ "a"⟩
  · refine (hreply _ _ _ request?_stalePost).1.mpr ⟨by decide, ?_⟩
    have hfirst := (List.cons.inj (List.cons.inj (List.cons.inj request?_sampleHistory).2).2).1
    exact ⟨_, by simp [sampleHistory], 1, ⟨_, hfirst, rfl, rfl⟩, by decide⟩
  · simp [sampleHistory]

/-! ### A result of another session -/

/-- A request of a session for an empty canvas. -/
def earlierPost : Post where
  body := "\x7b\"session\":\"a\",\"version\":1,\"canvas\":\x7b\x7d,\"header\":\x7b" ++
    "\"contractName\":\"A\",\"license\":\"B\\u0000C\",\"pragma\":\"^0.8.20\"\x7d\x7d"

/-- A request of another session for it, with another header that is joined to the
same text. -/
def laterPost : Post where
  body := "\x7b\"session\":\"b\",\"version\":1,\"canvas\":\x7b\x7d,\"header\":\x7b" ++
    "\"contractName\":\"A\\u0000B\",\"license\":\"C\",\"pragma\":\"^0.8.20\"\x7d\x7d"

/-- The documents of these requests. -/
def emptyRequest (session : String) (h : Header) : Json :=
  .object [("session", .string session), ("version", .number "1"), ("canvas", .object []),
    ("header", .object [("contractName", .string h.contractName), ("license", .string h.license),
      ("pragma", .string h.pragma)])]

theorem readable_emptyRequest (session : String) (h : Header) :
    (emptyRequest session h).Readable := by
  have hone : Json.IsNumber "1" := ⟨_, _, _, _, rfl, rfl, rfl, rfl⟩
  simp [emptyRequest, Json.Readable.number hone]

theorem request?_earlierPost : earlierPost.request? =
    some (⟨"a", 1, some {}, ⟨"A", "B\x00C", "^0.8.20"⟩⟩, {}) :=
  Post.request?_eq_some (⟨rfl, by decide⟩ : earlierPost.body =
    (emptyRequest "a" ⟨"A", "B\x00C", "^0.8.20"⟩).text ∧ _) (readable_emptyRequest _ _) (by decide)
    (rfl) rfl

theorem request?_laterPost : laterPost.request? =
    some (⟨"b", 1, some {}, ⟨"A\x00B", "C", "^0.8.20"⟩⟩, {}) :=
  Post.request?_eq_some (⟨rfl, by decide⟩ : laterPost.body =
    (emptyRequest "b" ⟨"A\x00B", "C", "^0.8.20"⟩).text ∧ _) (readable_emptyRequest _ _) (by decide)
    (rfl) rfl

theorem calls_clashing : (new {} {}).calls [laterPost, earlierPost] = Compiler.clashingCalls := by
  simp [calls, Post.call?, request?_laterPost, request?_earlierPost, Header.orElse,
    Compiler.clashingCalls]

theorem ofSession_clashing : ofSession "b" [laterPost, earlierPost] = [laterPost] := by
  simp [ofSession, Post.session?, request?_laterPost, request?_earlierPost]

/-- The result for an empty canvas. -/
def emptyResult (h : Header) : CompileResult where
  status := .emitted
  document := some (Document.ofRendered h.withDefaults.withDefaults [0, 0, 0, 0, 0, 0] [])
  interface := some {}
  diagnostics := some []

theorem firstAnswer_clashing {h : Header} (hcall : (⟨{}, h⟩ : Call) ∈ Compiler.clashingCalls) :
    Compiler.firstAnswer {} 0 ⟨{}, h⟩ = .ok (emptyResult h) :=
  Compiler.noCollision_clashingCalls.firstAnswer_eq_outcome Compiler.rendersTold_clashingCalls
    hcall 0

/-- The compiler of a new server answers the later call by what it has answered the
earlier one. -/
theorem answer_clashing : ((Compiler.new {} 0).after ⟨{}, ⟨"A", "B\x00C", "^0.8.20"⟩⟩).answer
    ⟨{}, ⟨"A\x00B", "C", "^0.8.20"⟩⟩ = .ok (emptyResult ⟨"A", "B\x00C", "^0.8.20"⟩) := by
  have hmessage : (⟨{}, ⟨"A\x00B", "C", "^0.8.20"⟩⟩ : Call).message =
      (⟨{}, ⟨"A", "B\x00C", "^0.8.20"⟩⟩ : Call).message :=
    Call.message_eq_iff.mpr ⟨rfl, by decide⟩
  have hkey : (⟨{}, ⟨"A\x00B", "C", "^0.8.20"⟩⟩ : Call).key =
      (⟨{}, ⟨"A", "B\x00C", "^0.8.20"⟩⟩ : Call).key := by
    rw [Call.key_eq, Call.key_eq, hmessage]
  obtain ⟨-, hfind, -⟩ := Compiler.find?_after (c := Compiler.new {} 0) (by decide)
    ⟨{}, ⟨"A", "B\x00C", "^0.8.20"⟩⟩
  have hfirst := hfind _ (firstAnswer_clashing (by simp [Compiler.clashingCalls]))
  rw [← hkey] at hfirst
  rw [Compiler.answer, Compiler.compile_of_some hfirst]

/-- **The latest result of a session can be that of another one**, with all else as
it should be: the header texts of the two requests differ, and so do the
documents. -/
theorem latest_of_other_session :
    IsNew {} (new {} {}) ∧ (∀ x ∈ [laterPost, earlierPost], x.canceled = false) ∧
      Catalog.build [] = .ok {} ∧
      Compiler.NoCollision {} ((new {} {}).calls [laterPost, earlierPost]) ∧
      Number.Distinct (Compiler.numbers {} ((new {} {}).calls [laterPost, earlierPost])) ∧
      ((new {} {}).after [laterPost, earlierPost]).sessions.latest? "b" ≠
        ((new {} {}).after (ofSession "b" [laterPost, earlierPost])).sessions.latest? "b" := by
  have hs := isNew_new {} {}
  have hearlier : ¬Overtaken [earlierPost] "b" 1 := by
    rintro ⟨y, hy, newer, hasks, -⟩
    rw [List.mem_singleton.mp hy, asks_iff request?_earlierPost] at hasks
    exact absurd hasks.1 (by decide)
  -- The first request is compiled, and leaves its result behind.
  have hcompiler : ((new {} {}).after [earlierPost]).compiler =
      (Compiler.new {} 0).after ⟨{}, ⟨"A", "B\x00C", "^0.8.20"⟩⟩ := by
    have hnot : ¬(new {} {}).sessions.HasNewer "a" 1 := by
      rintro ⟨_, hn, -⟩
      cases hn
    have hpost := post_of_not_hasNewer hs.tracks.ordered request?_earlierPost (by decide) hnot
    exact hpost.2.1.trans (compiler_run ..)
  have hboth : Accepts (new {} {}) [earlierPost] laterPost "b" 1
      (emptyResult ⟨"A", "B\x00C", "^0.8.20"⟩) := by
    refine ⟨_, _, request?_laterPost, rfl, by decide, rfl, hearlier, ?_⟩
    rw [← answer_clashing, ← hcompiler]
    exact run_fst ..
  have halone : Accepts (new {} {}) [] laterPost "b" 1
      (emptyResult ⟨"A\x00B", "C", "^0.8.20"⟩) := by
    have hfirst : Compiler.firstAnswer {} 0 ⟨{}, ⟨"A\x00B", "C", "^0.8.20"⟩⟩ =
        .ok (emptyResult ⟨"A\x00B", "C", "^0.8.20"⟩) :=
      firstAnswer_clashing (by simp [Compiler.clashingCalls])
    have hnothing : ¬Overtaken [] "b" 1 := by
      rintro ⟨y, hy, -⟩
      exact absurd hy List.not_mem_nil
    exact ⟨_, _, request?_laterPost, rfl, by decide, rfl, hnothing, (run_fst ..).trans hfirst⟩
  refine ⟨hs, ?_, rfl, ?_, ?_, ?_⟩
  · exact List.forall_mem_cons.mpr ⟨rfl, List.forall_mem_singleton.mpr rfl⟩
  · rw [calls_clashing]
    exact Compiler.noCollision_clashingCalls
  · rw [calls_clashing]
    exact Compiler.distinct_clashingCalls
  · rw [ofSession_clashing, latest?_of_accepts (hs.tracks_after _) hboth,
      latest?_of_accepts (hs.tracks_after _) halone]
    intro heq
    have hsource := congrArg CompileResult.source (Prod.mk.inj (Option.some_inj.mp heq)).2
    exact absurd hsource (by decide)

end Server

end SolidityCanvas
