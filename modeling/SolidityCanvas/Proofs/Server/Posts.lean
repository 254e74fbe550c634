/-
One request to a server.

A server is sent requests to compile over the network (`Server.post`).  A request
is superseded, or the reply is what comes of its compilation
(`Server.post_of_hasNewer`, `Server.post_of_not_hasNewer`), and the two are told
apart (`Server.supersededReply_ne`).  The sessions know of its version afterwards,
and of what they knew before (`Server.hasNewer_post`).
-/
import SolidityCanvas.Proofs.Canvas.Content
import SolidityCanvas.Proofs.Compiler.Memory
import SolidityCanvas.Proofs.Json.Reading
import SolidityCanvas.Proofs.Session.Forgetting
import SolidityCanvas.Server

namespace SolidityCanvas

/-- What each step keeps, all of them keep. -/
theorem foldlM_induction {ε α β : Type} {f : β → α → Except ε β} {P : β → Prop}
    (hf : ∀ b a b', P b → f b a = .ok b' → P b') : ∀ {l : List α} {b b' : β}, P b →
      l.foldlM f b = .ok b' → P b' := by
  intro l
  induction l with
  | nil => exact fun hb h => Except.ok.inj h ▸ hb
  | cons a l ih =>
    intro b b' hb h
    rw [List.foldlM_cons] at h
    obtain ⟨next, hnext, h⟩ := except_bind_eq_ok.mp h
    exact ih (hf b a next hb hnext) h

/-- How a row of members is written, up to the last one. -/
theorem Json.exists_membersText (members : List (String × Json)) : ∃ t, ∀ m : String × Json,
    membersText (members ++ [m]) = t ++ quotedText m.1 ++ ":" ++ m.2.text := by
  induction members with
  | nil => exact ⟨"", fun m => by simp [membersText]⟩
  | cons a members ih =>
    obtain ⟨t, ht⟩ := ih
    refine ⟨quotedText a.1 ++ ":" ++ a.2.text ++ "," ++ t, fun m => ?_⟩
    obtain ⟨b, rest, hrest⟩ : ∃ b rest, members ++ [m] = b :: rest := by
      cases members with
      | nil => exact ⟨_, _, rfl⟩
      | cons b members => exact ⟨_, _, rfl⟩
    rw [List.cons_append, hrest, membersText, ← hrest, ht m]
    simp only [String.append_assoc]

/-! ### Requests -/

/-- A POST request to the place where canvases are compiled. -/
structure Post where
  body : String
  /-- Whether the client went away. -/
  canceled : Bool := false

namespace Post

/-- The request in the body and its canvas, if there is one. -/
def request? (x : Post) : Option (CompileRequest × Canvas) :=
  (Server.requestOf x.body).toOption.bind fun r => r.canvas.map fun c => (r, c)

/-- The text of an object holds the request that the object does. -/
theorem request?_eq_some {x : Post} {members : List (String × Json)} {r : CompileRequest}
    {c : Canvas}
    (hbody : x.body = (Json.object members).text ∧ x.body.utf8ByteSize ≤ Server.maxBodyBytes)
    (hreadable : (Json.object members).Readable)
    (hdepth : (Json.object members).depth ≤ Json.maxDepth)
    (hr : CompileRequest.ofJson (.object members) = .ok r) (hc : r.canvas = some c) :
    x.request? = some (r, c) := by
  have hread : Server.requestOf x.body = .ok r := by
    rw [Server.requestOf, Http.firstBytes, if_pos hbody.2, hbody.1,
      Json.parseFirst?_text (Json.readable_object_iff.mp hreadable), if_pos hdepth]
    exact hr
  rw [request?, hread, Except.toOption, Option.bind_some, hc, Option.map_some]

/-- The body asks for a canvas to be compiled as a version of a session. -/
def Asks (x : Post) (session : String) (version : UInt64) : Prop :=
  ∃ q, x.request? = some q ∧ q.1.session = session ∧ q.1.version = version

/-- The session of the request. -/
def session? (x : Post) : Option String := x.request?.map (·.1.session)

/-- What the compiler is asked for, if it is asked. -/
def call? (header : Header) (x : Post) : Option Call :=
  x.request?.map fun q => ⟨q.2, q.1.header.orElse header⟩

theorem Asks.session?_eq {x : Post} {session : String} {version : UInt64}
    (hx : x.Asks session version) : x.session? = some session := by
  obtain ⟨q, hq, rfl, -⟩ := hx
  rw [session?, hq]
  rfl

end Post

namespace Server

/-- The reply to a request, and the server afterwards. -/
def post (s : Server) (x : Post) : Http.Reply × Server :=
  s.handle "POST" "/compile" x.body x.canceled

/-- The reply to a request. -/
def reply (s : Server) (x : Post) : Http.Reply := (s.post x).1

/-- The reply that a request is superseded. -/
def supersededReply (r : CompileRequest) : Http.Reply :=
  jsonReply 200
    { session := r.session, version := r.version, superseded := true : CompileResponse }.toJson

/-- The reply with the result of a compilation, or with its error. -/
def compiledReply (r : CompileRequest) : Except CompileError CompileResult → Http.Reply
  | .ok result => jsonReply 200
      { session := r.session, version := r.version, result := some result : CompileResponse }.toJson
  | .error .broken => .dropped
  | .error e => errorReply (Fault.compile e).status {
      session := r.session, version := r.version
      error := (Fault.compile e).message reportedFaults }

/-! ### Replies -/

/-- The two kinds of replies are told apart. -/
theorem supersededReply_ne (r : CompileRequest) (o : Except CompileError CompileResult) :
    supersededReply r ≠ compiledReply r o := by
  intro h
  cases o with
  | error e =>
    have hstatus := congrArg Http.Reply.status h
    cases e with
    | canceled => exact absurd (show 200 = 503 from hstatus) (by decide)
    | invariant f => exact absurd (show 200 = 500 from hstatus) (by decide)
    | broken => exact absurd (show 200 = 0 from hstatus) (by decide)
  | ok result =>
    obtain ⟨t, ht⟩ := Json.exists_membersText
      (Json.textMember "session" r.session ++ Json.wordMember "version" r.version)
    have hbody : Json.text (.object (Json.textMember "session" r.session ++
          Json.wordMember "version" r.version ++ [("superseded", .bool true)])) ++ "\n" =
        Json.text (.object (Json.textMember "session" r.session ++
          Json.wordMember "version" r.version ++ [("result", result.toJson)])) ++ "\n" := by
      simpa [supersededReply, compiledReply, jsonReply, CompileResponse.toJson, Json.flagMember]
        using congrArg Http.Reply.body h
    have hsuperseded : Json.quotedText "superseded" = "\"superseded\"" := by decide
    have hresult : Json.quotedText "result" = "\"result\"" := by decide
    rw [Json.text, Json.text, ht, ht, hsuperseded, hresult] at hbody
    -- The last members have different names.
    simp [← String.toList_inj] at hbody

end Server

/-! ### One request -/

namespace SessionStore

variable {α : Type}

/-- A newer version of the session has begun. -/
def HasNewer (store : SessionStore α) (session : String) (version : UInt64) : Prop :=
  ∃ newest ∈ (store.get session).newest, version < newest

/-- The results are not newer than what has begun. -/
def IsOrdered (store : SessionStore α) : Prop :=
  ∀ session, ∀ x ∈ (store.get session).result,
    ∃ newest ∈ (store.get session).newest, x.1 ≤ newest

/-- The store after a version has begun. -/
def begun (store : SessionStore α) (session : String) (version : UInt64) : SessionStore α :=
  store.set session { store.get session with newest := some version }

/-- What is known of a session after a version was compiled in it. -/
def settled {ε : Type} (s : Session α) (version : UInt64) : Except ε α → Session α
  | .ok result => { newest := some version, result := some (version, result) }
  | .error _ => { s with newest := some version }

theorem newest_settled {ε : Type} (s : Session α) (version : UInt64) (o : Except ε α) :
    (settled s version o).newest = some version := by
  cases o with
  | error e => rfl
  | ok result => rfl

variable {store : SessionStore α} {session : String} {version : UInt64}

theorem begin_of_hasNewer (h : store.HasNewer session version) :
    store.begin session version = (false, store) := by
  obtain ⟨newest, hn, hlt⟩ := h
  rcases begin_cases store session version with ⟨-, heq⟩ | ⟨hle, -⟩
  · exact heq
  · exact absurd hlt (UInt64.not_lt.mpr (hle newest hn))

theorem begin_of_not_hasNewer (h : ¬store.HasNewer session version) :
    store.begin session version = (true, store.begun session version) := by
  rcases begin_cases store session version with ⟨hnewer, -⟩ | ⟨-, heq⟩
  · exact absurd hnewer h
  · exact heq

/-- What has begun last completes. -/
theorem complete_of_begun (hstore : store.IsOrdered) (h : ¬store.HasNewer session version)
    (result : α) : (store.begun session version).complete session version result =
      (true, (store.begun session version).set session
        { newest := some version, result := some (version, result) }) := by
  have hallows : ((store.begun session version).get session).Allows version := by
    rw [begun, get_set_self]
    refine ⟨fun newest hn => Option.some_inj.mp hn ▸ UInt64.le_refl _, fun x hx => ?_⟩
    obtain ⟨newest, hn, hle⟩ := hstore session x hx
    exact UInt64.le_trans hle (UInt64.not_lt.mp fun hlt => h ⟨newest, hn, hlt⟩)
  have htrue : ((store.begun session version).complete session version result).1 = true :=
    complete_eq_true_iff.mpr hallows
  rcases complete_cases (store.begun session version) session version result with
    ⟨-, heq⟩ | ⟨-, heq⟩
  · rw [heq] at htrue
    cases htrue
  · rw [heq, begun, get_set_self]

end SessionStore

namespace Server

variable {s : Server} {x : Post} {r : CompileRequest} {c : Canvas}

theorem handle_compile (s : Server) (body : String) (canceled : Bool) :
    s.handle "POST" "/compile" body canceled = s.handleCompile "POST" body canceled := by
  have hpath : String.ofList ("/compile".toList.takeWhile (· != '?')) = "/compile" := by decide
  have hstraight : Http.straightPath "/compile" = "/compile" := by decide
  have hleads : leadsTo "/compile" "/compile" = true := by decide +kernel
  simp only [handle, hpath, hstraight, hleads]
  rfl

theorem request?_eq_some : x.request? = some (r, c) ↔
    requestOf x.body = .ok r ∧ r.canvas = some c := by
  rw [Post.request?]
  cases requestOf x.body with
  | error f => simp [Except.toOption]
  | ok q =>
    simp only [Except.toOption, Option.bind_some, Option.map_eq_some_iff, Prod.mk.injEq,
      Except.ok.injEq]
    constructor
    · rintro ⟨_, hc, rfl, rfl⟩
      exact ⟨rfl, hc⟩
    · rintro ⟨rfl, hc⟩
      exact ⟨_, hc, rfl, rfl⟩

/-- Bodies without a request for a canvas change nothing. -/
theorem post_of_none (h : x.request? = none) : (s.post x).2 = s := by
  rw [post, handle_compile, handleCompile, if_neg (by decide)]
  cases hr : requestOf x.body with
  | error f => rfl
  | ok r =>
    cases hcanvas : r.canvas with
    | some c => exact absurd (request?_eq_some.mpr ⟨hr, hcanvas⟩) (by simp [h])
    | none => simp only [compile, hcanvas]

/-- The reply is that of the compilation. -/
theorem post_of_some (h : x.request? = some (r, c)) : r.canvas = some c ∧
    (s.post x) = match s.compile r x.canceled with
      | (.ok response, s) => (jsonReply 200 response.toJson, s)
      | (.error (.compile .broken), s) => (.dropped, s)
      | (.error e, s) => (errorReply e.status {
          session := r.session, version := r.version, error := e.message reportedFaults }, s) := by
  obtain ⟨hr, hcanvas⟩ := request?_eq_some.mp h
  rw [post, handle_compile, handleCompile, if_neg (by decide), hr]
  exact ⟨hcanvas, rfl⟩

/-- A request without a session is compiled. -/
theorem post_of_sessionless (h : x.request? = some (r, c)) (hsession : r.session = "") :
    s.post x = (compiledReply r (s.run r c x.canceled).1, (s.run r c x.canceled).2) := by
  obtain ⟨hcanvas, hpost⟩ := post_of_some (s := s) h
  have hempty : r.session.isEmpty = true := by simp [hsession]
  rw [hpost, compile, hcanvas]
  simp only [hempty, if_true]
  rcases s.run r c x.canceled with ⟨o, after⟩
  cases o with
  | error e => cases e <;> rfl
  | ok result => rfl

/-- A request is superseded, and changes nothing, if a newer version has begun. -/
theorem post_of_hasNewer (h : x.request? = some (r, c)) (hsession : r.session ≠ "")
    (hnewer : s.sessions.HasNewer r.session r.version) : s.post x = (supersededReply r, s) := by
  obtain ⟨hcanvas, hpost⟩ := post_of_some (s := s) h
  have hsome : r.session.isEmpty = false := by simpa using hsession
  rw [hpost, compile, hcanvas]
  simp only [hsome, Bool.false_eq_true, if_false, SessionStore.begin_of_hasNewer hnewer]
  rfl

/-- Otherwise it is compiled, and what comes of it is known of its session. -/
theorem post_of_not_hasNewer (hs : s.sessions.IsOrdered) (h : x.request? = some (r, c))
    (hsession : r.session ≠ "") (hnewer : ¬s.sessions.HasNewer r.session r.version) :
    (s.post x).1 = compiledReply r (s.run r c x.canceled).1 ∧
      (s.post x).2.compiler = (s.run r c x.canceled).2.compiler ∧ (s.post x).2.header = s.header ∧
      (s.post x).2.sessions.get r.session = SessionStore.settled (s.sessions.get r.session)
        r.version (s.run r c x.canceled).1 ∧
      ∀ session ≠ r.session, (s.post x).2.sessions.get session = s.sessions.get session := by
  obtain ⟨hcanvas, hpost⟩ := post_of_some (s := s) h
  have hsome : r.session.isEmpty = false := by simpa using hsession
  -- The sessions take no part in the compilation.
  have hrun : { s with sessions := s.sessions.begun r.session r.version }.run r c x.canceled =
      ((s.run r c x.canceled).1, { (s.run r c x.canceled).2 with
        sessions := s.sessions.begun r.session r.version }) := rfl
  have hheader : (s.run r c x.canceled).2.header = s.header := rfl
  rw [hpost, compile, hcanvas]
  simp only [hsome, Bool.false_eq_true, if_false, SessionStore.begin_of_not_hasNewer hnewer, hrun]
  generalize s.run r c x.canceled = ran at hheader ⊢
  obtain ⟨o, after⟩ := ran
  cases o with
  | error e =>
    have hothers : ∀ session ≠ r.session, (s.sessions.begun r.session r.version).get session =
        s.sessions.get session := fun session hne => SessionStore.get_set_of_ne hne _
    cases e <;> exact ⟨rfl, rfl, hheader, SessionStore.get_set_self .., hothers⟩
  | ok result =>
    dsimp only
    rw [SessionStore.complete_of_begun hs hnewer result]
    refine ⟨rfl, rfl, hheader, SessionStore.get_set_self .., fun session hne => ?_⟩
    exact (SessionStore.get_set_of_ne hne _).trans (SessionStore.get_set_of_ne hne _)

/-! ### What a request changes -/

variable {session : String} {version : UInt64}

theorem asks_iff (hx : x.request? = some (r, c)) :
    x.Asks session version ↔ r.session = session ∧ r.version = version := by
  rw [Post.Asks, hx]
  constructor
  · rintro ⟨_, ⟨⟩, hq⟩
    exact hq
  · exact fun hq => ⟨_, rfl, hq⟩

/-- **What a request changes**: the sessions know of its version, and of what they
knew before. -/
theorem hasNewer_post (hs : s.sessions.IsOrdered) (hsession : session ≠ "") (x : Post) :
    (s.post x).2.sessions.HasNewer session version ↔
      (∃ newer, x.Asks session newer ∧ version < newer) ∨ s.sessions.HasNewer session version := by
  cases hx : x.request? with
  | none =>
    rw [post_of_none hx]
    exact (or_iff_right fun ⟨_, ⟨_, hq, _⟩, _⟩ => absurd (hx.symm.trans hq) (by simp)).symm
  | some q =>
    obtain ⟨r, c⟩ := q
    have hasks : (∃ newer, x.Asks session newer ∧ version < newer) ↔
        r.session = session ∧ version < r.version := by
      simp only [asks_iff hx, and_assoc, exists_and_left, exists_eq_left']
    rw [hasks]
    by_cases hempty : r.session = ""
    · rw [post_of_sessionless hx hempty]
      exact (or_iff_right fun hr => hsession (hr.1.symm.trans hempty)).symm
    by_cases hnewer : s.sessions.HasNewer r.session r.version
    · rw [post_of_hasNewer hx hempty hnewer]
      refine (or_iff_right_of_imp ?_).symm
      -- What is older than this version is older than the newer one as well.
      rintro ⟨rfl, hlt⟩
      obtain ⟨newest, hn, hle⟩ := hnewer
      exact ⟨newest, hn, UInt64.lt_trans hlt hle⟩
    obtain ⟨-, -, -, hget, hothers⟩ := post_of_not_hasNewer hs hx hempty hnewer
    by_cases hr : session = r.session
    · subst hr
      rw [SessionStore.HasNewer, hget, SessionStore.newest_settled]
      constructor
      · rintro ⟨_, ⟨⟩, hlt⟩
        exact .inl ⟨rfl, hlt⟩
      · rintro (⟨-, hlt⟩ | ⟨newest, hn, hlt⟩)
        · exact ⟨_, rfl, hlt⟩
        · have hle := UInt64.not_lt.mp fun hlt => hnewer ⟨newest, hn, hlt⟩
          exact ⟨_, rfl, UInt64.lt_of_lt_of_le hlt hle⟩
    · rw [SessionStore.HasNewer, hothers session hr]
      exact (or_iff_right fun hq => hr hq.1.symm).symm

theorem isOrdered_post (hs : s.sessions.IsOrdered) (x : Post) :
    (s.post x).2.sessions.IsOrdered := by
  cases hx : x.request? with
  | none => rwa [post_of_none hx]
  | some q =>
    obtain ⟨r, c⟩ := q
    by_cases hempty : r.session = ""
    · rw [post_of_sessionless hx hempty]
      exact hs
    by_cases hnewer : s.sessions.HasNewer r.session r.version
    · rwa [post_of_hasNewer hx hempty hnewer]
    obtain ⟨-, -, -, hget, hothers⟩ := post_of_not_hasNewer hs hx hempty hnewer
    intro session y hy
    by_cases hr : session = r.session
    · subst hr
      rw [hget] at hy ⊢
      refine ⟨_, SessionStore.newest_settled .., ?_⟩
      cases ho : (s.run r c x.canceled).1 with
      | error e =>
        -- The result is still the one from before.
        rw [ho] at hy
        obtain ⟨newest, hn, hle⟩ := hs _ y hy
        exact UInt64.le_trans hle (UInt64.not_lt.mp fun hlt => hnewer ⟨newest, hn, hlt⟩)
      | ok result =>
        rw [ho] at hy
        obtain rfl := Option.some_inj.mp hy
        exact UInt64.le_refl _
    · rw [hothers session hr] at hy ⊢
      exact hs session y hy

theorem header_post (s : Server) (hs : s.sessions.IsOrdered) (x : Post) :
    (s.post x).2.header = s.header := by
  cases hr : x.request? with
  | none => rw [post_of_none hr]
  | some q =>
    obtain ⟨r, c⟩ := q
    by_cases hempty : r.session = ""
    · rw [post_of_sessionless hr hempty]
      rfl
    by_cases hnewer : s.sessions.HasNewer r.session r.version
    · rw [post_of_hasNewer hr hempty hnewer]
    · exact (post_of_not_hasNewer hs hr hempty hnewer).2.2.1

/-- A client that stays gets what the compiler answers. -/
theorem run_fst (s : Server) (r : CompileRequest) (c : Canvas) :
    (s.run r c false).1 = s.compiler.answer ⟨c, r.header.orElse s.header⟩ := rfl

theorem compiler_run (s : Server) (r : CompileRequest) (c : Canvas) :
    (s.run r c false).2.compiler = s.compiler.after ⟨c, r.header.orElse s.header⟩ := rfl

/-- The compiler either does nothing or compiles the canvas. -/
theorem compiler_post_eq (hs : s.sessions.IsOrdered) (x : Post) :
    (s.post x).2.compiler = s.compiler ∨ ∃ call, x.call? s.header = some call ∧
      (s.post x).2.compiler = (s.compiler.compile call.canvas call.header x.canceled).2 := by
  cases hr : x.request? with
  | none => exact .inl (by rw [post_of_none hr])
  | some q =>
    obtain ⟨r, c⟩ := q
    have hcall : x.call? s.header = some ⟨c, r.header.orElse s.header⟩ := by
      rw [Post.call?, hr]
      rfl
    by_cases hempty : r.session = ""
    · refine .inr ⟨_, hcall, ?_⟩
      rw [post_of_sessionless hr hempty]
      rfl
    by_cases hnewer : s.sessions.HasNewer r.session r.version
    · exact .inl (by rw [post_of_hasNewer hr hempty hnewer])
    · refine .inr ⟨_, hcall, ?_⟩
      rw [(post_of_not_hasNewer hs hr hempty hnewer).2.1]
      rfl

/-- The compiler either does nothing or answers the call. -/
theorem compiler_post (hs : s.sessions.IsOrdered) (hcanceled : x.canceled = false) :
    (s.post x).2.compiler = s.compiler ∨
      ∃ call, x.call? s.header = some call ∧ (s.post x).2.compiler = s.compiler.after call := by
  have h := compiler_post_eq hs x
  rw [hcanceled] at h
  exact h

/-! ### Canvases of requests -/

/-- The canvas of a request is read from a document. -/
theorem exists_ofJson_of_canvasOf {members : List (String × Json)} {o : Option Canvas}
    (h : CompileRequest.canvasOf members = .ok o) : ∀ d ∈ o, ∃ j, Canvas.ofJson j = .ok d := by
  refine foldlM_induction (P := fun o => ∀ d ∈ o, ∃ j, Canvas.ofJson j = .ok d)
    (fun _ j next _ hnext => ?_) (by simp) h
  split at hnext
  · obtain rfl := Except.ok.inj hnext
    simp
  · intro d hd
    cases hj : Canvas.ofJson j with
    | error f =>
      rw [hj] at hnext
      cases hnext
    | ok e =>
      rw [hj] at hnext
      obtain rfl := Except.ok.inj hnext
      exact ⟨j, hj.trans (by rw [Option.some_inj.mp hd])⟩

theorem exists_ofJson_of_request? (hx : x.request? = some (r, c)) :
    ∃ j, Canvas.ofJson j = .ok c := by
  obtain ⟨hr, hcanvas⟩ := request?_eq_some.mp hx
  rw [requestOf] at hr
  split at hr
  · cases hr
  rename_i j _
  cases j with
  | object members =>
    obtain ⟨o, ho, hr⟩ := except_bind_eq_ok.mp hr
    dsimp only at hr
    split at hr
    · rename_i r' hr'
      obtain rfl := Except.ok.inj hr
      simp only [Option.bind_eq_bind, Option.bind_eq_some_iff, Option.pure_def,
        Option.some_inj] at hr'
      obtain ⟨_, _, _, _, _, _, rfl⟩ := hr'
      exact exists_ofJson_of_canvasOf ho c hcanvas
    · cases hr
  | null =>
    obtain rfl := Except.ok.inj hr
    cases hcanvas
  | _ => cases hr

end Server

end SolidityCanvas
