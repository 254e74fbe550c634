/-
Canvases that are submitted.

A client reads a canvas from a file, writes it into a request and sends it.  What
the server reads is the same request, and a canvas with the same content, exactly if
every instance has an id, every number keeps its text and the request is not nested
too deep (`CompileRequest.Arrives`).

* `Server.requestOf_text`: what the server reads from a written request;
* `Client.submitted_canvas_iff`: when a canvas that was read from a file arrives;
* `Client.nameless_is_refused`: a configuration may have an instance that the server
  refuses.
-/
import Mathlib
import SolidityCanvas.Client
import SolidityCanvas.Proofs.Canvas.Configured
import SolidityCanvas.Proofs.Canvas.Rewritten
import SolidityCanvas.Proofs.Server.Messages

namespace SolidityCanvas

variable {r q : CompileRequest} {c : Canvas} {j : Json}

/-- The server reads the request from a body, with the content of its canvas. -/
def CompileRequest.Arrives (r : CompileRequest) (body : String) : Prop :=
  ∃ q, Server.requestOf body = .ok q ∧ q.session = r.session ∧ q.version = r.version ∧
    q.header = r.header ∧ q.canvas.isSome = r.canvas.isSome ∧
    ∀ c ∈ r.canvas, ∀ d ∈ q.canvas, d.contentText = c.contentText ∧ d.hash = c.hash

/-! ### What the server reads -/

/-- What the server reads from a written request, if it takes the whole body. -/
theorem Server.requestOf_text (hr : r.canvas = some c) (hc : c.Normal) (hj : r.toJson? = some j)
    (hsize : j.text.utf8ByteSize ≤ maxBodyBytes) :
    requestOf j.text = if j.depth ≤ Json.maxDepth then CompileRequest.ofJson j else .error .shape := by
  have hread : Json.parseFirst? j.text = if j.depth ≤ Json.maxDepth then some j else none := by
    have hreadable := (CompileRequest.regular_isNumber hr hc hj).readable fun _ => id
    obtain ⟨k, -, rfl⟩ := (CompileRequest.toJson?_eq_some hr).mp hj
    cases hreadable with
    | object hmembers => exact Json.parseFirst?_text hmembers
  rw [requestOf, Http.firstBytes, if_pos hsize, hread]
  by_cases hdepth : j.depth ≤ Json.maxDepth
  · rw [if_pos hdepth, if_pos hdepth]
  · rw [if_neg hdepth, if_neg hdepth]

theorem Server.requestOf_text_eq_ok (hr : r.canvas = some c) (hc : c.Normal)
    (hj : r.toJson? = some j) (hsize : j.text.utf8ByteSize ≤ maxBodyBytes) :
    requestOf j.text = .ok q ↔ j.depth ≤ Json.maxDepth ∧ r.reread? some = some q ∧
      ∀ i ∈ c.instances, i.id.isEmpty = false := by
  rw [requestOf_text hr hc hj hsize]
  by_cases hdepth : j.depth ≤ Json.maxDepth
  · rw [if_pos hdepth, and_iff_right hdepth]
    exact CompileRequest.ofJson_carried hr hc hj (Json.carries_refl j)
  · rw [if_neg hdepth]
    simp [hdepth]

/-- **When a written request arrives.** -/
theorem CompileRequest.arrives_iff (hr : r.canvas = some c) (hc : c.Normal)
    (hj : r.toJson? = some j) (hsize : j.text.utf8ByteSize ≤ Server.maxBodyBytes) :
    r.Arrives j.text ↔ j.depth ≤ Json.maxDepth ∧ (∀ i ∈ c.instances, i.id.isEmpty = false) ∧
      ∀ n ∈ c.numbers, n.KeepsText := by
  obtain ⟨k, hk, -⟩ := (toJson?_eq_some hr).mp hj
  rw [← Canvas.contentText_reread_iff hc hk]
  have hreread : ∀ q, r.reread? some = some q ↔
      ∃ d, c.reread? some = some d ∧ { r with canvas := some d } = q := by
    intro q
    simp [reread?, hr, Json.rereadWord?_some, Option.bind_eq_some_iff]
  constructor
  · rintro ⟨q, hq, -, -, -, -, hsame⟩
    obtain ⟨hdepth, hq, hids⟩ := (Server.requestOf_text_eq_ok hr hc hj hsize).mp hq
    obtain ⟨d, hd, rfl⟩ := (hreread q).mp hq
    exact ⟨hdepth, hids, d, hd, (hsame c hr d rfl).1⟩
  · rintro ⟨hdepth, hids, d, hd, htext⟩
    have hq := (hreread _).mpr ⟨d, hd, rfl⟩
    refine ⟨_, (Server.requestOf_text_eq_ok hr hc hj hsize).mpr ⟨hdepth, hq, hids⟩, rfl, rfl, rfl, ?_, ?_⟩
    · rw [hr]
      rfl
    · rintro c' hc' d' hd'
      obtain rfl := Option.some_inj.mp (hr.symm.trans hc')
      obtain rfl := Option.some_inj.mp hd'
      exact ⟨htext, by rw [Canvas.hash, Canvas.hash, htext]⟩

/-! ### What a client sends -/

namespace Client

theorem request_eq_ok {base : String} {q : Http.Request} (h : request base r = .ok q) :
    ∃ j, r.toJson? = some j ∧ j.text = q.body := by
  rw [request] at h
  split at h
  · cases h
  rename_i j hj
  split at h
  · cases h
  · obtain rfl := Except.ok.inj h
    exact ⟨j, hj, rfl⟩

theorem exists_request {base : String} {u : Url} (hu : Url.parse (endpoint base) = .ok u)
    (hj : r.toJson? = some j) : ∃ q, request base r = .ok q ∧ q.body = j.text := by
  rw [request, hj]
  simp only [hu]
  exact ⟨_, rfl, rfl⟩

/-- **When a canvas that was read from a file arrives.**  Its numbers are finite.  A
request with the canvas can be written exactly if the timestamp of the canvas can.
What a client sends, if the server takes the whole body, is read as the same request
with the same content exactly if it is not nested too deep, all instances have ids and
all numbers keep their texts.  The instances of a document have ids, and its numbers
keep their texts, but for some powers of two and for numbers with very many places. -/
theorem submitted_canvas_iff (hc : c.Loadable) (hfinite : ∀ n ∈ c.numbers, n.isInfinite = false)
    (hr : r.canvas = some c) :
    ((∃ j, r.toJson? = some j) ↔ ∀ t ∈ c.timestamp, t.isPortable) ∧
    (∀ base q, request base r = .ok q → q.body.utf8ByteSize ≤ Server.maxBodyBytes →
      (r.Arrives q.body ↔ (∀ j ∈ r.toJson?, j.depth ≤ Json.maxDepth) ∧
        (∀ i ∈ c.instances, i.id.isEmpty = false) ∧ ∀ n ∈ c.numbers, n.KeepsText)) ∧
    ∀ text, Canvas.ofDocument text = .ok c → (∀ i ∈ c.instances, i.id.isEmpty = false) ∧
      ∀ n ∈ c.numbers, ¬n.Lopsided → n.places ≤ Number.exactPlaces → n.KeepsText := by
  refine ⟨?_, fun base q hq hsize => ?_, fun text htext => ?_⟩
  · have hwritten : (∃ k, c.toJson? = some k) ↔ ∀ t ∈ c.timestamp, t.isPortable :=
      Canvas.exists_toJson?_iff.trans (and_iff_left ⟨hc.isWhollyKnown, hfinite⟩)
    simp only [← hwritten, CompileRequest.toJson?_eq_some hr]
    exact ⟨fun ⟨_, k, hk, _⟩ => ⟨k, hk⟩, fun ⟨k, hk⟩ => ⟨_, k, hk, rfl⟩⟩
  · obtain ⟨j, hj, hbody⟩ := request_eq_ok hq
    rw [← hbody] at hsize ⊢
    simp [CompileRequest.arrives_iff hr hc.normal hj hsize, hj]
  · have hloaded := Canvas.loaded_of_parse (mapError_eq_ok.mp htext)
    exact ⟨hloaded.ids, fun n hn hlopsided hplaces =>
      (Number.readsBack_of_places (hloaded.isRead n hn) (hfinite n hn) hlopsided hplaces).keepsText⟩

/-! ### A document and a configuration -/

/-- A request for a canvas that was read from a document. -/
def fiveRequest : CompileRequest where
  session := "s"
  version := 7
  canvas := some (Canvas.countCanvas (.finite ⟨false, 5, 0, 512⟩))
  header := { contractName := "Token" }

theorem five_arrives : ∃ q, request "http://localhost:8080/" fiveRequest = .ok q ∧
    fiveRequest.Arrives q.body := by
  have hread : Canvas.ofDocument (Canvas.countJson "5").text =
      .ok (Canvas.countCanvas (.finite ⟨false, 5, 0, 512⟩)) := by
    rw [Canvas.ofDocument, parse_five]
    rfl
  have hfinite : ∀ n ∈ (Canvas.countCanvas (.finite ⟨false, 5, 0, 512⟩)).numbers,
      n.isInfinite = false := by
    rw [Canvas.numbers_countCanvas]
    rintro _ rfl
    rfl
  obtain ⟨hwritten, harrives, hdocument⟩ :=
    submitted_canvas_iff (r := fiveRequest) (.document hread) hfinite rfl
  obtain ⟨hids, hnumbers⟩ := hdocument _ hread
  obtain ⟨j, hj⟩ := hwritten.mpr (by simp [Canvas.countCanvas])
  have hsmall : ∀ j ∈ fiveRequest.toJson?, j.depth ≤ Json.maxDepth ∧
      j.text.utf8ByteSize ≤ Server.maxBodyBytes := by decide +kernel
  obtain ⟨q, hq, hbody⟩ : ∃ q, request "http://localhost:8080/" fiveRequest = .ok q ∧
      q.body = j.text := exists_request rfl hj
  refine ⟨q, hq, (harrives _ q hq (hbody ▸ (hsmall j hj).2)).mpr
    ⟨fun j hj => (hsmall j hj).1, hids, fun n hn => hnumbers n hn ?_ ?_⟩⟩
  all_goals
    rw [Canvas.numbers_countCanvas, Set.mem_singleton_iff] at hn
    subst hn
    decide +kernel

/-- A configuration with an instance that has no id. -/
def namelessText : String := "component \"\" \x7b\n  template = \"struct\"\n\x7d\n"

/-- The canvas of the configuration. -/
def namelessCanvas : Canvas where
  instances := [⟨"", "struct", []⟩]

theorem ofConfig_namelessText :
    Canvas.ofConfig "canvas.hcl" namelessText = .ok namelessCanvas := by
  have htokens : Config.tokenize? namelessText = some [.name "component", .openQuote, .closeQuote,
      .symbol .openBrace, .newline, .name "template", .symbol .assign, .openQuote, .text "struct",
      .closeQuote, .newline, .symbol .closeBrace, .newline] := by decide
  rw [Canvas.ofConfig, Config.Body.parse?, htokens]
  rfl

/-- The written request for the canvas. -/
def namelessJson : Json := .object [("canvas", .object [
  ("instances", .array [.object [("id", .string ""), ("templateId", .string "struct")]]),
  ("connections", .array [])]), ("header", .object [])]

theorem toJson?_nameless :
    CompileRequest.toJson? { canvas := some namelessCanvas } = some namelessJson := by
  simp [CompileRequest.toJson?, namelessCanvas, namelessJson, Canvas.toJson?,
    Canvas.instanceToJson?, Value.entriesToJson?, Json.textMember, Json.wordMember, Header.toJson]

/-- **A configuration may have an instance that the server refuses.** -/
theorem nameless_is_refused : Canvas.ofConfig "canvas.hcl" namelessText = .ok namelessCanvas ∧
    ∃ q, request "http://localhost:8080/" { canvas := some namelessCanvas } = .ok q ∧
      Server.requestOf q.body = .error (.missingId "struct") := by
  have hread := ofConfig_namelessText
  obtain ⟨q, hq, hbody⟩ : ∃ q, request "http://localhost:8080/" { canvas := some namelessCanvas } =
      .ok q ∧ q.body = namelessJson.text := exists_request rfl toJson?_nameless
  have hdepth : namelessJson.depth ≤ Json.maxDepth := by decide
  refine ⟨hread, q, hq, ?_⟩
  rw [hbody, Server.requestOf_text rfl (Canvas.Loadable.config hread).normal toJson?_nameless
    (by decide), if_pos hdepth]
  rfl

end Client

end SolidityCanvas
