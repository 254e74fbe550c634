/-
When remembering results changes no answer.

One compiler answers a row of calls as new ones would answer each exactly when
no two calls that end differently have one key (`Compiler.transparent_iff`).
The key is made of the content text of the canvas and of the three texts of
the header, joined by zero characters.  Hence

* headers without zero characters are told apart, and so are canvases whose
  numbers are not written alike: no answer changes;
* headers with zero characters in other places may have one key, and then the
  second call is answered by the result of the first
  (`Compiler.not_transparent_clashingCalls`).
-/
import Mathlib
import SolidityCanvas.Proofs.Compiler.Keys

namespace SolidityCanvas

namespace Call

variable {catalog : Catalog} {x y : Call}

/-- The outcome depends on the instances, the connections and the header with
its defaults. -/
theorem outcome_congr (hinstances : x.canvas.instances = y.canvas.instances)
    (hconnections : x.canvas.connections = y.canvas.connections)
    (hheader : x.header.withDefaults = y.header.withDefaults) :
    x.outcome catalog = y.outcome catalog := by
  have hvalidate : x.canvas.validate catalog = y.canvas.validate catalog := by
    simp only [Canvas.validate, Canvas.components, hinstances, hconnections]
  have harrange : x.canvas.arrange catalog = y.canvas.arrange catalog := by
    simp only [Canvas.arrange, hinstances, hconnections]
  simp only [outcome, hvalidate, harrange, hheader]

end Call

namespace Compiler

variable {catalog : Catalog} {calls : List Call}

/-- The texts and messages that some calls hash have different digests if they
are different. -/
structure NoCollision (catalog : Catalog) (calls : List Call) : Prop where
  contents : Set.InjOn keccak256 {s | ∃ x ∈ calls, x.canvas.contentText = s}
  results : Set.InjOn Keccak.digest {m | ∃ x ∈ calls, x.message = m}
  renders : Set.InjOn keccak256 {s | ∃ x ∈ calls, ∃ e ∈ x.Renders catalog, e.message = s}

/-- One compiler answers the calls as new ones would answer each, however many
results it remembers. -/
def Transparent (catalog : Catalog) (calls : List Call) : Prop :=
  ∀ capacity, (new catalog capacity).answers calls = calls.map (firstAnswer catalog capacity)

/-- What is rendered with one message is rendered alike. -/
def RendersTold (catalog : Catalog) (calls : List Call) : Prop :=
  ∀ x ∈ calls, ∀ e ∈ x.Renders catalog, ∀ y ∈ calls, ∀ e' ∈ y.Renders catalog,
    e.message = e'.message → e.rendering = e'.rendering

/-- A result of a new compiler for one call is also its result for the other. -/
def Agree (catalog : Catalog) (x y : Call) : Prop :=
  ∀ capacity r, firstAnswer catalog capacity x = .ok r → firstAnswer catalog capacity y = .ok r

/-- The numbers that some calls can meet. -/
def numbers (catalog : Catalog) (calls : List Call) : Set Number :=
  catalog.numbers ∪ {n | ∃ x ∈ calls, n ∈ x.canvas.numbers}

/-! ### Keys -/

theorem NoCollision.key_eq_iff (h : NoCollision catalog calls) {x y : Call} (hx : x ∈ calls)
    (hy : y ∈ calls) : x.key = y.key ↔
      x.canvas.contentText = y.canvas.contentText ∧ x.header.joined = y.header.joined := by
  rw [Call.key_eq, Call.key_eq, h.results.eq_iff ⟨x, hx, rfl⟩ ⟨y, hy, rfl⟩, Call.message_eq_iff,
    h.contents.eq_iff ⟨x, hx, rfl⟩ ⟨y, hy, rfl⟩]

theorem NoCollision.keysTell (h : NoCollision catalog calls) (htold : RendersTold catalog calls) :
    Entry.KeysTell {e | ∃ x ∈ calls, e ∈ x.Renders catalog} := by
  rintro e ⟨x, hx, he⟩ e' ⟨y, hy, he'⟩ hkey
  rw [Entry.key_eq, Entry.key_eq] at hkey
  exact htold x hx e he y hy e' he' (h.renders ⟨x, hx, e, he, rfl⟩ ⟨y, hy, e', he', rfl⟩ hkey)

theorem rendersTold_of_distinct (hsound : catalog.Sound)
    (hN : Number.Distinct (numbers catalog calls)) : RendersTold catalog calls := by
  intro x hx e he y hy e' he' hmessage
  obtain ⟨i, -, t, ht, hc, -⟩ := Call.exists_instance he
  obtain ⟨i', -, t', ht', hc', -⟩ := Call.exists_instance he'
  have hnumbers : ∀ {z}, z ∈ calls → ∀ {f}, f ∈ z.Renders catalog →
      f.numbers ⊆ numbers catalog calls := fun hz _ hf =>
    Call.numbers_subset hsound Set.subset_union_left (fun n hn => .inr ⟨_, hz, hn⟩) hf
  exact Entry.rendering_eq_of_message_eq hsound ht hc ht' hc' (hnumbers hx he) (hnumbers hy he')
    (fun _ _ _ hv hw => hv.told_canonicalChars hN hw) hmessage

/-! ### Answers -/

/-- Where nothing that is remembered is mistaken for something else, a new
compiler answers by the outcome. -/
theorem NoCollision.firstAnswer_eq_outcome (h : NoCollision catalog calls)
    (htold : RendersTold catalog calls) {x : Call} (hx : x ∈ calls) (capacity : Nat) :
    firstAnswer catalog capacity x = x.outcome catalog :=
  firstAnswer_eq (h.keysTell htold) (fun _ he => ⟨x, hx, he⟩) capacity

theorem transparent_iff_of_rendersTold (h : NoCollision catalog calls)
    (htold : RendersTold catalog calls) :
    Transparent catalog calls ↔ calls.Pairwise fun x y =>
      x.canvas.contentText = y.canvas.contentText → x.header.joined = y.header.joined →
        Agree catalog x y := by
  have hfirst : ∀ x ∈ calls, ∀ capacity, firstAnswer catalog capacity x = x.outcome catalog :=
    fun x hx capacity => h.firstAnswer_eq_outcome htold hx capacity
  constructor
  · intro htransparent
    -- A compiler with room for all results forgets none.
    have hroom : (new catalog (calls.length + 1)).results.entries.length + calls.length ≤
        (new catalog (calls.length + 1)).results.capacity := by
      simp [new]
    refine (pairwise_of_answers_eq hroom (htransparent _)).imp_of_mem ?_
    intro x y hx hy hxy hcontent hheader capacity r
    rw [hfirst x hx, hfirst y hy]
    rw [hfirst x hx, hfirst y hy] at hxy
    exact hxy ((h.key_eq_iff hx hy).mpr ⟨hcontent, hheader⟩) r
  · intro hpairwise capacity
    rw [List.map_congr_left fun x hx => hfirst x hx capacity]
    refine answers_eq_of_pairwise (h.keysTell htold) (right_new ..)
      (fun x hx e he => ⟨x, hx, he⟩) (hpairwise.imp_of_mem ?_)
    intro x y hx hy hxy hkey
    obtain ⟨hcontent, hheader⟩ := (h.key_eq_iff hx hy).mp hkey
    rw [← hfirst x hx capacity, ← hfirst y hy capacity]
    exact hxy hcontent hheader capacity

/-- The content texts of canvases with values that documents describe say what
the canvases hold, if the numbers can be told apart. -/
theorem contentText_eq_iff_of_described (hN : Number.Distinct (numbers catalog calls))
    (hdescribed : ∀ x ∈ calls, ∀ i ∈ x.canvas.instances, i.properties.Described) {x y : Call}
    (hx : x ∈ calls) (hy : y ∈ calls) : x.canvas.contentText = y.canvas.contentText ↔
      x.canvas.instances = y.canvas.instances ∧ x.canvas.connections = y.canvas.connections := by
  constructor
  · exact Canvas.eq_of_contentText_eq hN (hdescribed x hx) (hdescribed y hy)
      (fun n hn => .inr ⟨x, hx, hn⟩) (fun n hn => .inr ⟨y, hy, hn⟩)
  · exact fun h => Canvas.contentText_congr h.1 h.2

/-- Canvases that are read from documents have such values. -/
theorem contentText_eq_iff (hN : Number.Distinct (numbers catalog calls))
    (hparsed : ∀ x ∈ calls, ∃ s, Canvas.parse s = .ok x.canvas) {x y : Call} (hx : x ∈ calls)
    (hy : y ∈ calls) : x.canvas.contentText = y.canvas.contentText ↔
      x.canvas.instances = y.canvas.instances ∧ x.canvas.connections = y.canvas.connections :=
  contentText_eq_iff_of_described hN
    (fun x hx => (hparsed x hx).elim fun _ h => Canvas.described_of_parse h) hx hy

/-- Calls with one key have one outcome if their numbers can be told apart and no
zero character stands in the first two texts of their headers. -/
theorem NoCollision.outcome_eq (h : NoCollision catalog calls)
    (hN : Number.Distinct (numbers catalog calls))
    (hdescribed : ∀ x ∈ calls, ∀ i ∈ x.canvas.instances, i.properties.Described)
    (hseparated : ∀ x ∈ calls, x.header.Separated) {x y : Call} (hx : x ∈ calls) (hy : y ∈ calls)
    (hkey : x.key = y.key) : x.outcome catalog = y.outcome catalog := by
  obtain ⟨hcontent, hjoined⟩ := (h.key_eq_iff hx hy).mp hkey
  obtain ⟨hinstances, hconnections⟩ :=
    (contentText_eq_iff_of_described hN hdescribed hx hy).mp hcontent
  exact Call.outcome_congr hinstances hconnections
    (Header.joined_inj (hseparated x hx) (hseparated y hy) hjoined)

/-- **When remembering results changes no answer.**  The catalog is built from
files that were read, the canvases are read from documents, and digests do not
collide.

Where entries with one message are rendered alike, one compiler answers a row
of calls as new ones would answer each exactly when calls with one content text
and one joined header agree.  Where no two numbers are written alike, these are
the calls that hold the same instances and connections under one joined header,
and no answer changes if no zero character stands in the first two texts of a
header. -/
theorem transparent_iff {files : List (String × Definitions)}
    (hread : ∀ f ∈ files, ∃ b, Definitions.read b = .ok f.2)
    (hbuild : Catalog.build files = .ok catalog)
    (hparsed : ∀ x ∈ calls, ∃ s, Canvas.parse s = .ok x.canvas)
    (hhash : NoCollision catalog calls) :
    (RendersTold catalog calls → (Transparent catalog calls ↔ calls.Pairwise fun x y =>
      x.canvas.contentText = y.canvas.contentText → x.header.joined = y.header.joined →
        Agree catalog x y)) ∧
    (Number.Distinct (numbers catalog calls) →
      (Transparent catalog calls ↔ calls.Pairwise fun x y =>
        x.canvas.instances = y.canvas.instances → x.canvas.connections = y.canvas.connections →
        x.header.joined = y.header.joined → Agree catalog x y) ∧
      ((∀ x ∈ calls, x.header.Separated) → Transparent catalog calls)) := by
  refine ⟨transparent_iff_of_rendersTold hhash, fun hN => ?_⟩
  have htold := rendersTold_of_distinct (Catalog.sound_of_build hread hbuild) hN
  have hiff : Transparent catalog calls ↔ calls.Pairwise fun x y =>
      x.canvas.instances = y.canvas.instances → x.canvas.connections = y.canvas.connections →
      x.header.joined = y.header.joined → Agree catalog x y := by
    rw [transparent_iff_of_rendersTold hhash htold]
    refine List.Pairwise.iff_of_mem fun hx hy => ?_
    -- Content texts say what the canvases hold.
    rw [contentText_eq_iff hN hparsed hx hy, and_imp]
  refine ⟨hiff, fun hseparated => hiff.mpr (List.pairwise_of_forall_mem_list ?_)⟩
  intro x hx y hy hinstances hconnections hjoined capacity r
  -- Such calls differ in nothing that the outcome depends on.
  have hheader := Header.joined_inj (hseparated x hx) (hseparated y hy) hjoined
  rw [hhash.firstAnswer_eq_outcome htold hx, hhash.firstAnswer_eq_outcome htold hy,
    Call.outcome_congr hinstances hconnections hheader]
  exact fun hr => hr

/-! ### Calls that have one key -/

/-- Where all calls have one key nothing can collide. -/
theorem noCollision_of_same
    (hsame : ∀ x ∈ calls, ∀ y ∈ calls,
      x.canvas.contentText = y.canvas.contentText ∧ x.header.joined = y.header.joined)
    (hrenders : ∀ x ∈ calls, ∀ e ∈ x.Renders catalog, ∀ y ∈ calls, ∀ e' ∈ y.Renders catalog,
      e.message = e'.message) : NoCollision catalog calls := by
  refine ⟨?_, ?_, ?_⟩
  · rintro _ ⟨x, hx, rfl⟩ _ ⟨y, hy, rfl⟩ _
    exact (hsame x hx y hy).1
  · rintro _ ⟨x, hx, rfl⟩ _ ⟨y, hy, rfl⟩ _
    obtain ⟨hcontent, hheader⟩ := hsame x hx y hy
    rw [Call.message, Call.message, hcontent, hheader]
  · rintro _ ⟨x, hx, e, he, rfl⟩ _ ⟨y, hy, e', he', rfl⟩ _
    exact hrenders x hx e he y hy e' he'

/-- A file with a template that writes a number. -/
def limitBody : Config.Body where
  blocks := [
    .mk "category" ["limit"] [⟨"section", .template [.literal (.string "state")]⟩] [],
    .mk "template" ["limit"] [
        ⟨"category", .template [.literal (.string "limit")]⟩,
        ⟨"emit", .template [.literal (.string "uint constant LIMIT = "),
          .reference "count" [], .literal (.string ";")]⟩]
      [.mk "property" ["count"] [
        ⟨"type", .reference "number" []⟩, ⟨"required", .literal (.bool true)⟩] []]]

/-- What the file defines. -/
def limitFiles : List (String × Definitions) :=
  [("limit", ((Definitions.read limitBody).toOption).getD {})]

/-- The catalog of the file. -/
def limitCatalog : Catalog := ((Catalog.build limitFiles).toOption).getD {}

/-- A canvas with an instance of the template. -/
def limitCanvas : Canvas where
  instances := [⟨"a", "limit", [("count", .number (.finite ⟨false, 5, 0, 512⟩))]⟩]

/-- Two calls for it, one with the defaults of the header and one that gives
them. -/
def limitCalls : List Call :=
  [⟨limitCanvas, {}⟩, ⟨limitCanvas, ⟨"Composed", "MIT", "^0.8.20"⟩⟩]

theorem parse_limitCanvas : Canvas.parse ("\x7b\"instances\":[\x7b\"id\":\"a\"," ++
    "\"templateId\":\"limit\",\"properties\":\x7b\"count\":5\x7d\x7d]\x7d") =
      .ok limitCanvas := by
  cbv

theorem limitCalls_alike : ∀ x ∈ limitCalls, x.canvas = limitCanvas ∧
    x.header.joined = Header.joined {} ∧ x.header.Separated := by
  intro x hx
  simp only [limitCalls, List.mem_cons, List.not_mem_nil, or_false] at hx
  rcases hx with rfl | rfl
  · exact ⟨rfl, rfl, by decide⟩
  · exact ⟨rfl, by decide, by decide⟩

/-- The entry that is rendered. -/
def limitEntry : Entry :=
  ⟨Component.ofInstance (limitCanvas.instances.headD default)
    (limitCatalog.templates.headD default), []⟩

theorem renders_limitCalls : ∀ x ∈ limitCalls, ∀ e ∈ x.Renders limitCatalog, e = limitEntry := by
  have harrange : limitCanvas.arrange limitCatalog =
      .ok (.ok ⟨Section.all.map fun z => (z, if z = .state then [limitEntry] else [])⟩) := rfl
  intro x hx e ⟨findings, a, _, _, ha, he⟩
  rw [(limitCalls_alike x hx).1, harrange] at ha
  obtain rfl := Except.ok.inj (Except.ok.inj ha)
  exact List.mem_singleton.mp (mem_of_mem_reached he)

theorem numbers_limitCalls : ∀ n ∈ numbers limitCatalog limitCalls,
    n = .finite ⟨false, 5, 0, 512⟩ := by
  rintro n (⟨t, ht, p, hp, v, hv, _⟩ | ⟨x, hx, i, hi, e, he, hn⟩)
  · obtain rfl : t = limitCatalog.templates.headD default := List.mem_singleton.mp ht
    obtain rfl : p = (limitCatalog.templates.headD default).properties.headD default :=
      List.mem_singleton.mp hp
    exact absurd (show none = some v from hv) (by simp)
  · rw [(limitCalls_alike x hx).1] at hi
    obtain rfl := List.mem_singleton.mp hi
    obtain rfl := List.mem_singleton.mp he
    exact List.mem_singleton.mp hn

theorem transparent_limitCalls : Transparent limitCatalog limitCalls := by
  have hread : ∀ f ∈ limitFiles, ∃ b, Definitions.read b = .ok f.2 := by
    intro f hf
    rw [List.mem_singleton.mp hf]
    exact ⟨limitBody, rfl⟩
  have hparsed : ∀ x ∈ limitCalls, ∃ s, Canvas.parse s = .ok x.canvas := by
    intro x hx
    rw [(limitCalls_alike x hx).1]
    exact ⟨_, parse_limitCanvas⟩
  have hhash : NoCollision limitCatalog limitCalls := by
    refine noCollision_of_same (fun x hx y hy => ?_) fun x hx e he y hy e' he' => ?_
    · obtain ⟨hcanvas, hheader, _⟩ := limitCalls_alike x hx
      obtain ⟨hcanvas', hheader', _⟩ := limitCalls_alike y hy
      exact ⟨by rw [hcanvas, hcanvas'], by rw [hheader, hheader']⟩
    · rw [renders_limitCalls x hx e he, renders_limitCalls y hy e' he']
  have hN : Number.Distinct (numbers limitCatalog limitCalls) := by
    intro m hm n hn _
    rw [numbers_limitCalls m hm, numbers_limitCalls n hn]
  exact ((transparent_iff hread rfl hparsed hhash).2 hN).2 fun x hx =>
    (limitCalls_alike x hx).2.2

/-- Two calls for an empty canvas, with different headers that are joined to one
text. -/
def clashingCalls : List Call :=
  [⟨{}, ⟨"A\x00B", "C", "^0.8.20"⟩⟩, ⟨{}, ⟨"A", "B\x00C", "^0.8.20"⟩⟩]

theorem clashingCalls_alike : ∀ x ∈ clashingCalls, x.canvas = {} ∧
    x.header.joined = "A\x00B\x00C\x00^0.8.20" := by
  intro x hx
  simp only [clashingCalls, List.mem_cons, List.not_mem_nil, or_false] at hx
  rcases hx with rfl | rfl
  · exact ⟨rfl, by decide⟩
  · exact ⟨rfl, by decide⟩

/-- An empty canvas renders nothing. -/
theorem notMem_renders_of_empty {x : Call} (hx : x.canvas = {}) (e : Entry) :
    e ∉ x.Renders {} := by
  have harrange : ({} : Canvas).arrange {} = .ok (.ok ⟨Section.all.map fun z => (z, [])⟩) := rfl
  rintro ⟨findings, a, _, _, ha, he⟩
  rw [hx, harrange] at ha
  obtain rfl := Except.ok.inj (Except.ok.inj ha)
  exact absurd (mem_of_mem_reached he) List.not_mem_nil

theorem renders_clashingCalls : ∀ x ∈ clashingCalls, ∀ e, e ∉ x.Renders {} :=
  fun x hx => notMem_renders_of_empty (clashingCalls_alike x hx).1

theorem noCollision_clashingCalls : NoCollision {} clashingCalls := by
  refine noCollision_of_same (fun x hx y hy => ?_) fun x hx e he => ?_
  · obtain ⟨hcanvas, hheader⟩ := clashingCalls_alike x hx
    obtain ⟨hcanvas', hheader'⟩ := clashingCalls_alike y hy
    exact ⟨by rw [hcanvas, hcanvas'], by rw [hheader, hheader']⟩
  · exact absurd he (renders_clashingCalls x hx e)

theorem rendersTold_clashingCalls : RendersTold {} clashingCalls :=
  fun x hx e he => absurd he (renders_clashingCalls x hx e)

theorem distinct_clashingCalls : Number.Distinct (numbers {} clashingCalls) := by
  rintro n (⟨t, ht, _⟩ | ⟨x, hx, i, hi, _⟩)
  · exact absurd ht List.not_mem_nil
  · rw [(clashingCalls_alike x hx).1] at hi
    exact absurd hi List.not_mem_nil

/-- **The second of two calls can be answered by the result of the first**, with
all else as it should be: the header texts of the two differ, and so do the
documents. -/
theorem not_transparent_clashingCalls :
    Catalog.build [] = .ok {} ∧ (∀ x ∈ clashingCalls, ∃ s, Canvas.parse s = .ok x.canvas) ∧
      NoCollision {} clashingCalls ∧ Number.Distinct (numbers {} clashingCalls) ∧
      ¬ Transparent {} clashingCalls := by
  have hhash := noCollision_clashingCalls
  have htold := rendersTold_clashingCalls
  refine ⟨rfl, fun x hx => ?_, hhash, distinct_clashingCalls, fun htransparent => ?_⟩
  · rw [(clashingCalls_alike x hx).1]
    exact ⟨"null", rfl⟩
  · rw [transparent_iff_of_rendersTold hhash htold] at htransparent
    have hagree := (List.pairwise_cons.mp htransparent).1 _ List.mem_cons_self rfl (by decide) 1
    rw [hhash.firstAnswer_eq_outcome htold List.mem_cons_self,
      hhash.firstAnswer_eq_outcome htold (List.mem_cons_of_mem _ List.mem_cons_self)] at hagree
    have hsource := congrArg CompileResult.source (Except.ok.inj (hagree _ rfl))
    exact absurd hsource (by decide)

end Compiler

end SolidityCanvas
