/-
When remembering renderings changes no document.

Arrangements are written one after another with one cache of renderings
(`Emission.row`).  A rendering is found under the digest of the template's id
and of the variables as text, so that

* documents are what they would be with new caches if entries that are written
  alike are rendered alike (`Emission.row_eq_map_outcome`);
* entries that are written alike have one template and the same variables, but
  for numbers that are written alike (`Emission.renderedAlike_of_distinguished`);
* two such numbers in two canvases let the second get the document of the first
  (`Emission.below_is_power`).
-/
import Mathlib
import SolidityCanvas.Proofs.Canvas.Distinct
import SolidityCanvas.Proofs.Catalog.Scope
import SolidityCanvas.Proofs.Compiler.Keys
import SolidityCanvas.Proofs.Hash.Keccak

namespace SolidityCanvas

/-- An arrangement that is to be written, and the header of its document. -/
structure Emission where
  arrangement : Arrangement
  header : Header

namespace Emission

variable {catalog : Catalog} {es : Set Entry} {xs : List Emission} {x : Emission}

/-! ### Rows of emissions -/

/-- What some emissions come to, one after another with one cache. -/
def row (cache : RenderCache) : List Emission → List (Except InvariantError Document)
  | [] => []
  | x :: rest =>
    let (document, cache) := x.arrangement.emit x.header cache
    document :: row cache rest

theorem row_cons (cache : RenderCache) (x : Emission) (rest : List Emission) :
    row cache (x :: rest) = (x.arrangement.emit x.header cache).1 ::
      row (x.arrangement.emit x.header cache).2 rest := rfl

/-- What an emission comes to with a new cache. -/
def fresh (capacity : Nat) (x : Emission) : Except InvariantError Document :=
  (x.arrangement.emit x.header (RenderCache.new capacity)).1

/-- The entries that some emissions write. -/
def entries (xs : List Emission) : Set Entry := {e | ∃ x ∈ xs, e ∈ x.arrangement.entries}

/-- The numbers in the properties of these entries. -/
def numbers (xs : List Emission) : Set Number := {n | ∃ e ∈ entries xs, n ∈ e.numbers}

/-- Each emission of a row comes to what it comes to with a new cache, whatever
the sizes of the caches are. -/
def Transparent (xs : List Emission) : Prop :=
  ∀ capacity capacity', row (RenderCache.new capacity) xs = xs.map (fresh capacity')

/-- Entries with one message are rendered alike. -/
def RenderedAlike (xs : List Emission) : Prop :=
  ∀ e ∈ entries xs, ∀ e' ∈ entries xs, e.message = e'.message → e.rendering = e'.rendering

/-- The messages of the entries have different digests if they are different. -/
def NoCollision (xs : List Emission) : Prop :=
  Set.InjOn keccak256 {s | ∃ e ∈ entries xs, e.message = s}

/-- The arrangement is that of a canvas that is read from a document. -/
def IsArranged (catalog : Catalog) (x : Emission) : Prop :=
  ∃ s canvas, Canvas.parse s = .ok canvas ∧ canvas.arrange catalog = .ok (.ok x.arrangement)

/-! ### What is remembered -/

theorem NoCollision.keysTell (h : NoCollision xs) (halike : RenderedAlike xs) :
    Entry.KeysTell (entries xs) := by
  intro e he e' he' hkey
  rw [Entry.key_eq, Entry.key_eq] at hkey
  exact halike e he e' he' (h ⟨e, he, rfl⟩ ⟨e', he', rfl⟩ hkey)

/-- **Emissions come to what they come to with nothing remembered**, one after
another, as long as what is remembered is right at the beginning. -/
theorem row_eq_map_outcome (hkeys : Entry.KeysTell es) : ∀ {xs : List Emission}
    {cache : RenderCache}, entries xs ⊆ es → Entry.Faithful es cache →
      row cache xs = xs.map fun x => x.arrangement.outcome x.header := by
  intro xs
  induction xs with
  | nil => exact fun _ _ => rfl
  | cons x rest ih =>
    intro cache hmem hcache
    have hx : ∀ e ∈ reached x.arrangement.entries, e ∈ es :=
      fun e he => hmem ⟨x, List.mem_cons_self, mem_of_mem_reached he⟩
    have hrest : entries rest ⊆ es :=
      fun e ⟨y, hy, he⟩ => hmem ⟨y, List.mem_cons_of_mem _ hy, he⟩
    obtain ⟨hdocument, hafter⟩ := Arrangement.emit_of_faithful hkeys hx hcache x.header
    rw [row_cons, List.map_cons, hdocument, ih hrest hafter]

theorem transparent_of_keysTell (hkeys : Entry.KeysTell (entries xs)) : Transparent xs := by
  intro capacity capacity'
  rw [row_eq_map_outcome hkeys subset_rfl (Entry.faithful_new _ capacity)]
  refine List.map_congr_left fun x hx => ?_
  have hmem : ∀ e ∈ reached x.arrangement.entries, e ∈ entries xs :=
    fun e he => ⟨x, hx, mem_of_mem_reached he⟩
  exact (Arrangement.emit_of_faithful hkeys hmem (Entry.faithful_new _ capacity') x.header).1.symm

/-! ### What messages say -/

/-- **Entries with one message are rendered alike** if their numbers are told
apart. -/
theorem renderedAlike_of_distinguished (hsound : catalog.Sound)
    (harranged : ∀ x ∈ xs, x.IsArranged catalog) (hN : Number.Distinguished (numbers xs)) :
    RenderedAlike xs := by
  have hinstance : ∀ e ∈ entries xs, ∃ i t, catalog.template? i.template = some t ∧
      e.component = Component.ofInstance i t := by
    rintro e ⟨x, hx, he⟩
    obtain ⟨_, _, _, harrange⟩ := harranged x hx
    obtain ⟨i, -, t, ht, hc⟩ := Canvas.exists_instance_of_mem_entries harrange he
    exact ⟨i, t, ht, hc⟩
  intro e he e' he' hmessage
  obtain ⟨i, t, ht, hc⟩ := hinstance e he
  obtain ⟨i', t', ht', hc'⟩ := hinstance e' he'
  have hnumbers : ∀ {f}, f ∈ entries xs → f.numbers ⊆ numbers xs := fun hf _ hn => ⟨_, hf, hn⟩
  exact Entry.rendering_eq_of_message_eq hsound ht hc ht' hc' (hnumbers he) (hnumbers he')
    (fun _ _ _ hv hw => hv.told hN hw) hmessage

/-- **When remembering renderings changes no document.**  The catalog is built
from files that were read, the arrangements are those of canvases that are read
from documents, and digests do not collide.

Where entries with one message are rendered alike, a row of emissions comes to
what each comes to with a new cache.  They are, unless two different numbers in
their properties are written alike; and numbers that are read are not, but for
some powers of two. -/
theorem remembering_changes_no_document {files : List (String × Definitions)}
    (hread : ∀ f ∈ files, ∃ b, Definitions.read b = .ok f.2)
    (hbuild : Catalog.build files = .ok catalog)
    (harranged : ∀ x ∈ xs, x.IsArranged catalog) (hhash : NoCollision xs) :
    (RenderedAlike xs → Transparent xs) ∧
    (Number.Distinguished (numbers xs) → RenderedAlike xs) ∧
    ((∀ n ∈ numbers xs, n.IsRead) → Number.Legible (numbers xs) →
      Number.Distinguished (numbers xs)) := by
  refine ⟨fun halike => ?_, fun hN => ?_, Number.distinguished_of_legible⟩
  · exact transparent_of_keysTell (hhash.keysTell halike)
  · exact renderedAlike_of_distinguished (Catalog.sound_of_build hread hbuild) harranged hN

/-! ### A number that is written like another -/

/-- A file with a template that compares a number with a power of two. -/
def powerBody : Config.Body where
  blocks := [
    .mk "category" ["limit"] [⟨"section", .template [.literal (.string "state")]⟩] [],
    .mk "template" ["limit"] [
        ⟨"category", .template [.literal (.string "limit")]⟩,
        ⟨"emit", .conditional
          (.binary .equal (.reference "count" []) (.literal (.number (.finite Number.power))))
          (.template [.literal (.string "uint constant POWER = 1;")])
          (.template [.literal (.string "uint constant BELOW = 1;")])⟩]
      [.mk "property" ["count"] [
        ⟨"type", .reference "number" []⟩, ⟨"required", .literal (.bool true)⟩] []]]

/-- What the file defines. -/
def powerFiles : List (String × Definitions) :=
  [("limit", ((Definitions.read powerBody).toOption).getD {})]

/-- The catalog of the file. -/
def powerCatalog : Catalog := ((Catalog.build powerFiles).toOption).getD {}

theorem read_powerFiles : ∀ f ∈ powerFiles, ∃ b, Definitions.read b = .ok f.2 := by
  intro f hf
  rw [List.mem_singleton.mp hf]
  exact ⟨powerBody, rfl⟩

theorem build_powerFiles : Catalog.build powerFiles = .ok powerCatalog := rfl

/-- The entry of an instance with a number. -/
def countEntry (n : Number) : Entry :=
  ⟨Component.ofInstance ⟨"a", "limit", [("count", .number n)]⟩
    (powerCatalog.templates.headD default), []⟩

/-- The arrangement of a canvas with that instance. -/
def countArrangement (n : Number) : Arrangement :=
  ⟨Section.all.map fun z => (z, if z = .state then [countEntry n] else [])⟩

theorem isArranged_countArrangement {t : String} (ht : Json.IsNumber t) {n : Number}
    (hn : Number.parse? t = some n) (h : Header) :
    IsArranged powerCatalog ⟨countArrangement n, h⟩ := by
  have htemplate : powerCatalog.template? "limit" = some (powerCatalog.templates.headD default) :=
    rfl
  have hzone : (powerCatalog.templates.headD default).category.zone = .state := rfl
  have hinstances : (Canvas.countCanvas n).instances =
      [⟨"a", "limit", [("count", .number n)]⟩] := rfl
  have harrange := Canvas.arrange_single hinstances rfl htemplate
  rw [hzone] at harrange
  exact ⟨_, Canvas.countCanvas n, Canvas.parse_countJson ht hn, harrange⟩

/-- The document with a rendering of the entry. -/
def countDocument (n : Number) (r : Rendered) (h : Header) : Document :=
  Document.ofRendered h.withDefaults (countArrangement n).sizes [(countEntry n, r)]

theorem source_countDocument (n : Number) {r : Rendered} (himports : r.imports = [])
    (hinherits : r.inherits = []) (hbody : (Document.normalize r.body).isEmpty = false)
    (h : Header) : (countDocument n r h).source =
      Document.layout h.withDefaults [] [] [[Document.normalize r.body]] := by
  have hsizes : (countArrangement n).sizes = [0, 1, 0, 0, 0, 0] := rfl
  have hblocks : Document.blocks (countArrangement n).sizes [(countEntry n, r)] =
      [[Document.normalize r.body]] := by
    simp [hsizes, Document.blocks, Document.pieces, hbody]
  rw [countDocument, Document.ofRendered]
  simp [hblocks, himports, hinherits, Text.sortedDistinct]

theorem emit_countArrangement {n : Number} {r : Rendered} {cache cache' : RenderCache}
    (h : (countEntry n).render cache = (.ok r, cache')) (header : Header) :
    (countArrangement n).emit header cache = (.ok (countDocument n r header), cache') := by
  have hentries : (countArrangement n).entries = [countEntry n] := rfl
  rw [Arrangement.emit, hentries, renderAll, h]
  rfl

/-- What decides the key of the entry of a number. -/
def countMessage (n : Number) : String :=
  "limit\x00" ++ Bag.canonical [("count", .number n), ("id", .string "a")]

theorem message_countEntry (n : Number) : (countEntry n).message = countMessage n := by
  have hbindings : (countEntry n).bindings = [("count", .number n), ("id", .string "a")] := by
    cbv
  have htemplate : (countEntry n).component.template.id ++ "\x00" = "limit\x00" := rfl
  rw [Entry.message, htemplate, hbindings, countMessage]

/-- The numbers five and seven. -/
def smallNumbers : List Number := [.finite ⟨false, 5, 0, 512⟩, .finite ⟨false, 7, 0, 512⟩]

/-- Their digests differ in the first byte. -/
theorem head_smallMessages :
    smallNumbers.map (fun n => (keccak256 (countMessage n)).head?) = [some 74, some 110] := by
  simp only [smallNumbers, List.map_cons, List.map_nil, keccak256_eq_numbers, List.cons.injEq,
    and_true]
  refine ⟨?_, ?_⟩ <;> decide +kernel

/-- Emissions of canvases with these numbers, and of the first one with another
header. -/
def smallRow : List Emission :=
  (smallNumbers.map fun n => ⟨countArrangement n, {}⟩) ++
    [⟨countArrangement (.finite ⟨false, 5, 0, 512⟩), { contractName := "Five" }⟩]

theorem entries_smallRow : ∀ e ∈ entries smallRow, ∃ n ∈ smallNumbers, e = countEntry n := by
  rintro e ⟨x, hx, he⟩
  simp only [smallRow, List.mem_append, List.mem_map, List.mem_singleton] at hx
  rcases hx with ⟨n, hn, rfl⟩ | rfl
  · exact ⟨n, hn, List.mem_singleton.mp he⟩
  · exact ⟨_, List.mem_cons_self, List.mem_singleton.mp he⟩

theorem numbers_smallRow : ∀ n ∈ numbers smallRow, n ∈ smallNumbers := by
  rintro n ⟨e, he, d, hd, hn⟩
  obtain ⟨m, hm, rfl⟩ := entries_smallRow e he
  obtain rfl := List.mem_singleton.mp hd
  exact List.mem_singleton.mp hn ▸ hm

/-- Two entries of one template are kept apart, and the third is remembered. -/
theorem transparent_smallRow : Transparent smallRow := by
  have hparse : ∀ n ∈ smallNumbers, ∃ t, Json.IsNumber t ∧ Number.parse? t = some n := by
    intro n hn
    simp only [smallNumbers, List.mem_cons, List.not_mem_nil, or_false] at hn
    rcases hn with rfl | rfl
    · exact ⟨"5", ⟨_, _, _, _, rfl, rfl, rfl, rfl⟩, by decide⟩
    · exact ⟨"7", ⟨_, _, _, _, rfl, rfl, rfl, rfl⟩, by decide⟩
  have harranged : ∀ x ∈ smallRow, x.IsArranged powerCatalog := by
    intro x hx
    obtain ⟨n, hn, h, rfl⟩ : ∃ n ∈ smallNumbers, ∃ h, x = ⟨countArrangement n, h⟩ := by
      simp only [smallRow, List.mem_append, List.mem_map, List.mem_singleton] at hx
      rcases hx with ⟨n, hn, rfl⟩ | rfl
      · exact ⟨n, hn, _, rfl⟩
      · exact ⟨_, List.mem_cons_self, _, rfl⟩
    obtain ⟨t, ht, hn⟩ := hparse n hn
    exact isArranged_countArrangement ht hn h
  have hhash : NoCollision smallRow := by
    have hheads : ((smallNumbers.map fun n => keccak256 (countMessage n)).map List.head?).Nodup := by
      rw [List.map_map]
      exact head_smallMessages ▸ by decide
    rintro _ ⟨e, he, rfl⟩ _ ⟨e', he', rfl⟩ hdigest
    obtain ⟨n, hn, rfl⟩ := entries_smallRow e he
    obtain ⟨n', hn', rfl⟩ := entries_smallRow e' he'
    simp only [message_countEntry] at hdigest ⊢
    rw [List.inj_on_of_nodup_map hheads.of_map hn hn' hdigest]
  obtain ⟨htransparent, halike, hdistinguished⟩ :=
    remembering_changes_no_document read_powerFiles build_powerFiles harranged hhash
  refine htransparent (halike (hdistinguished (fun n hn => ?_) ⟨fun n hn => ?_, ?_⟩))
  · obtain ⟨t, -, ht⟩ := hparse n (numbers_smallRow n hn)
    exact Number.isRead_of_parse? ht
  · have hodd : ∀ n ∈ smallNumbers, ¬n.Lopsided := by decide
    exact hodd n (numbers_smallRow n hn)
  · rintro ⟨n, hn, hinfinite⟩
    have hfinite : ∀ n ∈ smallNumbers, n.isInfinite = false := by decide
    rw [hfinite n (numbers_smallRow n hn)] at hinfinite
    cases hinfinite

theorem eq_ok_of_toOption {ε α : Type} {x : Except ε α} {a : α} (h : x.toOption = some a) :
    x = .ok a := by
  cases x with
  | error e => cases h
  | ok b => rw [Option.some_inj.mp h]

theorem rendering_power : (countEntry (.finite Number.power)).rendering =
    .ok ⟨"uint constant POWER = 1;", [], []⟩ :=
  eq_ok_of_toOption (by decide +kernel)

theorem rendering_neighbour : (countEntry (.finite Number.neighbour)).rendering =
    .ok ⟨"uint constant BELOW = 1;", [], []⟩ :=
  eq_ok_of_toOption (by decide +kernel)

/-- The two entries are written alike. -/
theorem message_power_eq_neighbour : (countEntry (.finite Number.power)).message =
    (countEntry (.finite Number.neighbour)).message := by
  rw [message_countEntry, message_countEntry]
  simp only [countMessage, Bag.canonical, List.map_cons, Value.canonical_power]

/-- Emissions of canvases with the numbers `2 ^ 513` and `2 ^ 513 - 2`. -/
def powerRow : List Emission :=
  [⟨countArrangement (.finite Number.power), {}⟩,
    ⟨countArrangement (.finite Number.neighbour), {}⟩]

/-- **A canvas can get the document of another**, with all else as it should
be: the second number is not the power of two, but the document says so. -/
theorem below_is_power :
    (∀ f ∈ powerFiles, ∃ b, Definitions.read b = .ok f.2) ∧
      Catalog.build powerFiles = .ok powerCatalog ∧
      (∀ x ∈ powerRow, x.IsArranged powerCatalog) ∧ NoCollision powerRow ∧
      ¬ Transparent powerRow := by
  refine ⟨read_powerFiles, build_powerFiles, fun x hx => ?_, ?_, fun htransparent => ?_⟩
  · simp only [powerRow, List.mem_cons, List.not_mem_nil, or_false] at hx
    rcases hx with rfl | rfl
    · exact isArranged_countArrangement Number.isNumber_powerText Number.parse?_powerText _
    · exact isArranged_countArrangement (Number.text_neighbour ▸ Number.neighbour.isNumber_text)
        Number.parse?_neighbourText _
  · have hmessage : ∀ e ∈ entries powerRow,
        e.message = (countEntry (.finite Number.power)).message := by
      rintro e ⟨x, hx, he⟩
      simp only [powerRow, List.mem_cons, List.not_mem_nil, or_false] at hx
      rcases hx with rfl | rfl
      · rw [List.mem_singleton.mp he]
      · rw [List.mem_singleton.mp he, message_power_eq_neighbour]
    rintro _ ⟨e, he, rfl⟩ _ ⟨e', he', rfl⟩ _
    rw [hmessage e he, hmessage e' he']
  · have hnone : ∀ n, (RenderCache.new 1).find? (countEntry n).key = none := fun _ => rfl
    have hpower := emit_countArrangement (Entry.render_of_none (hnone _) rendering_power) {}
    have hneighbour := emit_countArrangement
      (Entry.render_of_none (hnone _) rendering_neighbour) {}
    -- The second entry has the key under which the first one is remembered.
    have hkey : (countEntry (.finite Number.neighbour)).key =
        (countEntry (.finite Number.power)).key := by
      rw [Entry.key_eq, Entry.key_eq, message_power_eq_neighbour]
    have hremembered : ∀ r, ((countArrangement (.finite Number.neighbour)).emit {}
        ((RenderCache.new 1).add (countEntry (.finite Number.power)).key r)).1 =
          .ok (countDocument (.finite Number.neighbour) r {}) := by
      intro r
      rw [← hkey, emit_countArrangement (Entry.render_of_some (Cache.find?_add_self _ _ r))]
    have hrow := htransparent 1 1
    rw [powerRow, row_cons, row_cons, List.map_cons, List.map_cons, List.cons.injEq,
      List.cons.injEq] at hrow
    dsimp only [fresh] at hrow
    rw [hpower, hremembered, hneighbour] at hrow
    have hsource := congrArg Document.source (Except.ok.inj hrow.2.1)
    rw [source_countDocument _ rfl rfl (by decide), source_countDocument _ rfl rfl (by decide)]
      at hsource
    exact absurd hsource (by decide)

end Emission

end SolidityCanvas
