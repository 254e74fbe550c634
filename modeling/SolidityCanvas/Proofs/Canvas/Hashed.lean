/-
Canvases with one content hash.

Binding, checking and arranging see no more of a canvas than its content hash, as
long as they do not calculate with numbers: the hash is made of the texts of numbers,
and expressions of a template see the numbers themselves.

* `Catalog.hash_suffices`: what is bound alike, found alike and arranged alike
  because the hash is the same;
* `Canvas.declares_power`: a catalog, and canvases with one hash, of which only one is
  found to be in order.
-/
import SolidityCanvas.Proofs.Canvas.Shown
import SolidityCanvas.Proofs.Contract.Reading
import SolidityCanvas.Proofs.Compiler.Keys

namespace SolidityCanvas

/-- **Texts with one digest are one text**, where the hash tells them apart. -/
theorem eq_of_keccakText_eq {s t : String} (hinj : Set.InjOn keccak256 {s, t})
    (h : keccakText s = keccakText t) : s = t := by
  have hread : ∀ u : String, digestOfText? (keccakText u) = some (keccak256 u) := fun u =>
    digestOfText?_hexText (length_digest _)
  refine hinj (.inl rfl) (.inr rfl) (Option.some_inj.mp ?_)
  rw [← hread, ← hread, h]

/-- **Binding, the check and the arrangement see no more than the encoding.**  For a
catalog that is built from files:

* values that can be written and have one canonical text are bound, by the properties
  of any template, with the same findings and to values with one canonical text;
* canvases of such values with one content hash are arranged alike, each entry with
  variables of one canonical text, or not for the same reasons; and the same is found
  on them, as long as their templates declare the same names;
* if moreover no two numbers in them have one text, exactly the same is found on them
  and they have the same arrangement.  It is enough then that their values are such as
  documents describe, with infinite numbers among them. -/
theorem Catalog.hash_suffices {files : List (String × Definitions)} {catalog : Catalog}
    (hread : ∀ f ∈ files, ∃ b, Definitions.read b = .ok f.2)
    (hbuild : build files = .ok catalog) :
    (∀ t ∈ catalog.templates, ∀ (id : String) (raw raw' : Bag),
      (∀ e ∈ raw, e.2.isEncodable) → (∀ e ∈ raw', e.2.isEncodable) →
        raw.canonical = raw'.canonical →
          (bind id t.properties raw).1.canonical = (bind id t.properties raw').1.canonical ∧
          (bind id t.properties raw).2 = (bind id t.properties raw').2) ∧
    ∀ c d : Canvas, Set.InjOn keccak256 {c.contentText, d.contentText} → c.hash = d.hash →
      (c.isEncodable → d.isEncodable →
        (c.arrange catalog).map (·.map Arrangement.encoded) =
          (d.arrange catalog).map (·.map Arrangement.encoded) ∧
        (c.declaredNames catalog = d.declaredNames catalog →
          c.validate catalog = d.validate catalog)) ∧
      (c.IsTold → d.IsTold → Number.Distinguished (c.numbers ∪ d.numbers) →
        c.validate catalog = d.validate catalog ∧ c.arrange catalog = d.arrange catalog) := by
  refine ⟨fun t _ id raw raw' hraw hraw' h => bind_of_canonical hraw hraw' h id,
    fun c d hinj hhash => ?_⟩
  have htext := eq_of_keccakText_eq hinj hhash
  refine ⟨fun hc hd => ?_, fun hc hd hN => ?_⟩
  · have halike := Canvas.alike_of_contentText hc hd htext
    exact ⟨Canvas.arrange_shown halike catalog, Canvas.validate_shown halike⟩
  · have halike := Canvas.alike_of_told hN hc hd htext
    have hcomponents := Canvas.components_eq_of_shown (sound_of_build hread hbuild) hN halike
    rw [Canvas.validate_eq, Canvas.validate_eq, Canvas.arrange_eq, Canvas.arrange_eq,
      hcomponents, halike.connections]
    exact ⟨rfl, rfl⟩

/-! ### Tags in a tuple and in a set -/

/-- A canvas with a note that has some tags. -/
def Canvas.tagged (tags : Value) : Canvas :=
  { instances := [⟨"a", "note",
      [("pages", .int 5), ("tags", tags), ("title", .string "Plan")]⟩] }

/-- It does not matter whether the tags of a note stand in a tuple or in a set. -/
theorem Catalog.note_hash_suffices :
    let c := Canvas.tagged (.tuple [.string "x", .string "y"])
    let d := Canvas.tagged (.set .string [.string "x", .string "y"])
    c.hash = d.hash ∧ c.validate noteCatalog = d.validate noteCatalog ∧
      c.arrange noteCatalog = d.arrange noteCatalog := by
  intro c d
  have hread : ∀ f ∈ noteFiles, ∃ b, Definitions.read b = .ok f.2 := by
    intro f hf
    rw [List.mem_singleton.mp hf]
    exact ⟨noteBody, rfl⟩
  have htext : c.contentText = d.contentText :=
    Canvas.contentText_eq_iff.mpr ⟨by rfl, rfl⟩
  have hinj : Set.InjOn keccak256 {c.contentText, d.contentText} := by
    rw [htext, Set.pair_eq_singleton]
    exact Set.injOn_singleton _ _
  have hnumber : ∀ n ∈ c.numbers ∪ d.numbers, n = .ofInt 5 := by
    simp only [c, d, Canvas.numbers, Canvas.tagged, List.mem_cons, List.not_mem_nil, or_false,
      exists_eq_left, exists_eq_or_imp, Set.mem_union, Set.mem_ofPred_eq]
    simp [Value.numbers, Value.itemsNumbers, Value.int]
  have hdistinguished : Number.Distinguished (c.numbers ∪ d.numbers) := by
    refine ⟨fun m hm n hn _ => (hnumber m hm).trans (hnumber n hn).symm, ?_⟩
    rintro ⟨n, hn, hinfinite⟩
    rw [hnumber n hn] at hinfinite
    cases hinfinite
  have htold : ∀ tags, (Canvas.tagged tags).isEncodable → (Canvas.tagged tags).IsTold :=
    fun tags h i hi e he => .inl (List.all_eq_true.mp (List.all_eq_true.mp h i hi) e he)
  obtain ⟨-, hcanvas⟩ := Catalog.hash_suffices hread (rfl : Catalog.build noteFiles = .ok noteCatalog)
  have hhash : c.hash = d.hash := congrArg keccakText htext
  exact ⟨hhash, (hcanvas c d hinj hhash).2 (htold _ rfl) (htold _ rfl) hdistinguished⟩

/-! ### A number that is hashed like another -/

namespace Canvas

/-- A file with a template that declares one name for a power of two, and the id of
the instance for all other numbers. -/
def markBody : Config.Body where
  blocks := [
    .mk "category" ["limit"] [⟨"section", .template [.literal (.string "state")]⟩] [],
    .mk "template" ["limit"] [
        ⟨"category", .template [.literal (.string "limit")]⟩,
        ⟨"emit", .template [.literal (.string "uint x;")]⟩,
        ⟨"declares", .object [(.literal (.string "mark"), .tuple [.conditional
          (.binary .equal (.reference "count" []) (.literal (.number (.finite Number.power))))
          (.template [.literal (.string "x")]) (.reference "id" [])])]⟩]
      [.mk "property" ["count"] [
        ⟨"type", .reference "number" []⟩, ⟨"required", .literal (.bool true)⟩] []]]

/-- What the file defines. -/
def markFiles : List (String × Definitions) :=
  [("limit", ((Definitions.read markBody).toOption).getD {})]

/-- The catalog of the file. -/
def markCatalog : Catalog := ((Catalog.build markFiles).toOption).getD {}

/-- A canvas with two instances that have one number. -/
def pair (n : Number) : Canvas :=
  { instances := [⟨"a", "limit", [("count", .number n)]⟩, ⟨"b", "limit", [("count", .number n)]⟩] }

/-- The codes of what is found on a canvas. -/
def codes (c : Canvas) : Option (List String) :=
  (c.validate markCatalog).toOption.map fun ds => ds.map (·.code)

/-- **What is found can depend on more than the content hash**: with the number
`2 ^ 513` the two instances declare the same name, with `2 ^ 513 - 2` they do not. -/
theorem validate_pair_power_ne_neighbour :
    (∀ f ∈ markFiles, ∃ b, Definitions.read b = .ok f.2) ∧
    Catalog.build markFiles = .ok markCatalog ∧
    (pair (.finite Number.power)).isEncodable ∧ (pair (.finite Number.neighbour)).isEncodable ∧
    (pair (.finite Number.power)).hash = (pair (.finite Number.neighbour)).hash ∧
    (pair (.finite Number.power)).validate markCatalog ≠
      (pair (.finite Number.neighbour)).validate markCatalog := by
  refine ⟨fun f hf => ?_, rfl, rfl, rfl, ?_, fun h => ?_⟩
  · rw [List.mem_singleton.mp hf]
    exact ⟨markBody, rfl⟩
  · refine congrArg keccakText (contentText_eq_iff.mpr ⟨?_, by simp only [pair]⟩)
    simp only [pair, List.map_cons, List.map_nil, instanceParts, Bag.canonical,
      Value.canonical_power]
  · have hpower : codes (pair (.finite Number.power)) = some [Code.nameCollision] := by
      decide +kernel
    have hneighbour : codes (pair (.finite Number.neighbour)) = some [] := by decide +kernel
    rw [codes, h, ← codes, hneighbour] at hpower
    cases hpower

end Canvas

end SolidityCanvas
