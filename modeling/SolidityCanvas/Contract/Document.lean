/-
Contracts as source text.

A document has a header, the contract's imports and bases, and the bodies of
its components, section by section. Consecutive bodies of one line stay
together; a body of several lines and a new section are set apart by a blank
line.

What a template renders for given variables is remembered, so that writing a
canvas again after a small change renders only what has changed.
-/
import SolidityCanvas.Arrangement
import SolidityCanvas.Cache
import SolidityCanvas.Hash.Keccak

namespace SolidityCanvas

/-- What is said about a contract as a whole. Empty fields are left to their
defaults. -/
structure Header where
  contractName : String := ""
  license : String := ""
  pragma : String := ""
  deriving DecidableEq, Inhabited

namespace Header

/-- What stands for empty fields. -/
def default : Header := ⟨"Composed", "MIT", "^0.8.20"⟩

/-- The header with empty fields taken from another one. -/
def orElse (h other : Header) : Header where
  contractName := if h.contractName.isEmpty then other.contractName else h.contractName
  license := if h.license.isEmpty then other.license else h.license
  pragma := if h.pragma.isEmpty then other.pragma else h.pragma

/-- The header with defaults for empty fields. -/
def withDefaults (h : Header) : Header := h.orElse default

end Header

/-- A source text and what is known about it. -/
structure Document where
  source : String
  /-- Distinct and sorted. -/
  imports : List String
  /-- Distinct and sorted. -/
  inherits : List String
  /-- The sum of the costs of all templates, as a 64-bit word. -/
  estimatedCost : Int64
  /-- The digest of the source. -/
  hash : List UInt8
  deriving DecidableEq, Inhabited

namespace Document

/-! ### Layout -/

/-- Whether a character is dropped at the end of a line. -/
def isTrailing (c : Char) : Bool := c == ' ' || c == '\t' || c == '\r'

/-- A text without the characters of a kind at its end. -/
def dropTrailing (p : Char → Bool) (s : String) : String :=
  String.ofList (s.toList.reverse.dropWhile p).reverse

/-- A body without blanks at the ends of lines and without blank lines around
it. -/
def normalize (body : String) : String :=
  let lines := (Text.lines body).map (dropTrailing isTrailing)
  let kept := (lines.dropWhile (·.isEmpty)).reverse.dropWhile (·.isEmpty)
  "\n".intercalate kept.reverse

/-- Whether a body has several lines. -/
def isLong (body : String) : Bool := body.toList.contains '\n'

/-- A body inside a contract: each line that is not empty moved in. -/
def indented (body : String) : String :=
  String.join <| (Text.lines body).map fun l => (if l.isEmpty then "" else "    " ++ l) ++ "\n"

/-- The bodies of a section after one of them. -/
def bodiesAfter (previous : String) : List String → String
  | [] => ""
  | body :: rest =>
    (if isLong body || isLong previous then "\n" else "") ++ indented body ++
      bodiesAfter body rest

/-- The bodies of a section. -/
def sectionText : List String → String
  | [] => ""
  | body :: rest => indented body ++ bodiesAfter body rest

/-- The source text. -/
def layout (h : Header) (imports inherits : List String) (blocks : List (List String)) :
    String :=
  "// SPDX-License-Identifier: " ++ h.license ++ "\n" ++
  "pragma solidity " ++ h.pragma ++ ";\n" ++
  (if imports.isEmpty then ""
    else "\n" ++ String.join (imports.map fun i => "import " ++ Text.quoted i ++ ";\n")) ++
  "\ncontract " ++ h.contractName ++
  (if inherits.isEmpty then "" else " is " ++ ", ".intercalate inherits) ++ " \x7b\n" ++
  "\n".intercalate (blocks.map sectionText) ++ "\x7d\n"

end Document

/-! ### Rendering -/

/-- The digest of the template's id and the variables it is rendered with. -/
def renderKey (template : String) (bindings : Bag) : List UInt8 :=
  Keccak.digest (template.toUTF8.toList ++ 0 :: bindings.canonical.toUTF8.toList)

/-- Remembered renderings. -/
abbrev RenderCache := Cache (List UInt8) Rendered

/-- How many renderings are remembered, if no number is given. -/
def defaultRenderCapacity : Nat := 1024

/-- An empty cache for a number of renderings; zero stands for the default. -/
def RenderCache.new (capacity : Nat) : RenderCache :=
  ⟨if capacity == 0 then defaultRenderCapacity else capacity, []⟩

/-- What an entry adds to a contract, and the cache afterwards. -/
def Entry.render (e : Entry) (cache : RenderCache) : Except RenderError Rendered × RenderCache :=
  let bindings := e.bindings
  let key := renderKey e.component.template.id bindings
  match cache.get key with
  | (some r, cache) => (.ok r, cache)
  | (none, cache) =>
    match e.component.template.render bindings with
    | .ok r => (.ok r, cache.add key r)
    | .error f => (.error f, cache)

/-- What some entries add to a contract, one after another. -/
def renderAll (cache : RenderCache) :
    List Entry → Except InvariantError (List (Entry × Rendered)) × RenderCache
  | [] => (.ok [], cache)
  | e :: rest =>
    match e.render cache with
    | (.error f, cache) => (.error ⟨e.id, .render f⟩, cache)
    | (.ok r, cache) =>
      let (others, cache) := renderAll cache rest
      (others.map ((e, r) :: ·), cache)

namespace Document

/-- A list cut into pieces of some lengths. -/
def pieces {α : Type} : List Nat → List α → List (List α)
  | [], _ => []
  | n :: sizes, items => items.take n :: pieces sizes (items.drop n)

/-- The bodies of each section that has some, where the sections have `sizes`
entries. -/
def blocks (sizes : List Nat) (rendered : List (Entry × Rendered)) : List (List String) :=
  let bodies := pieces sizes (rendered.map fun (_, r) => normalize r.body)
  (bodies.map (·.filter (!·.isEmpty))).filter (!·.isEmpty)

/-- The document of the rendered entries of some sections. -/
def ofRendered (h : Header) (sizes : List Nat) (rendered : List (Entry × Rendered)) :
    Document :=
  let imports := Text.sortedDistinct (rendered.flatMap (·.2.imports))
  let inherits := Text.sortedDistinct (rendered.flatMap (·.2.inherits))
  let source := layout h imports inherits (blocks sizes rendered)
  { source, imports, inherits
    estimatedCost := rendered.foldl (fun n (e, _) => n + e.component.template.cost) 0
    hash := keccak256 source }

end Document

/-- Writes the entries of an arrangement, and gives the cache afterwards. -/
def Arrangement.emit (a : Arrangement) (h : Header) (cache : RenderCache) :
    Except InvariantError Document × RenderCache :=
  let (rendered, cache) := renderAll cache a.entries
  (rendered.map (Document.ofRendered h.withDefaults a.sizes), cache)

end SolidityCanvas
