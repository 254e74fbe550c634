/-
Categories of components, and how they may be connected.

A contract has a fixed row of sections; the category of a component decides
in which one it is written. A rule allows connections from one category to
another, may order the two ends, and may hand the name of one end to the
template of the other as an item of a link.
-/

namespace SolidityCanvas

/-- A region of a contract. -/
inductive Section
  | definitions
  | state
  | events
  | modifiers
  | creation
  | functions
  deriving DecidableEq, Inhabited

namespace Section

/-- The name of a section. -/
def text : Section → String
  | definitions => "definitions"
  | state => "state"
  | events => "events"
  | modifiers => "modifiers"
  | creation => "constructor"
  | functions => "functions"

/-- All sections in the order of a contract. -/
def all : List Section := [definitions, state, events, modifiers, creation, functions]

/-- The place of a section in a contract. -/
def rank : Section → Nat
  | definitions => 0
  | state => 1
  | events => 2
  | modifiers => 3
  | creation => 4
  | functions => 5

/-- The section with a name. -/
def ofText? (s : String) : Option Section := all.find? (·.text == s)

end Section

/-- What the components of a category have in common. -/
structure Category where
  name : String
  zone : Section
  /-- Instances of categories with one name space must have different
  names. -/
  nameSpace : String
  /-- The property that holds the name of an instance, if instances have
  names. -/
  nameProperty : Option String
  /-- Whether a canvas may hold no more than one instance. -/
  singleton : Bool
  /-- Whether the names of instances are types. -/
  providesType : Bool
  deriving DecidableEq, Inhabited

/-- How a connection orders its ends. -/
inductive Order
  | forward
  | reverse
  | unordered
  deriving DecidableEq, Inhabited

namespace Order

/-- The word for an order in a catalog. -/
def text : Order → String
  | forward => "forward"
  | reverse => "reverse"
  | unordered => "none"

/-- The order that a word stands for. -/
def ofText? (s : String) : Option Order := [forward, reverse, unordered].find? (·.text == s)

end Order

/-- A rule that allows connections from one category to another. -/
structure Rule where
  source : String
  target : String
  order : Order
  link : String
  meaning : String
  deriving DecidableEq, Inhabited

/-- The category whose templates receive the link: that of the later end. -/
def Rule.dependent (r : Rule) : String :=
  if r.order == .reverse then r.source else r.target

end SolidityCanvas
