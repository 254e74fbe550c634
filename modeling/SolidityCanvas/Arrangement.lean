/-
The order in which the components of a canvas are written.

A connection may order its two ends, and a component that mentions a declared
type comes after the component that declares it. Sections come in the order
of a contract, and inside a section each component comes after those it
depends on, in the order of the canvas where nothing else decides.

`Canvas.arrange` gives the order, or says which components depend on each
other or run against the order of the sections, and `Canvas.resolve` adds that
to what has been found before. Connections that cannot be used are ignored.
-/
import SolidityCanvas.Canvas.Component
import SolidityCanvas.Solidity.TypeName

namespace SolidityCanvas

/-- A component with the names that connections give it, by link. Only links
with names are listed, sorted. -/
structure Entry where
  component : Component
  links : List (String × List String) := []
  deriving Inhabited

namespace Entry

/-- The id of the instance. -/
def id (e : Entry) : String := e.component.id

/-- The names of a link. -/
def linked (e : Entry) (link : String) : List String := (e.links.lookup link).getD []

/-- What the expressions of the template can read: the properties, a list of
names for each link, and the id. -/
def bindings (e : Entry) : Bag :=
  let links := e.component.template.links.map fun l => (l, Value.texts (e.linked l))
  Bag.ofList (e.component.properties.values ++ links ++ [("id", .text e.id)])

end Entry

/-- The entries of each section, in the order of a contract. -/
structure Arrangement where
  sections : List (Section × List Entry)
  deriving Inhabited

namespace Arrangement

/-- All entries in order. -/
def entries (a : Arrangement) : List Entry := a.sections.flatMap (·.2)

/-- The ids of all entries in order. -/
def order (a : Arrangement) : List String := a.entries.map (·.id)

/-- How many entries each section has. -/
def sizes (a : Arrangement) : List Nat := a.sections.map (·.2.length)

end Arrangement

/-- A constraint on the order of two components, and the connection it comes
from, if it comes from one. -/
structure Precedence where
  before : String
  after : String
  connection : Option Connection := none
  deriving DecidableEq, Inhabited

/-- A connection that can be used, with its ends and the rule that allows
it. -/
structure UsableConnection where
  connection : Connection
  source : Component
  target : Component
  rule : Rule
  deriving Inhabited

namespace UsableConnection

/-- The end that receives the link. -/
def dependent (u : UsableConnection) : Component :=
  if u.rule.order == .reverse then u.source else u.target

/-- The end that gives its name. -/
def provider (u : UsableConnection) : Component :=
  if u.rule.order == .reverse then u.target else u.source

/-- The constraint on the order of the ends. -/
def precedence? (u : UsableConnection) : Option Precedence :=
  match u.rule.order with
  | .forward => some ⟨u.source.id, u.target.id, some u.connection⟩
  | .reverse => some ⟨u.target.id, u.source.id, some u.connection⟩
  | .unordered => none

end UsableConnection

namespace Canvas

/-! ### Connections -/

/-- A connection with its ends, if it can be used. -/
def usable? (catalog : Catalog) (components : List Component) (k : Connection) :
    Option UsableConnection := do
  if k.source == k.target then none
  let source ← componentWith? components k.source
  let target ← componentWith? components k.target
  let rule ← catalog.rule? source.template.category.name target.template.category.name
  return ⟨k, source, target, rule⟩

/-- The connections that can be used, each once. -/
def usableConnections (catalog : Catalog) (components : List Component)
    (connections : List Connection) : List UsableConnection :=
  connections.eraseDups.filterMap (usable? catalog components)

/-- The names that connections give a component under a link, in the order of
the providers on the canvas. -/
def linkedNames (components : List Component) (usable : List UsableConnection) (c : Component)
    (link : String) : List String :=
  components.flatMap fun p =>
    (usable.filter fun u =>
      u.rule.link == link && u.dependent.id == c.id && u.provider.id == p.id).map
        fun _ => p.displayName

/-- A component with its links. -/
def entryOf (components : List Component) (usable : List UsableConnection) (c : Component) :
    Entry :=
  let links := Text.sortedDistinct <|
    (usable.filter fun u => !u.rule.link.isEmpty && u.dependent.id == c.id).map (·.rule.link)
  ⟨c, links.map fun l => (l, linkedNames components usable c l)⟩

/-! ### Types -/

/-- The id of the first component that declares a type. -/
def typeDeclarer? (components : List Component) (name : String) : Option String :=
  (components.find? (·.declaredType? == some name)).map (·.id)

/-- The types that a property holds, according to its check. -/
def typeTexts (c : Component) (p : Property) : List String :=
  let text := c.properties.text p.name
  let values := if text.isEmpty then c.properties.texts p.name else [text]
  match p.check with
  | .type => values
  | .parameters | .fields => values.map fun v => (Solidity.Parameter.read v).type
  | _ => []

/-- The ids of the components that declare types which a component mentions,
each once, in the order they are mentioned. -/
def typeProviders (components : List Component) (c : Component) : List String :=
  let mentioned := c.template.properties.flatMap fun p =>
    (typeTexts c p).flatMap Solidity.identifiers
  ((mentioned.filterMap (typeDeclarer? components)).filter (· != c.id)).eraseDups

/-- All constraints on the order of components: those of connections, then
those of types. -/
def precedences (components : List Component) (usable : List UsableConnection) :
    List Precedence :=
  usable.filterMap (·.precedence?) ++
    components.flatMap fun c => (typeProviders components c).map fun p => { before := p, after := c.id }

/-! ### Order -/

/-- Adds constraints to a graph. -/
def addPrecedences (g : Graph) : List Precedence → Except InvariantError Graph
  | [] => .ok g
  | p :: rest => do
    let g ← (g.addEdge p.before p.after).mapError fun f => ⟨p.after, .edge f⟩
    addPrecedences g rest

/-- The finding about components that depend on each other. -/
def cycleFinding (members : List String) : Diagnostic :=
  (Diagnostic.errorOn Code.cycle (members.headD "") ""
    ("dependency cycle between instances " ++
      ", ".intercalate (members.map Text.quoted))).withRelated members.tail

/-- The section of a component. -/
def zoneOf? (components : List Component) (id : String) : Option Section :=
  (componentWith? components id).map (·.template.category.zone)

/-- The finding about a constraint that runs against the order of the
sections. -/
def conflictFinding? (components : List Component) (p : Precedence) : Option Diagnostic := do
  let first ← zoneOf? components p.before
  let second ← zoneOf? components p.after
  if first.rank ≤ second.rank then none
  let k := p.connection.getD ⟨"", ""⟩
  return (Diagnostic.errorOn Code.sectionConflict k.source ""
    ("connection " ++ k.source ++ " -> " ++ k.target ++ " requires " ++ Text.quoted p.before ++
      " (" ++ first.text ++ ") to precede " ++ Text.quoted p.after ++ " (" ++ second.text ++
      "), but " ++ first.text ++ " are emitted after " ++ second.text)).withRelated [k.target]

/-- The entries of a section in order. -/
def sectionEntries (entries : List Entry) (ps : List Precedence) (zone : Section) :
    Except InvariantError (List Entry) := do
  let own := entries.filter (·.component.template.category.zone == zone)
  let ids := own.map (·.id)
  let g ← addPrecedences (ids.foldl Graph.addNode Graph.empty)
    (ps.filter fun p => ids.contains p.before && ids.contains p.after)
  match g.sort? g.addedBefore with
  | none => .error ⟨"", .unsorted zone⟩
  | some order => .ok (order.filterMap fun id => own.find? (·.id == id))

/-- The order of some components, or what stands against one. -/
def arrangeComponents (catalog : Catalog) (components : List Component)
    (connections : List Connection) :
    Except InvariantError (Except (List Diagnostic) Arrangement) := do
  let usable := usableConnections catalog components connections
  let ps := precedences components usable
  let g ← addPrecedences ((components.map (·.id)).foldl Graph.addNode Graph.empty) ps
  match g.cycles with
  | [] =>
    match ps.filterMap (conflictFinding? components) with
    | [] =>
      let entries := components.map (entryOf components usable)
      let sections ← Section.all.mapM fun zone => do
        let inOrder ← sectionEntries entries ps zone
        return (zone, inOrder)
      return .ok ⟨sections⟩
    | conflicts => return .error conflicts
  | cycles => return .error (cycles.map cycleFinding)

/-- The components of some instances, after those that are `bound` already.
What is wrong with their properties has been found by the check. -/
def bindOnto (catalog : Catalog) (bound : List Component) :
    List Instance → Except InvariantError (List Component)
  | [] => .ok bound
  | i :: rest =>
    if (componentWith? bound i.id).isSome then bindOnto catalog bound rest
    else
      match catalog.template? i.template with
      | none => .error ⟨i.id, .unknownTemplate i.template⟩
      | some t => bindOnto catalog (bound ++ [Component.ofInstance i t]) rest

/-- The order of the components of a canvas, or what stands against one. -/
def arrange (c : Canvas) (catalog : Catalog) :
    Except InvariantError (Except (List Diagnostic) Arrangement) := do
  let components ← bindOnto catalog [] c.instances
  arrangeComponents catalog components c.connections

/-- The order of the components of a canvas, if nothing stands against one.
What does is added to the findings so far. -/
def resolve (c : Canvas) (catalog : Catalog) (soFar : List Diagnostic) :
    Except InvariantError (Option Arrangement × List Diagnostic) := do
  match ← c.arrange catalog with
  | .ok a => return (some a, soFar)
  | .error own => return (none, soFar ++ own)

end Canvas

end SolidityCanvas
