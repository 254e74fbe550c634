/-
Canvases.

A canvas holds instances of templates and the connections drawn between them,
both in the order in which they were added. Nothing is promised about either:
ids may repeat, and connections may end nowhere.

`Canvas.contentText` is a text that determines the instances and the
connections; its hash identifies the content, whatever version it is.
-/
import SolidityCanvas.Hash.Keccak
import SolidityCanvas.Property.Bag
import SolidityCanvas.Timestamp

namespace SolidityCanvas

/-- An instance of a template. -/
structure Instance where
  id : String
  template : String
  properties : Bag := []
  deriving Inhabited

/-- The name under which an instance is shown: its name, or else its id. -/
def Instance.displayName (i : Instance) : String :=
  match i.properties.get? "name" with
  | some (.string s) => if s.isEmpty then i.id else s
  | _ => i.id

/-- A connection from one instance to another. -/
structure Connection where
  source : String
  target : String
  deriving DecidableEq, Inhabited

/-- Instances and connections. -/
structure Canvas where
  instances : List Instance := []
  connections : List Connection := []
  /-- The number of edits that led to it. -/
  version : UInt64 := 0
  /-- The time of the last edit. -/
  timestamp : Option Timestamp := none
  deriving Inhabited

namespace Canvas

/-- The first instance with an id. -/
def instance? (c : Canvas) (id : String) : Option Instance :=
  c.instances.find? (·.id == id)

/-- The place of the first instance with an id. -/
def indexOf? (c : Canvas) (id : String) : Option Nat :=
  c.instances.findIdx? (·.id == id)

/-- Whether an instance has the id. -/
def hasId (c : Canvas) (id : String) : Bool := c.instances.any (·.id == id)

/-! ### Content -/

/-- A text with its length in front, which separates it from what follows. -/
def lengthPrefixed (s : String) : String := toString s.utf8ByteSize ++ ":" ++ s

/-- An instance in the content text. -/
def instanceText (i : Instance) : String :=
  lengthPrefixed i.id ++ lengthPrefixed i.template ++ lengthPrefixed i.properties.canonical

/-- A connection in the content text. -/
def connectionText (k : Connection) : String :=
  lengthPrefixed k.source ++ lengthPrefixed k.target

/-- A text that determines the instances and the connections. -/
def contentText (c : Canvas) : String :=
  "instances " ++ toString c.instances.length ++ "\n" ++
    String.join (c.instances.map instanceText) ++
    "connections " ++ toString c.connections.length ++ "\n" ++
    String.join (c.connections.map connectionText)

/-- The hash of the content. -/
def hash (c : Canvas) : String := keccakText c.contentText

end Canvas

end SolidityCanvas
