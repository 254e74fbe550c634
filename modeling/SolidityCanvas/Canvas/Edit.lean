/-
Editing a canvas.

An edit changes the canvas in place, step by step, and can fail on the way. It
keeps a canvas whole: ids stay distinct, and connections end at instances. One
that succeeds counts up the version and notes the time.

* `add`, `addAs`: a new instance, under the first free id of some candidates
  or under a given one.
* `remove`: drops an instance and the connections that touch it.
* `setProperty`: sets a property, or clears it.
* `connect`, `disconnect`: a connection more or less.
-/
import SolidityCanvas.Canvas.Basic

namespace SolidityCanvas

/-- Why an edit fails. -/
inductive EditError
  | duplicateInstance (id : String)
  | noInstance (id : String)
  | noConnection (source target : String)
  | noFreeId
  deriving DecidableEq, Inhabited

/-- The error in words. -/
def EditError.message : EditError → String
  | duplicateInstance id => "instance already exists: " ++ Text.quoted id
  | noInstance id => "instance not found: " ++ Text.quoted id
  | noConnection a b => "connection not found: " ++ a ++ " -> " ++ b
  | noFreeId => "no free instance id"

/-- Work on a canvas. What is done when it fails stays done. -/
abbrev Editing (α : Type) : Type := ExceptT EditError (StateM Canvas) α

/-- What the work comes to on a canvas, and the canvas afterwards. -/
def Editing.on {α : Type} (work : Editing α) (c : Canvas) : Except EditError α × Canvas :=
  (ExceptT.run work).run c

namespace Canvas

/-- The empty canvas at a time. -/
def new (time : Timestamp) : Canvas := { timestamp := some time }

/-- The canvas taken up again at a time. -/
def reopen (c : Canvas) (time : Timestamp) : Canvas := { c with timestamp := some time }

/-- Notes an edit. -/
def touch (time : Timestamp) : Editing Unit :=
  modify fun c => { c with version := c.version + 1, timestamp := some time }

/-- Goes on if an instance has the id. -/
def require (id : String) : Editing Unit := do
  if !(← get).hasId id then throw (.noInstance id)

/-- Puts an instance on the canvas. -/
def putInstance (i : Instance) : Editing Unit :=
  modify fun c => { c with instances := c.instances ++ [i] }

/-- Adds an instance under a given id. -/
def addAs (id template : String) (properties : Bag) (time : Timestamp) : Editing Unit := do
  if (← get).hasId id then throw (.duplicateInstance id)
  putInstance ⟨id, template, properties⟩
  touch time

/-- Adds an instance under the first candidate that no instance has as its
id, and gives that id. -/
def add (candidates : List String) (template : String) (properties : Bag) (time : Timestamp) :
    Editing String := do
  let c ← get
  match candidates.find? (!c.hasId ·) with
  | none => throw .noFreeId
  | some id =>
    putInstance ⟨id, template, properties⟩
    touch time
    return id

/-- Removes an instance and the connections that touch it. -/
def remove (id : String) (time : Timestamp) : Editing Unit := do
  require id
  modify fun c => { c with instances := c.instances.eraseP (·.id == id) }
  modify fun c =>
    { c with connections := c.connections.filter fun k => k.source != id && k.target != id }
  touch time

/-- Changes the first instance with an id. -/
def updateFirst (id : String) (f : Instance → Instance) : List Instance → List Instance
  | [] => []
  | i :: rest => if i.id == id then f i :: rest else i :: updateFirst id f rest

/-- The properties with one set, or cleared by `null` or by no value. -/
def assign (b : Bag) (name : String) : Option Value → Bag
  | none | some (.null _) => b.erase name
  | some v => b.set name v

/-- Sets a property of an instance; `null` and no value clear it. -/
def setProperty (id name : String) (v : Option Value) (time : Timestamp) : Editing Unit := do
  require id
  let change (i : Instance) : Instance := { i with properties := assign i.properties name v }
  modify fun c => { c with instances := updateFirst id change c.instances }
  touch time

/-- Connects two instances. -/
def connect (source target : String) (time : Timestamp) : Editing Unit := do
  require source
  require target
  modify fun c => { c with connections := c.connections ++ [⟨source, target⟩] }
  touch time

/-- Removes the first connection between two instances. -/
def disconnect (source target : String) (time : Timestamp) : Editing Unit := do
  if !(← get).connections.contains ⟨source, target⟩ then throw (.noConnection source target)
  modify fun c => { c with connections := c.connections.erase ⟨source, target⟩ }
  touch time

end Canvas

end SolidityCanvas
