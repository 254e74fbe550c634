/-
Caches of bounded size.

A cache keeps the values that were used last. Looking up a value counts as
using it; adding one to a full cache drops the value that was not used for
the longest time.
-/

namespace SolidityCanvas

/-- Remembered values by key, the one used last in front. -/
structure Cache (κ α : Type) where
  capacity : Nat
  entries : List (κ × α) := []

namespace Cache

variable {κ α : Type} [BEq κ]

/-- The value of a key. -/
def find? (c : Cache κ α) (key : κ) : Option α := c.entries.lookup key

/-- Puts a value in front. -/
def promote (c : Cache κ α) (key : κ) (value : α) : Cache κ α :=
  { c with entries := (key, value) :: c.entries.filter fun e => !(e.1 == key) }

/-- The value of a key, and the cache after it was used. -/
def get (c : Cache κ α) (key : κ) : Option α × Cache κ α :=
  match c.find? key with
  | some value => (some value, c.promote key value)
  | none => (none, c)

/-- Remembers a value. A cache holds at least one. -/
def add (c : Cache κ α) (key : κ) (value : α) : Cache κ α :=
  let grown := c.promote key value
  { grown with entries := grown.entries.take (max 1 c.capacity) }

end Cache

end SolidityCanvas
