/-
Queues that give out a least member first.

The members stand in a row. Below the place `i` are the places `2 * i + 1` and
`2 * i + 2`, and no member is less than the one above it, so that the first
member is a least one. A member that comes in or goes out moves others along
one line of places only.

* `ofArray`: the queue of some members in any order.
* `push`: puts a member in.
* `pop?`: takes a least member out.
-/

namespace SolidityCanvas

/-- A queue. -/
structure Queue (α : Type) where
  row : Array α := #[]
  deriving Inhabited

namespace Queue

variable {α : Type}

/-- The place above a place. -/
def above (i : Nat) : Nat := (i - 1) / 2

/-- Whether the member at one place is less than that at another. -/
def lessAt (less : α → α → Bool) (row : Array α) (i j : Nat) : Bool :=
  match row[i]?, row[j]? with
  | some a, some b => less a b
  | _, _ => false

/-- Moves the member at a place up as long as it is less than the one above
it. There are no more moves than `steps`. -/
def siftUp (less : α → α → Bool) : Nat → Array α → Nat → Array α
  | 0, row, _ => row
  | steps + 1, row, i =>
    if i != 0 && lessAt less row i (above i) then
      siftUp less steps (row.swapIfInBounds i (above i)) (above i)
    else row

/-- The place of the lesser of the two members below a place, the left one if
neither is less. -/
def lesserBelow (less : α → α → Bool) (row : Array α) (i : Nat) : Nat :=
  if lessAt less row (2 * i + 2) (2 * i + 1) then 2 * i + 2 else 2 * i + 1

/-- Moves the member at a place down as long as one below it is less. There
are no more moves than `steps`. -/
def siftDown (less : α → α → Bool) : Nat → Array α → Nat → Array α
  | 0, row, _ => row
  | steps + 1, row, i =>
    let j := lesserBelow less row i
    if lessAt less row j i then siftDown less steps (row.swapIfInBounds i j) j else row

/-- Moves the members at the places before `k` down, the last of them
first. -/
def settle (less : α → α → Bool) : Nat → Array α → Array α
  | 0, row => row
  | k + 1, row => settle less k (siftDown less row.size row k)

/-- The queue of some members. Those with nothing below them stay where they
are. -/
def ofArray (less : α → α → Bool) (row : Array α) : Queue α := ⟨settle less row.size row⟩

/-- Puts a member in. -/
def push (less : α → α → Bool) (q : Queue α) (a : α) : Queue α :=
  ⟨siftUp less q.row.size (q.row.push a) q.row.size⟩

/-- Takes the first member out, if there is one. The last one takes its place
and moves down from there. -/
def pop? (less : α → α → Bool) (q : Queue α) : Option (α × Queue α) :=
  match q.row[0]? with
  | none => none
  | some a =>
    let rest := (q.row.swapIfInBounds 0 (q.row.size - 1)).pop
    some (a, ⟨siftDown less rest.size rest 0⟩)

end Queue

end SolidityCanvas
