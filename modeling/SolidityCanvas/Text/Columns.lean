/-
Texts in columns.

A tab ends a cell, and what follows the last tab of a line is in no column. A
cell is filled with spaces up to the width of its column, which is two more
than its widest cell. A line without the column ends it: the lines below have
a column of their own.
-/
import SolidityCanvas.Text.Split

namespace SolidityCanvas.Text

/-- The spaces between a widest cell and the next one. -/
def columnGap : Nat := 2

/-- Whether a line has a cell in a column. -/
def hasColumn (j : Nat) (row : List (List Char)) : Bool := j + 1 < row.length

/-- The width of a column that starts at the first of some lines. -/
def columnWidth (j : Nat) (rows : List (List (List Char))) : Nat :=
  (((rows.takeWhile (hasColumn j)).map fun row => (row.getD j []).length).foldl max 0) + columnGap

/-- A cell filled up to a width. -/
def padded (width : Nat) (cell : List Char) : List Char :=
  cell ++ List.replicate (width - cell.length) ' '

/-- Fills the cells of a column; `width` is that of the column in which the
line above has a cell. -/
def padColumn (j : Nat) : Option Nat → List (List (List Char)) → List (List (List Char))
  | _, [] => []
  | width, row :: rows =>
    if hasColumn j row then
      let w := width.getD (columnWidth j (row :: rows))
      row.modify j (padded w) :: padColumn j (some w) rows
    else row :: padColumn j none rows

/-- Fills the cells of all columns. -/
def padColumns (rows : List (List (List Char))) : List (List (List Char)) :=
  let columns := (rows.map List.length).foldl max 0
  (List.range columns).foldl (fun rows j => padColumn j none rows) rows

/-- The cells of a line. -/
def cellsOf (line : List Char) : List (List Char) :=
  splitOnChar '\t' (line.map fun c => if c.toNat == 11 then '\t' else c)

/-- A text with its columns filled. No column goes on after a page ends. -/
def inColumns (s : String) : String :=
  let page (cs : List Char) : List Char :=
    ['\n'].intercalate ((padColumns ((splitOnChar '\n' cs).map cellsOf)).map List.flatten)
  String.ofList (['\n'].intercalate ((splitOnChar (Char.ofNat 12) s.toList).map page))

end SolidityCanvas.Text
