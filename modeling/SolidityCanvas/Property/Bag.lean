/-
The properties of an instance.

* `Bag`: the values that a user has set, by name, whatever a template
  declares. Names are sorted and distinct.
* `canonical`: a text that determines the values up to the JSON form of each.
-/
import SolidityCanvas.Json.Writer
import SolidityCanvas.Text.Quoted
import SolidityCanvas.Value.Display
import SolidityCanvas.Value.Json

namespace SolidityCanvas

/-- Named values, sorted by name. -/
abbrev Bag : Type := List (String × Value)

namespace Bag

/-- A bag of named values; of several with one name the last counts. -/
def ofList (entries : List (String × Value)) : Bag := Value.sortNamed entries

/-- The value of a property. -/
def get? (b : Bag) (name : String) : Option Value := b.lookup name

/-- The bag with a property set. -/
def set (b : Bag) (name : String) (v : Value) : Bag := Value.insertNamed name v b

/-- The bag without a property. -/
def erase (b : Bag) (name : String) : Bag := b.filter (·.1 != name)

/-- The names of the properties. -/
def names (b : Bag) : List String := b.map (·.1)

/-- The bag of the members of a JSON object. Each member is a value by itself,
and names stay as they are written. -/
def ofMembers? (members : List (String × Json)) : Option Bag := do
  let entries ← members.mapM fun (n, j) => do
    let v ← Value.ofJson? j
    return (n, v)
  return ofList entries

end Bag

/-- The canonical text of a value. -/
def Value.canonical (v : Value) : String :=
  match v.toJson? with
  | some j => j.text
  | none => v.display

/-- The canonical text of named values: a line for each, with the name in
quotes. -/
def Bag.canonical (b : Bag) : String :=
  String.join (b.map fun (n, v) => Text.quoted n ++ "=" ++ v.canonical ++ "\n")

end SolidityCanvas
