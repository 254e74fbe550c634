/-
YAML documents.

* `Yaml`: the documents that are written here: records, lists and texts.
* `Yaml.document`: a record as a text. Parts are indented by two spaces, and
  lists of words stand in brackets on one line.
-/
import SolidityCanvas.Yaml.Scalar

namespace SolidityCanvas

/-- A YAML document. -/
inductive Yaml
  | text (s : String)
  | number (n : Int)
  | truth (b : Bool)
  /-- A list on one line. -/
  | words (ws : List String)
  | list (items : List Yaml)
  | record (members : List (String × Yaml))

namespace Yaml

/-- A member that is left out when its text is empty. -/
def textMember (name s : String) : List (String × Yaml) :=
  if s.isEmpty then [] else [(name, text s)]

/-- A member that is left out when it is false. -/
def truthMember (name : String) (b : Bool) : List (String × Yaml) :=
  if b then [(name, truth true)] else []

/-- A list in brackets. -/
def bracketed (ws : List String) : String :=
  "[" ++ ", ".intercalate (ws.map (scalar true 0)) ++ "]"

/-- The start of an indented line. -/
def margin (indent : Nat) : String := String.ofList (List.replicate indent ' ')

mutual

/-- What follows the name of a member whose name is indented, or the mark of
an item. -/
def afterName (indent : Nat) : Yaml → String
  | text s => " " ++ scalar false (indent + 2) s ++ "\n"
  | number n => " " ++ toString n ++ "\n"
  | truth b => (if b then " true" else " false") ++ "\n"
  | words ws => " " ++ bracketed ws ++ "\n"
  | list [] => " []\n"
  | list (y :: ys) => "\n" ++ items (indent + 2) (y :: ys)
  | record [] => " \x7b\x7d\n"
  | record ((n, y) :: more) =>
    "\n" ++ margin (indent + 2) ++ n ++ ":" ++ afterName (indent + 2) y ++ members (indent + 2) more

/-- The items of a list, each after a mark. -/
def items (indent : Nat) : List Yaml → String
  | [] => ""
  | record ((n, y) :: more) :: ys =>
    margin indent ++ "- " ++ n ++ ":" ++ afterName (indent + 2) y ++ members (indent + 2) more ++
      items indent ys
  | y :: ys => margin indent ++ "-" ++ afterName indent y ++ items indent ys

/-- The members of a record, each on a line of its own. -/
def members (indent : Nat) : List (String × Yaml) → String
  | [] => ""
  | (n, y) :: more => margin indent ++ n ++ ":" ++ afterName indent y ++ members indent more

end

/-- A record as a document. -/
def document (ms : List (String × Yaml)) : String := members 0 ms

end Yaml

end SolidityCanvas
