/-
JSON documents.

A number is kept as it is written, and an object as the list of its members
in order, a name that occurs twice included; what a reader makes of either is
decided where the document is used.
-/

namespace SolidityCanvas

/-- A JSON document. -/
inductive Json
  | null
  | bool (b : Bool)
  | number (text : String)
  | string (s : String)
  | array (items : List Json)
  | object (members : List (String × Json))
  deriving Inhabited

namespace Json

/-- A whole number. -/
def ofNat (n : Nat) : Json := number (toString n)

/-- A list of texts. -/
def ofStrings (ss : List String) : Json := array (ss.map string)

/-- A member that is left out when its text is empty. -/
def textMember (name s : String) : List (String × Json) :=
  if s.isEmpty then [] else [(name, string s)]

/-- A member that is left out when the list is empty. -/
def textsMember (name : String) (ss : List String) : List (String × Json) :=
  if ss.isEmpty then [] else [(name, ofStrings ss)]

/-- A member that is left out when the number is zero. -/
def wordMember (name : String) (w : UInt64) : List (String × Json) :=
  if w == 0 then [] else [(name, ofNat w.toNat)]

/-- A member that is left out when it is false. -/
def flagMember (name : String) (b : Bool) : List (String × Json) :=
  if b then [(name, bool true)] else []

end Json

end SolidityCanvas
