/-
What an expression reads and calls.

* `Expr.references`: the variables that an expression reads, each with the
  steps into it. Names that a loop binds are not variables inside the loop.
* `Expr.calledFunctions`: the functions that an expression calls, except in
  the keys of objects and in values that are stepped into.
* `Reference.key`: the written form of a reference, the same for all ways to
  write it.
-/
import SolidityCanvas.Config.Expr
import SolidityCanvas.Number.Decimal
import SolidityCanvas.Text.Printable
import SolidityCanvas.Text.Split

namespace SolidityCanvas.Config

/-- A variable and the steps into it. -/
structure Reference where
  root : String
  steps : List Step
  deriving Inhabited

/-! ### Written forms -/

/-- A character in a quoted text, before the characters that follow it. A
dollar or percent sign before a brace is doubled. -/
def quotedKeyChar (c : Char) (rest : List Char) : List Char :=
  match c with
  | '\n' => ['\\', 'n']
  | '\r' => ['\\', 'r']
  | '\t' => ['\\', 't']
  | '"' => ['\\', '"']
  | '\\' => ['\\', '\\']
  | c =>
    if c == '$' || c == '%' then
      if rest.head? == some '\x7b' then [c, c] else [c]
    else if Text.isPrintable c then [c]
    else if c.toNat < 0x10000 then '\\' :: 'u' :: Text.hexPadded 4 c.toNat
    else '\\' :: 'U' :: Text.hexPadded 8 c.toNat

/-- The characters of a quoted text. -/
def quotedKeyChars : List Char → List Char
  | [] => []
  | c :: cs => quotedKeyChar c cs ++ quotedKeyChars cs

/-- A constant key. -/
def keyText : Value → String
  | .string s => "\"" ++ String.ofList (quotedKeyChars s.toList) ++ "\""
  | .number n => n.text
  | .bool b => if b then "true" else "false"
  | _ => "null"

/-- A step. -/
def Step.text : Step → String
  | .attribute name => "." ++ name
  | .index key => "[" ++ keyText key ++ "]"

/-- The written form of a reference. -/
def Reference.key (r : Reference) : String := r.root ++ String.join (r.steps.map Step.text)

/-! ### Walks -/

namespace Expr

mutual

/-- The references to variables other than the bound names. -/
def referencesUnder : Expr → List String → List Reference
  | reference root steps, bound => if bound.contains root then [] else [⟨root, steps⟩]
  | literal _, _ | item, _ => []
  | template parts, bound | tuple parts, bound => referencesOfList parts bound
  | wrapped e, bound | joined e, bound | relative e _, bound | unary _ e, bound
  | parens e, bound | ambiguousKey e, bound => referencesUnder e bound
  | call _ args _, bound => referencesOfList args bound
  | conditional c t f, bound =>
    referencesUnder c bound ++ referencesUnder t bound ++ referencesUnder f bound
  | binary _ l r, bound | index l r, bound | splat l r, bound =>
    referencesUnder l bound ++ referencesUnder r bound
  | object items, bound => referencesOfItems items bound
  | loop keyName valueName collection key value condition _, bound =>
    let inside := valueName :: keyName.toList ++ bound
    referencesUnder collection bound ++ referencesOfOption key inside ++
      referencesUnder value inside ++ referencesOfOption condition inside

/-- The references of expressions. -/
def referencesOfList : List Expr → List String → List Reference
  | [], _ => []
  | e :: es, bound => referencesUnder e bound ++ referencesOfList es bound

/-- The references of the items of an object. -/
def referencesOfItems : List (Expr × Expr) → List String → List Reference
  | [], _ => []
  | (k, v) :: rest, bound =>
    referencesUnder k bound ++ referencesUnder v bound ++ referencesOfItems rest bound

/-- The references of an expression that may be absent. -/
def referencesOfOption : Option Expr → List String → List Reference
  | none, _ => []
  | some e, bound => referencesUnder e bound

end

/-- The variables that an expression reads. -/
def references (e : Expr) : List Reference := e.referencesUnder []

mutual

/-- The names of the functions that an expression calls. -/
def calledFunctions : Expr → List String
  | call name args _ => name :: calledInList args
  | literal _ | item | reference _ _ | relative _ _ | ambiguousKey _ => []
  | template parts | tuple parts => calledInList parts
  | wrapped e | joined e | unary _ e | parens e => calledFunctions e
  | conditional c t f => calledFunctions c ++ calledFunctions t ++ calledFunctions f
  | binary _ l r | index l r | splat l r => calledFunctions l ++ calledFunctions r
  | object items => calledInItems items
  | loop _ _ collection key value condition _ =>
    calledFunctions collection ++ calledInOption key ++ calledFunctions value ++
      calledInOption condition

/-- The functions that expressions call. -/
def calledInList : List Expr → List String
  | [] => []
  | e :: es => calledFunctions e ++ calledInList es

/-- The functions that the values of an object call. -/
def calledInItems : List (Expr × Expr) → List String
  | [] => []
  | (_, v) :: rest => calledFunctions v ++ calledInItems rest

/-- The functions that an expression calls that may be absent. -/
def calledInOption : Option Expr → List String
  | none => []
  | some e => calledFunctions e

end

end Expr

/-! ### Summaries -/

/-- The references of some expressions in their written form, sorted. -/
def referenceKeys (es : List Expr) : List String :=
  Text.sortedDistinct (es.flatMap fun e => e.references.map (·.key))

/-- The variables that some expressions read, sorted. -/
def referenceRoots (es : List Expr) : List String :=
  Text.sortedDistinct (es.flatMap fun e => e.references.map (·.root))

/-- The functions that some expressions call, sorted. -/
def functionNames (es : List Expr) : List String :=
  Text.sortedDistinct (es.flatMap Expr.calledFunctions)

end SolidityCanvas.Config
