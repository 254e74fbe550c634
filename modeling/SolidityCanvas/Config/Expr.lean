/-
Expressions of the configuration language (HCL).

An expression is read from a file once and evaluated in many scopes. Two
forms are not written by hand: `item` is the element that a splat goes
through, and `ambiguousKey` an object key that could be a name or a
reference.
-/
import SolidityCanvas.Value.Basic

namespace SolidityCanvas.Config

/-- Operators with two operands. -/
inductive BinaryOp
  | or
  | and
  | equal
  | notEqual
  | greater
  | greaterOrEqual
  | less
  | lessOrEqual
  | add
  | subtract
  | multiply
  | divide
  | modulo
  deriving DecidableEq, Inhabited

/-- Operators with one operand. -/
inductive UnaryOp
  | negate
  | not
  deriving DecidableEq, Inhabited

/-- A step into a value: an attribute by name or an element by key. -/
inductive Step
  | attribute (name : String)
  | index (key : Value)
  deriving Inhabited

/-- An expression. -/
inductive Expr
  /-- A constant. -/
  | literal (v : Value)
  /-- A text with parts that are evaluated and joined. -/
  | template (parts : List Expr)
  /-- A text that is a single interpolation; its value is kept as it is. -/
  | wrapped (e : Expr)
  /-- The texts of a tuple, joined. -/
  | joined (tuple : Expr)
  /-- A variable and steps into its value. -/
  | reference (root : String) (steps : List Step)
  /-- Steps into the value of an expression. -/
  | relative (source : Expr) (steps : List Step)
  /-- A function call; with `expand`, the items of the last argument are
  arguments of their own. -/
  | call (name : String) (args : List Expr) (expand : Bool)
  | conditional (condition ifTrue ifFalse : Expr)
  | binary (op : BinaryOp) (left right : Expr)
  | unary (op : UnaryOp) (e : Expr)
  | parens (e : Expr)
  | tuple (items : List Expr)
  /-- Pairs of a key and a value. A key that is a bare name is a literal. -/
  | object (items : List (Expr × Expr))
  /-- A loop over a collection that makes a tuple, or an object if there is a
  key; `group` collects the values of equal keys. -/
  | loop (keyName : Option String) (valueName : String) (collection : Expr)
      (key : Option Expr) (value : Expr) (condition : Option Expr) (group : Bool)
  | index (collection key : Expr)
  /-- An expression evaluated for each element of a collection. -/
  | splat (source each : Expr)
  | item
  | ambiguousKey (e : Expr)
  deriving Inhabited

namespace Expr

/-- The constant `null`. -/
def null : Expr := literal (.null .dynamic)

/-- The word that an expression is, if it is a bare word. -/
def keyword? : Expr → Option String
  | reference root [] => some root
  | literal (.bool true) => some "true"
  | literal (.bool false) => some "false"
  | _ => none

/-- An expression with one more step at its end. -/
def addStep (e : Expr) (s : Step) : Expr :=
  match e with
  | reference root steps => reference root (steps ++ [s])
  | relative source steps => relative source (steps ++ [s])
  | e => relative e [s]

end Expr

/-! ### Files -/

/-- A named value in a body. -/
structure Attribute where
  name : String
  value : Expr
  deriving Inhabited

/-- A block with its labels, and what it holds. -/
inductive Block
  | mk (type : String) (labels : List String) (attributes : List Attribute) (blocks : List Block)
  deriving Inhabited

namespace Block

/-- The kind of block. -/
def type : Block → String
  | mk t _ _ _ => t

/-- The labels after the kind. -/
def labels : Block → List String
  | mk _ ls _ _ => ls

/-- The attributes in the block. -/
def attributes : Block → List Attribute
  | mk _ _ as _ => as

/-- The blocks in the block. -/
def blocks : Block → List Block
  | mk _ _ _ bs => bs

end Block

/-- What a file or a block holds. Attribute names are distinct. -/
structure Body where
  attributes : List Attribute := []
  blocks : List Block := []
  deriving Inhabited

/-- What a block holds. -/
def Block.body (b : Block) : Body := ⟨b.attributes, b.blocks⟩

end SolidityCanvas.Config
