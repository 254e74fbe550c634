/-
Templates: what components can be placed on a canvas.

A template declares the properties of its instances and how they are written.
Its expressions read the properties, the links that connections give it, and
the variable `id`.

* `Template.render`: what an instance adds to a contract.
* `Template.declaredNames`: the names that an instance introduces besides its
  own, by name space.
-/
import SolidityCanvas.Catalog.Category
import SolidityCanvas.Config.Eval
import SolidityCanvas.Config.Function.Library
import SolidityCanvas.Property.Bag
import SolidityCanvas.Property.Schema
import SolidityCanvas.Text.Split

namespace SolidityCanvas

open Config

/-- How instances of a template appear in the interface of a contract. -/
inductive InterfaceKind
  | hidden
  | function
  | event
  | creation
  | record
  | enumeration
  deriving DecidableEq, Inhabited

namespace InterfaceKind

/-- The word for a kind in a catalog. -/
def text : InterfaceKind → String
  | hidden => ""
  | function => "function"
  | event => "event"
  | creation => "constructor"
  | record => "struct"
  | enumeration => "enum"

/-- All kinds. -/
def all : List InterfaceKind := [hidden, function, event, creation, record, enumeration]

/-- The kind that a word stands for. -/
def ofText? (s : String) : Option InterfaceKind := all.find? (·.text == s)

end InterfaceKind

/-- A template. -/
structure Template where
  id : String
  category : Category
  description : String
  cost : Int64
  kind : InterfaceKind
  properties : List Property
  /-- The links that connections give it, sorted. -/
  links : List String
  imports : Expr
  inherits : Expr
  declares : Expr
  emit : Expr
  /-- The file that declares it. -/
  file : String
  deriving Inhabited

/-- What an instance adds to a contract. -/
structure Rendered where
  body : String
  imports : List String
  inherits : List String
  deriving DecidableEq, Inhabited

/-- Why a value is no list of texts. -/
inductive TextListFault
  | faults (fs : List EvalFault)
  | noList (got : ValueType)
  | noText (got : ValueType)

/-- Why an instance cannot be rendered. -/
inductive RenderError
  | emitFaults (template : String) (fs : List EvalFault)
  | emitType (template : String) (got : ValueType)
  | imports (template : String) (f : TextListFault)
  | inherits (template : String) (f : TextListFault)
  | declaresFaults (template : String) (fs : List EvalFault)
  | declaresType (template : String) (got : ValueType)
  | declares (template nameSpace : String) (f : TextListFault)

namespace RenderError

/-- The faults of evaluation behind an error. -/
def evalFaults : RenderError → List EvalFault
  | emitFaults _ fs | declaresFaults _ fs => fs
  | imports _ (.faults fs) | inherits _ (.faults fs) | declares _ _ (.faults fs) => fs
  | _ => []

/-- A refused list in words; `reported` stands for faults of evaluation. -/
def listMessage (reported : String) : TextListFault → String
  | .faults _ => reported
  | .noList got => "expected a list of strings, got " ++ got.friendlyName
  | .noText got => "string required, but have " ++ got.requirementName

/-- The error in words; `reported` stands for faults of evaluation. -/
def message (reported : String) : RenderError → String
  | emitFaults t _ => "template " ++ Text.quoted t ++ ": rendering emit: " ++ reported
  | emitType t got =>
    "template " ++ Text.quoted t ++ ": emit must produce a string: " ++
      listMessage reported (.noText got)
  | imports t f =>
    "template " ++ Text.quoted t ++ ": rendering imports: " ++ listMessage reported f
  | inherits t f =>
    "template " ++ Text.quoted t ++ ": rendering inherits: " ++ listMessage reported f
  | declaresFaults t _ => "template " ++ Text.quoted t ++ ": evaluating declares: " ++ reported
  | declaresType t got =>
    "template " ++ Text.quoted t ++ ": declares must be an object, got " ++ got.friendlyName
  | declares t space f =>
    "template " ++ Text.quoted t ++ ": declares " ++ space ++ ": " ++ listMessage reported f

end RenderError

/-- The texts of a list, trimmed; empty ones are left out. -/
def textItems : List Value → Except TextListFault (List String)
  | [] => .ok []
  | v :: vs =>
    match v.convert? .string with
    | none => .error (.noText v.type)
    | some w => do
      let rest ← textItems vs
      match w with
      | .string s =>
        let s := Text.trim s
        return if s.isEmpty then rest else s :: rest
      | _ => return rest

/-- The texts that a value lists; `null` lists none. -/
def textList (v : Value) : Except TextListFault (List String) :=
  match v with
  | .null _ => .ok []
  | v =>
    match v.items? with
    | some items => textItems items
    | none => .error (.noList v.type)

/-- The texts that an expression lists. -/
def evalTexts (e : Expr) (scope : Scope) : Except TextListFault (List String) :=
  let o := e.eval scope
  if o.faults.isEmpty then textList o.value else .error (.faults o.faults)

/-- The scope of the expressions of templates. -/
def templateScope (bindings : Bag) : Scope :=
  { bindings := some bindings, functions := some library }

namespace Template

/-- The text that an instance is written as. -/
def renderBody (t : Template) (scope : Scope) : Except RenderError String :=
  let o := t.emit.eval scope
  if !o.faults.isEmpty then .error (.emitFaults t.id o.faults)
  else match o.value.convert? .string with
    | none => .error (.emitType t.id o.value.type)
    | some (.string s) => .ok s
    | some _ => .ok ""

/-- What an instance adds to a contract. The bindings are its properties,
its links and `id`. -/
def render (t : Template) (bindings : Bag) : Except RenderError Rendered := do
  let scope := templateScope bindings
  let body ← t.renderBody scope
  let imports ← (evalTexts t.imports scope).mapError (.imports t.id)
  let inherits ← (evalTexts t.inherits scope).mapError (.inherits t.id)
  return { body, imports, inherits }

/-- The lists of names in an object, those that are not empty. -/
def nameLists (t : Template) : List (String × Value) →
    Except RenderError (List (String × List String))
  | [] => .ok []
  | (space, v) :: entries => do
    let names ← (textList v).mapError (.declares t.id space)
    let rest ← t.nameLists entries
    return if names.isEmpty then rest else (space, names) :: rest

/-- What the declared names of an instance can read. Links are empty here. -/
def declaringBindings (t : Template) (id : String) (properties : Bag) : Bag :=
  let links := t.links.map fun l => (l, Value.list .string [])
  Bag.ofList (properties ++ links ++ [("id", .text id)])

/-- The names that an instance introduces besides its own, by name space;
`none` if it declares nothing. -/
def declaredNames (t : Template) (id : String) (properties : Bag) :
    Except RenderError (Option (List (String × List String))) :=
  let o := t.declares.eval (templateScope (t.declaringBindings id properties))
  if !o.faults.isEmpty then .error (.declaresFaults t.id o.faults)
  else match o.value with
    | .null _ => .ok none
    | .object entries | .map _ entries => (t.nameLists entries).map some
    | v => .error (.declaresType t.id v.type)

end Template

end SolidityCanvas
