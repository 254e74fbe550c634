/-
Catalogs.

A catalog holds categories, rules and templates, each in the order of its
declaration. `Catalog.build` makes one from the definitions of some files and
reports everything that does not fit together: all categories first, then all
rules, then all templates. What has a fault is not added, and what follows is
checked without it.
-/
import SolidityCanvas.Catalog.Definition
import SolidityCanvas.Catalog.Template
import SolidityCanvas.Config.Analysis

namespace SolidityCanvas

open Config

/-- A catalog. -/
structure Catalog where
  categories : List Category := []
  rules : List Rule := []
  templates : List Template := []
  deriving Inhabited

namespace Catalog

/-- The template with an id. -/
def template? (c : Catalog) (id : String) : Option Template := c.templates.find? (·.id == id)

/-- The category with a name. -/
def category? (c : Catalog) (name : String) : Option Category :=
  c.categories.find? (·.name == name)

/-- The rule for connections from one category to another. -/
def rule? (c : Catalog) (source target : String) : Option Rule :=
  c.rules.find? fun r => r.source == source && r.target == target

/-- The links that templates of a category receive, sorted. -/
def linkNames (c : Catalog) (category : String) : List String :=
  Text.sortedDistinct <|
    (c.rules.filter fun r => !r.link.isEmpty && r.dependent == category).map (·.link)

/-- The wording for a template that is not in the catalog. -/
def missingMessage (id : String) : String := "template not found: " ++ Text.quoted id

/-! ### Building -/

/-- A fault of a file, with a sentence about it. -/
def fault (summary file sentence : String) : Fault := .meaning summary (file ++ ": " ++ sentence)

/-- A fault if a condition holds. -/
def faultIf (condition : Bool) (f : Fault) : List Fault := if condition then [f] else []

/-- The faults of a category that is not declared yet. -/
def categoryFaults (file : String) (d : CategoryDefinition) : List Fault :=
  faultIf (Section.ofText? d.zone).isNone
    (fault "Unknown section" file
      ("category '" ++ d.name ++ "' uses unknown section '" ++ d.zone ++ "'.")) ++
  faultIf (!d.named && !d.nameProperty.isEmpty)
    (fault "Unnamed category with name property" file
      ("category '" ++ d.name ++ "' declares name_property but is not named.")) ++
  faultIf (d.named && d.nameSpace.isEmpty)
    (fault "Missing namespace" file
      ("named category '" ++ d.name ++ "' must declare a namespace."))

/-- Adds a category, unless it has faults. -/
def addCategory (c : Catalog) (file : String) (d : CategoryDefinition) : Catalog × List Fault :=
  if (c.category? d.name).isSome then
    (c, [fault "Duplicate category" file
      ("category '" ++ d.name ++ "' has already been declared.")])
  else
    match categoryFaults file d, Section.ofText? d.zone with
    | [], some zone =>
      let category : Category := {
        name := d.name, zone, nameSpace := d.nameSpace, singleton := d.singleton
        providesType := d.providesType
        nameProperty := if d.named then some d.nameProperty else none }
      ({ c with categories := c.categories ++ [category] }, [])
    | faults, _ => (c, faults)

/-- The faults of a rule. -/
def ruleFaults (c : Catalog) (file : String) (d : RuleDefinition) : List Fault :=
  let subject := "connection " ++ d.source ++ " -> " ++ d.target
  let unknown (name : String) : List Fault := faultIf (c.category? name).isNone
    (fault "Unknown category" file (subject ++ " references unknown category '" ++ name ++ "'."))
  unknown d.source ++ unknown d.target ++
  faultIf (Order.ofText? d.order).isNone
    (fault "Invalid connection order" file
      (subject ++ " has order '" ++ d.order ++ "'; expected forward, reverse or none.")) ++
  faultIf (c.rule? d.source d.target).isSome
    (fault "Duplicate connection rule" file (subject ++ " has already been declared."))

/-- Adds a rule, unless it has faults. -/
def addRule (c : Catalog) (file : String) (d : RuleDefinition) : Catalog × List Fault :=
  match c.ruleFaults file d, Order.ofText? d.order with
  | [], some order =>
    let rule : Rule := {
      source := d.source, target := d.target, order, link := d.link
      meaning := d.meaning }
    ({ c with rules := c.rules ++ [rule] }, [])
  | faults, _ => (c, faults)

/-- The variables that are always in scope. -/
def builtInVariables : List String := ["id"]

/-- The faults of a property of a template. -/
def propertyFaults (file template : String) (links : List String) (p : PropertyDefinition) :
    List Fault :=
  let subject := "property '" ++ p.name ++ "' of template '" ++ template ++ "'"
  faultIf (Check.ofText? p.check).isNone
    (fault "Unknown check" file (subject ++ " uses unknown check '" ++ p.check ++ "'.")) ++
  faultIf (p.required && p.default.isSome)
    (fault "Required property with default" file
      (subject ++ " is required and cannot declare a default.")) ++
  faultIf (!p.required && p.default.isNone)
    (fault "Missing default" file ("optional " ++ subject ++ " must declare a default.")) ++
  faultIf (!p.oneOf.isEmpty && p.type != .string)
    (fault "Invalid one_of" file (subject ++ " declares one_of but is not a string.")) ++
  faultIf (links.contains p.name || builtInVariables.contains p.name)
    (fault "Shadowed variable" file (subject ++ " shadows a link or built-in variable."))

/-- Whether the expressions of a template may read a variable. -/
def inScope (links : List String) (d : TemplateDefinition) (n : String) : Bool :=
  d.properties.any (·.name == n) || links.contains n || builtInVariables.contains n

/-- The faults of the expressions of a template: variables that are not in
scope and functions that do not exist. -/
def expressionFaults (file : String) (links : List String) (d : TemplateDefinition) :
    List Fault :=
  let subject := "template '" ++ d.id ++ "'"
  let exprs := [d.emit, d.imports, d.inherits, d.declares]
  ((referenceRoots exprs).filter (!inScope links d ·)).map (fun n =>
    fault "Unknown template variable" file
      (subject ++ " references '" ++ n ++
        "', which is neither a property, a link nor a built-in variable.")) ++
  ((functionNames exprs).filter (!libraryNames.contains ·)).map fun n =>
    fault "Unknown template function" file (subject ++ " calls unknown function '" ++ n ++ "'.")

/-- The faults of a template of a category. -/
def templateFaults (file : String) (category : Category) (links : List String)
    (d : TemplateDefinition) : List Fault :=
  let subject := "template '" ++ d.id ++ "'"
  faultIf (d.cost < 0)
    (fault "Negative cost" file
      (subject ++ " declares a negative cost " ++ toString d.cost.toInt ++ ".")) ++
  faultIf (InterfaceKind.ofText? d.kind).isNone
    (fault "Unknown ABI kind" file
      (subject ++ " declares unknown abi kind '" ++ d.kind ++ "'.")) ++
  d.properties.flatMap (propertyFaults file d.id links) ++
  (match category.nameProperty with
    | none => []
    | some name =>
      let property := d.properties.find? (·.name == name)
      faultIf (!property.any (·.type == .string))
        (fault "Missing name property" file
          (subject ++ " belongs to the named category '" ++ category.name ++
            "' and must declare a string property '" ++ name ++ "'."))) ++
  expressionFaults file links d

/-- A property of a template without faults. -/
def property (p : PropertyDefinition) : Property := {
  name := p.name, type := p.type, default := p.default, oneOf := p.oneOf
  check := (Check.ofText? p.check).getD .unchecked, description := p.description }

/-- Adds a template, unless it has faults. -/
def addTemplate (c : Catalog) (file : String) (d : TemplateDefinition) : Catalog × List Fault :=
  match c.template? d.id, c.category? d.category with
  | some earlier, _ =>
    (c, [fault "Duplicate template" file
      ("template '" ++ d.id ++ "' has already been declared in " ++ earlier.file ++ ".")])
  | none, none =>
    (c, [fault "Unknown category" file
      ("template '" ++ d.id ++ "' uses unknown category '" ++ d.category ++ "'.")])
  | none, some category =>
    let links := c.linkNames category.name
    match templateFaults file category links d, InterfaceKind.ofText? d.kind with
    | [], some kind =>
      let template : Template := {
        id := d.id, category, description := d.description, cost := d.cost, kind
        properties := d.properties.map property, links, imports := d.imports
        inherits := d.inherits, declares := d.declares, emit := d.emit, file }
      ({ c with templates := c.templates ++ [template] }, [])
    | faults, _ => (c, faults)

/-- Adds items one after another, collecting the faults. -/
def addAll {α : Type} (add : Catalog → String → α → Catalog × List Fault)
    (start : Catalog × List Fault) (items : List (String × α)) : Catalog × List Fault :=
  items.foldl (fun (c, faults) (file, item) =>
    let (c, more) := add c file item
    (c, faults ++ more)) start

/-- The items of all files, each with the name of its file. -/
def itemsOf {α : Type} (files : List (String × Definitions)) (items : Definitions → List α) :
    List (String × α) :=
  files.flatMap fun (file, d) => (items d).map fun i => (file, i)

/-- The catalog of the definitions of some files. -/
def build (files : List (String × Definitions)) : Except (List Fault) Catalog :=
  let afterCategories := addAll addCategory ({}, []) (itemsOf files (·.categories))
  let afterRules := addAll addRule afterCategories (itemsOf files (·.rules))
  let (c, faults) := addAll addTemplate afterRules (itemsOf files (·.templates))
  if faults.isEmpty then .ok c else .error faults

end Catalog

end SolidityCanvas
