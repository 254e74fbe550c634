/-
Catalog files.

A file holds blocks that define categories, rules and templates. They are read
one by one here; whether they fit together is decided when a catalog is built
from all files.
-/
import SolidityCanvas.Config.Decode
import SolidityCanvas.Config.TypeExpr
import SolidityCanvas.Property.Schema

namespace SolidityCanvas

open Config

/-- A category as it is written. -/
structure CategoryDefinition where
  name : String
  zone : String
  nameSpace : String
  named : Bool
  nameProperty : String
  singleton : Bool
  providesType : Bool
  deriving Inhabited

/-- A rule as it is written. -/
structure RuleDefinition where
  source : String
  target : String
  order : String
  link : String
  meaning : String
  deriving Inhabited

/-- A property as it is written. -/
structure PropertyDefinition where
  name : String
  type : ValueType
  required : Bool
  default : Option Value
  check : String
  oneOf : List String
  description : String
  deriving Inhabited

/-- A template as it is written. -/
structure TemplateDefinition where
  id : String
  category : String
  description : String
  cost : Int64
  kind : String
  properties : List PropertyDefinition
  imports : Expr
  inherits : Expr
  declares : Expr
  emit : Expr
  deriving Inhabited

/-- What a file defines. -/
structure Definitions where
  categories : List CategoryDefinition := []
  rules : List RuleDefinition := []
  templates : List TemplateDefinition := []
  deriving Inhabited

/-- The type of a property, which has to be one that properties can have. -/
def propertyType (e : Expr) : Except Fault ValueType :=
  match e.valueType? with
  | none => .error (.body .invalidType)
  | some t =>
    if t.isPropertyType then .ok t
    else .error (.meaning "Unsupported property type"
      ("The type " ++ t.friendlyName ++
        " is not supported. Supported types are: string, number, bool and list(...) of those."))

namespace Definitions

/-- The blocks of a file. -/
def categoryBlock : BlockForm := ⟨"category", ["name"]⟩

/-- The blocks of a file. -/
def ruleBlock : BlockForm := ⟨"connection", ["from", "to"]⟩

/-- The blocks of a file. -/
def templateBlock : BlockForm := ⟨"template", ["id"]⟩

/-- The blocks of a template. -/
def propertyBlock : BlockForm := ⟨"property", ["name"]⟩

/-- Reads a category. -/
def category (k : Block) : Decode CategoryDefinition := do
  let b := k.body
  b.checkForm {
    required := ["section"]
    optional := ["namespace", "named", "name_property", "singleton", "provides_type"] }
  let zone ← b.text "section"
  let nameSpace ← b.text "namespace"
  let named ← b.flag "named"
  let nameProperty ← b.text "name_property"
  let singleton ← b.flag "singleton"
  let providesType ← b.flag "provides_type"
  return {
    name := k.labels.headD "", zone, nameSpace, named, singleton, providesType
    nameProperty := if named && nameProperty.isEmpty then "name" else nameProperty }

/-- Reads a rule. -/
def rule (k : Block) : Decode RuleDefinition := do
  let b := k.body
  b.checkForm { required := ["order"], optional := ["link", "meaning"] }
  let order ← b.text "order"
  let link ← b.text "link"
  let meaning ← b.text "meaning"
  return { source := k.labels.headD "", target := k.labels.getD 1 "", order, link, meaning }

/-- A property before its type and default are read. -/
structure RawProperty where
  name : String
  type : Expr
  required : Bool
  default : Expr
  check : String
  oneOf : List String
  description : String

/-- A template before its properties are read. -/
structure RawTemplate where
  definition : TemplateDefinition
  properties : List RawProperty

/-- Reads the attributes of a property. -/
def rawProperty (k : Block) : Decode RawProperty := do
  let b := k.body
  b.checkForm { optional := ["type", "required", "default", "check", "one_of", "description"] }
  let required ← b.flag "required"
  let check ← b.text "check"
  let oneOf ← b.texts "one_of"
  let description ← b.text "description"
  return {
    name := k.labels.headD "", required, check, oneOf, description
    type := b.expr "type", default := b.expr "default" }

/-- Reads the attributes of a template and those of its properties. -/
def rawTemplate (k : Block) : Decode RawTemplate := do
  let b := k.body
  b.checkForm {
    required := ["category"]
    optional := ["description", "cost", "abi", "imports", "inherits", "declares", "emit"]
    blocks := [propertyBlock] }
  let category ← b.text "category"
  let description ← b.text "description"
  let cost ← b.whole "cost"
  let kind ← b.text "abi"
  let properties ← (b.blocksOf propertyBlock).mapM rawProperty
  return {
    properties
    definition := {
      id := k.labels.headD "", category, description, cost, kind, properties := []
      imports := b.expr "imports", inherits := b.expr "inherits"
      declares := b.expr "declares", emit := b.expr "emit" } }

/-- The default of a property, `none` if it has none or a fault. -/
def defaultValue (p : RawProperty) (t : ValueType) : Decode (Option Value) := do
  let o := p.default.eval {}
  if !o.faults.isEmpty then
    o.faults.forM fun f => Decode.report (.eval f)
    return none
  else match o.value with
    | .null _ => return none
    | v =>
      match v.coerce? t with
      | some w => return some w
      | none =>
        Decode.report (.meaning "Invalid default value"
          ("The default for property '" ++ p.name ++ "' is a " ++ v.describe ++
            ", but the property type is " ++ t.friendlyName ++ "."))
        return none

/-- Reads the type and the default of a property. -/
def property (p : RawProperty) : Decode (Option PropertyDefinition) :=
  match propertyType p.type with
  | .error f => do
    Decode.report f
    return none
  | .ok type => do
    let default ← defaultValue p type
    return some {
      name := p.name, type, required := p.required, default, check := p.check
      oneOf := p.oneOf, description := p.description }

/-- Reads the properties of a template; of those with one name only the first
counts. -/
def properties (template : String) (seen : List String) :
    List RawProperty → Decode (List PropertyDefinition)
  | [] => return []
  | p :: rest => do
    if seen.contains p.name then
      Decode.report (.meaning "Duplicate property definition"
        ("A property named '" ++ p.name ++ "' has already been defined in template '" ++
          template ++ "'."))
      properties template seen rest
    else
      let read ← property p
      let others ← properties template (p.name :: seen) rest
      return read.toList ++ others

/-- Reads a template. -/
def template (t : RawTemplate) : Decode TemplateDefinition := do
  let properties ← properties t.definition.id [] t.properties
  return { t.definition with properties }

/-- The attributes of all blocks of a file. -/
def raw (b : Body) :
    Decode (List CategoryDefinition × List RuleDefinition × List RawTemplate) := do
  b.checkForm { blocks := [categoryBlock, ruleBlock, templateBlock] }
  let categories ← (b.blocksOf categoryBlock).mapM category
  let rules ← (b.blocksOf ruleBlock).mapM rule
  let templates ← (b.blocksOf templateBlock).mapM rawTemplate
  return (categories, rules, templates)

/-- What a file defines. The properties of templates are read once all
attributes have been. -/
def read (b : Body) : Except (List Fault) Definitions := do
  let (categories, rules, templates) ← (raw b).result
  let templates ← (templates.mapM template).result
  return { categories, rules, templates }

end Definitions

end SolidityCanvas
