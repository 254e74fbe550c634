/-
Checking a canvas against a catalog.

`Canvas.validate` reports everything that is wrong with the properties, names,
numbers and connections of the instances, in a fixed order: the properties of
each instance, then its name and the meaning of its values, then instances
that should be alone, names that are taken, and connections. Values that are
merely unusual are warnings.
-/
import SolidityCanvas.Canvas.Component
import SolidityCanvas.Solidity.Literal
import SolidityCanvas.Solidity.TypeName

namespace SolidityCanvas

namespace Component

/-! ### Names and values -/

/-- What is wrong with the name. -/
def nameFindings (c : Component) : List Diagnostic :=
  match c.template.category.nameProperty with
  | none => []
  | some p =>
    if c.isBad p then []
    else if !Solidity.isIdentifier c.name then
      [Diagnostic.errorOn Code.invalidIdentifier c.id p
        (Text.quoted c.name ++ " is not a legal identifier")]
    else if Solidity.isReserved c.name then
      [Diagnostic.errorOn Code.reservedWord c.id p (Text.quoted c.name ++ " is a reserved word")]
    else []

/-- Several texts in quotes, in brackets. -/
def quotedList (ss : List String) : String :=
  "[" ++ " ".intercalate (ss.map Text.quoted) ++ "]"

/-- Whether a name is an identifier that is not reserved. -/
def isUsable (s : String) : Bool := Solidity.isIdentifier s && !Solidity.isReserved s

/-- What is unusual about a declaration: a type and possibly a name. -/
def declarationFinding? (declared : String → Bool) (needsName : Bool) (s : String) :
    Option (String × String) :=
  let d := Solidity.Parameter.read s
  if !Solidity.isType d.type declared then
    some (Code.unknownType, Text.quoted s ++ " does not start with a recognised type")
  else if !d.extra.isEmpty then
    some (Code.unknownType,
      Text.quoted s ++ " has unexpected trailing words " ++ quotedList d.extra)
  else if needsName && d.name.isEmpty then
    some (Code.suspectName, "field " ++ Text.quoted s ++ " has no name")
  else if !d.name.isEmpty && !isUsable d.name then
    some (Code.suspectName, Text.quoted d.name ++ " is not usable as a parameter name")
  else none

/-- What is unusual about a text under a check: a code and a message. -/
def checkFinding? (declared : String → Bool) (check : Check) (s : String) :
    Option (String × String) :=
  match check with
  | .unchecked => none
  | .type =>
    if Solidity.isType s declared then none
    else some (Code.unknownType, Text.quoted s ++ " is not a recognised type")
  | .parameters => declarationFinding? declared false s
  | .fields => declarationFinding? declared true s
  | .number => (Solidity.unsignedFault? s).map fun f =>
    (Code.invalidLiteral, Text.quoted s ++ " is not an unsigned 256-bit decimal: " ++ f.message)
  | .address =>
    if Solidity.isAddress s then none
    else some (Code.invalidLiteral, Text.quoted s ++ " is not a 20-byte hex address")
  | .identifier =>
    if isUsable s then none
    else some (Code.suspectName, Text.quoted s ++ " is not usable as an identifier")

/-- The texts of a text or of a list of texts. -/
def textsOf : Value → List String
  | .string s => [s]
  | .list .string items => items.filterMap fun
    | .string s => some s
    | _ => none
  | _ => []

/-- What is unusual about the value of a property. The name of a component is
checked elsewhere. -/
def valueFindings (c : Component) (declared : String → Bool) (p : Property) :
    List Diagnostic :=
  if c.isBad p.name then []
  else match c.properties.get? p.name with
    | none => []
    | some v =>
      let option := match v with
        | .string s =>
          if p.oneOf.isEmpty || p.oneOf.contains s then []
          else [Diagnostic.warningOn Code.unexpectedOption c.id p.name
            (Text.quoted s ++ " is not one of " ++ quotedList p.oneOf)]
        | _ => []
      let isName := p.check == .identifier && c.template.category.nameProperty == some p.name
      let meaning := if isName then [] else
        (textsOf v).filterMap fun s => (checkFinding? declared p.check s).map fun (code, message) =>
          Diagnostic.warningOn code c.id p.name message
      option ++ meaning

/-! ### Claims to names -/

/-- A name that a component introduces into a name space. `property` is empty
for names that its template declares by itself. -/
structure Claim where
  nameSpace : String
  name : String
  property : String
  deriving DecidableEq

/-- The claim to its own name. -/
def ownClaims (c : Component) : List Claim :=
  match c.template.category.nameProperty with
  | none => []
  | some p =>
    if c.isBad p || c.name.isEmpty then []
    else [⟨c.template.category.nameSpace, c.name, p⟩]

/-- Several faults of evaluation in words. -/
def faultsText (fs : List Config.EvalFault) : String :=
  match fs with
  | [] => ""
  | [f] => f.summary
  | f :: rest => f.summary ++ ", and " ++ toString rest.length ++ " other diagnostic(s)"

/-- The claims to the names that the template declares, or the finding that
they cannot be told. -/
def declaredClaims (c : Component) : Except Diagnostic (List Claim) :=
  if c.hasBad then .ok []
  else match c.template.declaredNames c.id c.properties.bag with
    | .ok spaces => .ok <| (spaces.getD []).flatMap fun (space, names) =>
      names.map fun n => ⟨space, n, ""⟩
    | .error e => .error <| Diagnostic.errorOn Code.invalidLiteral c.id ""
      ("names declared by template " ++ Text.quoted c.template.id ++ " cannot be evaluated: " ++
        e.message (faultsText e.evalFaults))

/-- All claims: to its own name first, then to those its template declares. -/
def claims (c : Component) : List Claim :=
  c.ownClaims ++ match c.declaredClaims with
    | .ok claims => claims
    | .error _ => []

/-- The finding that the declared names cannot be told. -/
def claimFindings (c : Component) : List Diagnostic :=
  match c.declaredClaims with
  | .ok _ => []
  | .error d => [d]

end Component

namespace Canvas

/-! ### The canvas as a whole -/

/-- Whether a component declares a type of that name by a value that could be
used. -/
def declaresType (components : List Component) (name : String) : Bool :=
  components.any fun c => !c.isBad c.typeProperty && c.declaredType? == some name

/-- The finding about a component of a category that another one fills. -/
def singletonFindings (components : List Component) : List Diagnostic :=
  components.flatMap fun c =>
    let category := c.template.category
    if !category.singleton then []
    else match components.find? (·.template.category.name == category.name) with
      | none => []
      | some holder =>
        if holder.id == c.id then []
        else [(Diagnostic.errorOn Code.singleton c.id ""
          ("only one " ++ category.name ++ " is allowed per contract; instance " ++
            Text.quoted c.id ++ " duplicates " ++ Text.quoted holder.id)).withRelated [holder.id]]

/-- The first component that claims a name in a name space. -/
def holder? (claimed : List (Component × List Component.Claim)) (nameSpace name : String) :
    Option Component :=
  (claimed.find? fun (_, claims) =>
    claims.any fun k => k.nameSpace == nameSpace && k.name == name).map (·.1)

/-- The finding about a claim to a name that another component holds. -/
def claimFinding? (claimed : List (Component × List Component.Claim)) (c : Component)
    (k : Component.Claim) : Option Diagnostic :=
  match holder? claimed k.nameSpace k.name with
  | none => none
  | some holder =>
    if holder.id == c.id then none
    else some <| (Diagnostic.errorOn Code.nameCollision c.id k.property
      ("name " ++ Text.quoted k.name ++ " of instance " ++ Text.quoted c.id ++
        " collides with instance " ++ Text.quoted holder.id ++ " in the " ++ k.nameSpace ++
        " namespace")).withRelated [holder.id]

/-- The findings about names that are taken. -/
def collisionFindings (components : List Component) : List Diagnostic :=
  let claimed := components.map fun c => (c, c.claims)
  claimed.flatMap fun (c, claims) => c.claimFindings ++ claims.filterMap (claimFinding? claimed c)

/-- The finding about a connection that ends nowhere. -/
def danglingFinding (k : Connection) (hasSource hasTarget : Bool) : Diagnostic :=
  let drawn := "connection " ++ k.source ++ " -> " ++ k.target
  let missing (id : String) : String := drawn ++ " references missing instance " ++ Text.quoted id
  if hasSource then Diagnostic.errorOn Code.danglingEndpoint k.source "" (missing k.target)
  else if hasTarget then Diagnostic.errorOn Code.danglingEndpoint k.target "" (missing k.source)
  else Diagnostic.errorOn Code.danglingEndpoint "" "" (drawn ++ " references no existing instance")

/-- The finding about a connection; `repeated` says whether it was drawn
before. -/
def connectionFinding? (catalog : Catalog) (components : List Component) (repeated : Bool)
    (k : Connection) : Option Diagnostic :=
  if k.source == k.target then
    some (Diagnostic.errorOn Code.selfLoop k.source ""
      ("instance " ++ Text.quoted k.source ++ " cannot be connected to itself"))
  else
    match componentWith? components k.source, componentWith? components k.target with
    | some source, some target =>
      if repeated then
        some (Diagnostic.warningOn Code.duplicateLink k.source ""
          ("connection " ++ k.source ++ " -> " ++ k.target ++ " is declared more than once"))
      else
        let a := source.template.category.name
        let b := target.template.category.name
        if (catalog.rule? a b).isSome then none
        else some <| (Diagnostic.errorOn Code.incompatible k.source ""
          ("a " ++ a ++ " (" ++ Text.quoted k.source ++ ") cannot be connected to a " ++ b ++
            " (" ++ Text.quoted k.target ++ ")")).withRelated [k.target]
    | source, target => some (danglingFinding k source.isSome target.isSome)

/-- The findings about connections; `earlier` holds those before. -/
def connectionFindings (catalog : Catalog) (components : List Component)
    (earlier : List Connection) : List Connection → List Diagnostic
  | [] => []
  | k :: rest =>
    (connectionFinding? catalog components (earlier.contains k) k).toList ++
      connectionFindings catalog components (k :: earlier) rest

/-- Everything that is wrong with a canvas. -/
def validate (c : Canvas) (catalog : Catalog) : Except InvariantError (List Diagnostic) := do
  let (components, bound) ← c.components catalog
  let declared := declaresType components
  let each := components.flatMap fun k =>
    k.nameFindings ++ k.template.properties.flatMap (k.valueFindings declared)
  return bound ++ each ++ singletonFindings components ++ collisionFindings components ++
    connectionFindings catalog components [] c.connections

end Canvas

end SolidityCanvas
