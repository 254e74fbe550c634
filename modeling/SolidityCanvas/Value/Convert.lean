/-
Conversion of values between types.

* `Value.convert?`: a value as a value of another type. Texts are read as
  numbers and truth values where they are written forms of them, numbers and
  truth values are written as texts, and collections are converted item by
  item.
* `ValueType.converts`: whether values of one type may have a form in
  another; a particular text may still be no number.
* `ValueType.unify?`: the type that values of two types can both be converted
  to.

A value that is `null` or unknown stays so under a conversion that exists.
-/
import SolidityCanvas.Number.Decimal
import SolidityCanvas.Value.Basic

namespace SolidityCanvas

namespace ValueType

mutual

/-- Whether values of the first type may have a form in the second. -/
def converts : ValueType → ValueType → Bool
  | _, dynamic => true
  | dynamic, _ => true
  | string, string | string, number | string, bool => true
  | number, number | number, string => true
  | bool, bool | bool, string => true
  | list a, list b | set a, list b | list a, set b | set a, set b => converts a b
  | map a, map b => converts a b
  | tuple as, list b | tuple as, set b => allConvert as b
  | object as, map b => allAttributesConvert as b
  | tuple as, tuple bs => eachConverts as bs
  | object as, object bs => attributesCovered as bs
  | _, _ => false

/-- Whether values of all the types have a form in one. -/
def allConvert : List ValueType → ValueType → Bool
  | [], _ => true
  | a :: as, b => converts a b && allConvert as b

/-- Whether all attributes have a form in one type. -/
def allAttributesConvert : List (String × ValueType) → ValueType → Bool
  | [], _ => true
  | (_, a) :: as, b => converts a b && allAttributesConvert as b

/-- Whether the places of a tuple have forms in those of another. -/
def eachConverts : List ValueType → List ValueType → Bool
  | [], [] => true
  | a :: as, b :: bs => converts a b && eachConverts as bs
  | _, _ => false

/-- Whether the attributes of an object that another asks for have forms
there. Attributes that it does not ask for do not matter. -/
def attributesCovered : List (String × ValueType) → List (String × ValueType) → Bool
  | [], bs => bs.isEmpty
  | (n, a) :: as, bs =>
    match bs.lookup n with
    | some b => converts a b && attributesCovered as (bs.filter (·.1 != n))
    | none => attributesCovered as bs

end

end ValueType

namespace Value

/-- The truth value that a text stands for. -/
def boolOfText? : String → Option Bool
  | "true" | "1" => some true
  | "false" | "0" => some false
  | _ => none

/-- A primitive value as one of another primitive type. -/
def convertPrimitive? : Value → ValueType → Option Value
  | string s, .string => some (string s)
  | number n, .string => some (string n.text)
  | bool b, .string => some (string (if b then "true" else "false"))
  | string s, .number => (Number.parse? s).map number
  | number n, .number => some (number n)
  | string s, .bool => (boolOfText? s).map bool
  | bool b, .bool => some (bool b)
  | _, _ => none

/-- The text by which values of a set are told apart and ordered where they
are no texts, numbers or truth values. -/
def orderText : Value → String
  | string s => Text.normalize s
  | number n => n.text
  | bool b => if b then "T" else "F"
  | _ => ""

/-- Whether a value comes before another in a set. -/
def before : Value → Value → Bool
  | string a, string b => a < b
  | number a, number b => a.compare b == .lt
  | bool a, bool b => !a && b
  | a, b => orderText a < orderText b

/-- Puts a value in its place in a set. -/
def insertItem (v : Value) : List Value → List Value
  | [] => [v]
  | w :: rest =>
    if equal v w then w :: rest
    else if before v w then v :: w :: rest
    else w :: insertItem v rest

/-- A set of values, each once, in order. -/
def setOf (element : ValueType) (items : List Value) : Value :=
  set element (items.foldl (fun sorted v => insertItem v sorted) [])

mutual

/-- A value as a value of another type, where the types allow it. -/
def convertKnown? : Value → ValueType → Option Value
  | v, .dynamic => some v
  | null _, want => some (null want)
  | unknown _, want => some (unknown want)
  | list _ items, .list want | set _ items, .list want | tuple items, .list want =>
    (convertItems? items want).map (list want)
  | list _ items, .set want | set _ items, .set want | tuple items, .set want =>
    (convertItems? items want).map (setOf want)
  | map _ entries, .map want | object entries, .map want =>
    (convertEntries? entries want).map (map want)
  | tuple items, .tuple wants => (convertEach? items wants).map tuple
  | object entries, .object wants => (convertAttributes? entries wants).map object
  | v, want => convertPrimitive? v want

/-- All items as values of one type. -/
def convertItems? : List Value → ValueType → Option (List Value)
  | [], _ => some []
  | v :: vs, want => do
    let w ← convertKnown? v want
    let ws ← convertItems? vs want
    return w :: ws

/-- All named values as values of one type. -/
def convertEntries? : List (String × Value) → ValueType → Option (List (String × Value))
  | [], _ => some []
  | (n, v) :: vs, want => do
    let w ← convertKnown? v want
    let ws ← convertEntries? vs want
    return (n, w) :: ws

/-- The places of a tuple as values of their types. -/
def convertEach? : List Value → List ValueType → Option (List Value)
  | [], [] => some []
  | v :: vs, want :: wants => do
    let w ← convertKnown? v want
    let ws ← convertEach? vs wants
    return w :: ws
  | _, _ => none

/-- The attributes that are asked for as values of their types. -/
def convertAttributes? : List (String × Value) → List (String × ValueType) →
    Option (List (String × Value))
  | [], _ => some []
  | (n, v) :: vs, wants => do
    let ws ← convertAttributes? vs wants
    match wants.lookup n with
    | none => return ws
    | some want => do
      let w ← convertKnown? v want
      return (n, w) :: ws

end

/-- A value as a value of another type. -/
def convert? (v : Value) (want : ValueType) : Option Value :=
  if v.type == want then some v
  else if v.type.converts want then convertKnown? v want
  else none

end Value

namespace ValueType

/-! ### Unification -/

/-- How deep the types that are unified may be nested. -/
def unifyDepth : Nat := 64

/-- The types of the elements, whatever the kind of collection. -/
def elementTypes : ValueType → List ValueType
  | list t | set t | map t => [t]
  | tuple ts => ts
  | object as => as.map (·.2)
  | _ => []

/-- Whether the type is one of lists. -/
def isList : ValueType → Bool
  | list _ => true
  | _ => false

/-- Whether the type is one of sets. -/
def isSet : ValueType → Bool
  | set _ => true
  | _ => false

/-- Whether the type is one of maps. -/
def isMap : ValueType → Bool
  | map _ => true
  | _ => false

/-- Whether the type is one of tuples. -/
def isTuple : ValueType → Bool
  | tuple _ => true
  | _ => false

/-- Whether the type is one of objects. -/
def isObject : ValueType → Bool
  | object _ => true
  | _ => false

/-- The names of the attributes. -/
def attributeNames : ValueType → List String
  | object as => as.map (·.1)
  | _ => []

/-- The first of the types, taken in order of preference, that values of all
of them can be converted to. -/
def preferred? (types : List ValueType) : Option ValueType :=
  let rank (t : ValueType) : Nat := match t with
    | string | list _ | map _ => 0
    | dynamic => 2
    | _ => 1
  let ordered := types.filter (rank · == 0) ++ types.filter (rank · == 1) ++
    types.filter (rank · == 2)
  ordered.find? fun want => types.all (·.converts want)

/-- The lists of first members, of second members and so on. -/
def columns (rows : List (List ValueType)) : List (List ValueType) :=
  (List.range (rows.headD []).length).map fun i => rows.filterMap (·[i]?)

/-- The type that values of all the types can be converted to, for types that
are not nested deeper than the first argument. -/
def unifyWithin : Nat → List ValueType → Option ValueType
  | 0, _ => none
  | depth + 1, types =>
    let known := types.filter (· != dynamic)
    let elements := known.flatMap elementTypes
    if known.isEmpty then if types.isEmpty then none else some dynamic
    else if known.all isList || known.all isSet || known.all isMap || known.all isTuple ||
        known.all isObject then
      if known.length < types.length then some dynamic
      else if known.all isList then (unifyWithin depth elements).map list
      else if known.all isSet then (unifyWithin depth elements).map set
      else if known.all isMap then (unifyWithin depth elements).map map
      else if known.all isTuple then
        let rows := known.map elementTypes
        if rows.all (fun r => r.length == (rows.headD []).length) then
          ((columns rows).mapM (unifyWithin depth)).map tuple
        else (unifyWithin depth elements).map list
      else
        let names := (known.map attributeNames).headD []
        if known.all (·.attributeNames == names) then
          ((columns (known.map elementTypes)).mapM (unifyWithin depth)).map fun ts =>
            object (names.zip ts)
        else (unifyWithin depth elements).map map
    else if known.all (fun t => t.isList || t.isTuple) then
      match unifyWithin depth elements with
      | some t => some (list t)
      | none => preferred? types
    else if known.all (fun t => t.isMap || t.isObject) then
      match unifyWithin depth elements with
      | some t => some (map t)
      | none => preferred? types
    else if known.any isObject && known.any isTuple then none
    else preferred? types

/-- The type that values of all the types can be converted to. -/
def unifyAll? (types : List ValueType) : Option ValueType := unifyWithin unifyDepth types

/-- The type that values of two types can both be converted to. -/
def unify? (a b : ValueType) : Option ValueType := unifyAll? [a, b]

end ValueType

end SolidityCanvas
