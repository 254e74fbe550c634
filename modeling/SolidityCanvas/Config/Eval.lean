/-
The value of an expression.

`Expr.eval` gives the value of an expression in a scope, with the faults that
were found on the way. After a fault, evaluation goes on with a value of which
nothing is known, so that one report lists the faults of all parts; such a
value never causes a fault of its own. A branch that is not taken is
evaluated for its type, and its faults are dropped.
-/
import SolidityCanvas.Config.Expr
import SolidityCanvas.Config.Fault
import SolidityCanvas.Config.Function
import SolidityCanvas.Value.Convert

namespace SolidityCanvas.Config

/-- What an expression may refer to. Without variables or functions there are
none to speak of, which is another fault than that of an unknown one. -/
structure Scope where
  bindings : Option (List (String × Value)) := none
  functions : Option (List Function) := none
  /-- The element that the innermost splat goes through. -/
  element : Option Value := none

namespace Scope

/-- The scope with one more variable. -/
def bind (s : Scope) (name : String) (v : Value) : Scope :=
  { s with bindings := some ((name, v) :: s.bindings.getD []) }

/-- The scope inside a loop. -/
def enterLoop (s : Scope) (keyName : Option String) (valueName : String) (k v : Value) : Scope :=
  let s := match keyName with
    | some n => s.bind n k
    | none => s
  s.bind valueName v

/-- The scope inside a splat. -/
def enterSplat (s : Scope) (v : Value) : Scope := { s with element := some v }

end Scope

/-- A value with the faults found on the way to it. -/
structure Outcome where
  value : Value
  faults : List EvalFault := []
  deriving Inhabited

namespace Outcome

/-- A fault in place of a value. -/
def fault (f : EvalFault) : Outcome := ⟨.anything, [f]⟩

/-- The outcome with earlier faults before its own. -/
def after (o : Outcome) (earlier : List EvalFault) : Outcome := { o with faults := earlier ++ o.faults }

end Outcome

/-! ### Steps into values -/

/-- The element of a list of values that a number is the index of. -/
def elementAt? (items : List Value) (n : Number) : Option Value :=
  match n.toInt? with
  | some i => if i < 0 then none else items[i.toNat]?
  | none => none

/-- The element of a sequence by a key. `element` is the type of an element
of an unknown sequence. -/
def indexSequence (items : Option (List Value)) (element : ValueType) (key : Value) : Outcome :=
  match key.convert? .number with
  | none => .fault .invalidIndex
  | some (.number n) =>
    match items with
    | none => ⟨.unknown element, []⟩
    | some items =>
      match elementAt? items n with
      | some v => ⟨v, []⟩
      | none => .fault .invalidIndex
  | some _ => ⟨.unknown element, []⟩

/-- The element of a map or an object by a key. -/
def indexNamed (entries : Option (List (String × Value))) (element : ValueType) (key : Value) :
    Outcome :=
  match key.convert? .string with
  | none => .fault .invalidIndex
  | some (.string k) =>
    match entries with
    | none => ⟨.unknown element, []⟩
    | some entries =>
      match entries.lookup k with
      | some v => ⟨v, []⟩
      | none => .fault .invalidIndex
  | some _ => ⟨.unknown element, []⟩

/-- The element of a value by a key. -/
def indexValue (collection key : Value) : Outcome :=
  if collection.isNull then .fault .indexOfNull
  else if key.isNull then .fault .invalidIndex
  else if collection.type == .dynamic || key.type == .dynamic then ⟨.anything, []⟩
  else match collection with
    | .list t items => indexSequence (some items) t key
    | .tuple items => indexSequence (some items) .dynamic key
    | .map t entries => indexNamed (some entries) t key
    | .object entries => indexNamed (some entries) .dynamic key
    | .unknown (.list t) => indexSequence none t key
    | .unknown (.tuple _) => indexSequence none .dynamic key
    | .unknown (.map t) => indexNamed none t key
    | .unknown (.object _) => indexNamed none .dynamic key
    | _ => .fault .invalidIndex

/-- The attribute of a value by its name. -/
def attributeOf (v : Value) (name : String) : Outcome :=
  let name := Text.normalize name
  match v with
  | .null _ => .fault .attributeOfNull
  | .object attributes =>
    match attributes.lookup name with
    | some w => ⟨w, []⟩
    | none => .fault .unsupportedAttribute
  | .map _ entries =>
    match entries.lookup name with
    | some w => ⟨w, []⟩
    | none => .fault .missingElement
  | .unknown (.object attributes) =>
    match attributes.lookup name with
    | some t => ⟨.unknown t, []⟩
    | none => .fault .unsupportedAttribute
  | .unknown (.map t) => ⟨.unknown t, []⟩
  | .unknown .dynamic => ⟨.anything, []⟩
  | _ => .fault .unsupportedAttribute

/-- A step into a value. -/
def takeStep (v : Value) : Step → Outcome
  | .attribute name => attributeOf v name
  | .index key => indexValue v key

/-- Steps into a value, up to the first fault. -/
def takeSteps (v : Value) : List Step → Outcome
  | [] => ⟨v, []⟩
  | s :: rest =>
    let o := takeStep v s
    if o.faults.isEmpty then takeSteps o.value rest else o

/-! ### Operators -/

/-- Whether two values are equal, if that is known. -/
def equality (a b : Value) : Value :=
  let differ (known : Value) (t : ValueType) : Value :=
    if known.isNull || t == .dynamic || known.type == t then .unknown .bool else .bool false
  match a, b with
  | .unknown _, .unknown _ => .unknown .bool
  | .unknown t, b => differ b t
  | a, .unknown t => differ a t
  | a, b =>
    if a.isWhollyKnown && b.isWhollyKnown then .bool (a.equal b)
    else if a.isNull || b.isNull || a.type != b.type then .bool false
    else .unknown .bool

/-- The type that both operands of an operator have. -/
def operandType : BinaryOp → ValueType
  | .or | .and => .bool
  | .equal | .notEqual => .dynamic
  | _ => .number

/-- The type of the result of an operator. -/
def resultType : BinaryOp → ValueType
  | .add | .subtract | .multiply | .divide | .modulo => .number
  | _ => .bool

/-- The result of an operator on numbers. -/
def arithmetic (op : BinaryOp) (a b : Number) : Option Value :=
  match op with
  | .add => (a.add? b).map .number
  | .subtract => (a.sub? b).map .number
  | .multiply => (a.mul? b).map .number
  | .divide => (a.div? b).map .number
  | .modulo => (a.mod? b).map .number
  | .greater => some (.bool (a.compare b == .gt))
  | .greaterOrEqual => some (.bool (a.compare b != .lt))
  | .less => some (.bool (a.compare b == .lt))
  | .lessOrEqual => some (.bool (a.compare b != .gt))
  | _ => none

/-- The result of an operator on operands of its type; `none` if there is
none. -/
def operate (op : BinaryOp) (a b : Value) : Option Value :=
  match op with
  | .equal => some (equality a b)
  | .notEqual =>
    match equality a b with
    | .bool e => some (.bool (!e))
    | v => some v
  | _ =>
    match a, b with
    | .null _, _ | _, .null _ => none
    | .bool x, .bool y => some (.bool (if op == .or then x || y else x && y))
    | .number x, .number y => arithmetic op x y
    | _, _ => some (.unknown (resultType op))

/-- The result of a logical operator that one operand decides, with the
faults of that operand alone. Here `null` counts as false. -/
def shortcut (op : BinaryOp) (a b : Outcome) : Option Outcome :=
  let holds (v : Value) : Bool := match v with
    | .bool true => true
    | _ => false
  let decides (v : Value) : Bool := v.isKnown && holds v == (op == .or)
  let leavesOpen (v w : Value) : Bool := !v.isKnown && w.isKnown && holds w != (op == .or)
  if op != .or && op != .and then none
  else if !a.value.isKnown && !b.value.isKnown then none
  else if decides a.value then some ⟨.bool (op == .or), a.faults⟩
  else if decides b.value then some ⟨.bool (op == .or), b.faults⟩
  else if leavesOpen a.value b.value then some ⟨.unknown .bool, a.faults⟩
  else if leavesOpen b.value a.value then some ⟨.unknown .bool, b.faults⟩
  else none

/-- The outcome of an operator on the outcomes of its operands. -/
def binaryOutcome (op : BinaryOp) (a b : Outcome) : Outcome :=
  let faults := a.faults ++ b.faults
  let failed (fs : List EvalFault) : Outcome := ⟨.unknown (resultType op), fs⟩
  match a.value.convert? (operandType op), b.value.convert? (operandType op) with
  | some x, some y =>
    match shortcut op ⟨x, a.faults⟩ ⟨y, b.faults⟩ with
    | some o => o
    | none =>
      if !faults.isEmpty then failed faults
      else match operate op x y with
        | some v => ⟨v, []⟩
        | none => failed [.operationFailed]
  | none, none => failed (.invalidOperand :: .invalidOperand :: faults)
  | _, _ => failed (.invalidOperand :: faults)

/-- The outcome of an operator on the outcome of its operand. -/
def unaryOutcome (op : UnaryOp) (o : Outcome) : Outcome :=
  let type : ValueType := if op == .negate then .number else .bool
  let failed (fs : List EvalFault) : Outcome := ⟨.unknown type, fs⟩
  match o.value.convert? type with
  | none => failed (o.faults ++ [.invalidOperand])
  | some v =>
    if !o.faults.isEmpty then failed o.faults
    else match v with
      | .number n => ⟨.number n.neg, []⟩
      | .bool b => ⟨.bool (!b), []⟩
      | .null _ => failed [.operationFailed]
      | _ => failed []

/-! ### Conditionals -/

/-- The type of both branches and what they are converted to. -/
def branchType? (a b : Value) : Option ValueType :=
  match a, b with
  | .null .dynamic, b => some b.type
  | a, .null .dynamic => some a.type
  | a, b => ValueType.unify? a.type b.type

/-- The branch that was taken, as a value of the type of both. -/
def takeBranch (t : ValueType) (o : Outcome) (earlier : List EvalFault) : Outcome :=
  match o.value.convert? t with
  | some v => ⟨v, earlier ++ o.faults⟩
  | none => ⟨.unknown t, earlier ++ o.faults ++ [.inconsistentBranches]⟩

/-- The outcome of a conditional. -/
def conditionalOutcome (condition ifTrue ifFalse : Outcome) : Outcome :=
  match branchType? ifTrue.value ifFalse.value with
  | none => .fault .inconsistentBranches
  | some t =>
    let failed (fs : List EvalFault) : Outcome := ⟨.unknown t, condition.faults ++ fs⟩
    if condition.value.isNull then failed [.nullCondition]
    else if !condition.value.isKnown then failed []
    else match condition.value.convert? .bool with
      | some (.bool true) => takeBranch t ifTrue condition.faults
      | some (.bool false) => takeBranch t ifFalse condition.faults
      | _ => failed [.incorrectCondition]

/-! ### Texts -/

/-- A text under construction: what is known of it, and the faults. -/
structure TextOutcome where
  text : String := ""
  known : Bool := true
  faults : List EvalFault := []

/-- Adds the outcome of a part of a text. -/
def TextOutcome.add (t : TextOutcome) (o : Outcome) : TextOutcome :=
  let faults := t.faults ++ o.faults
  if o.value.isNull then { t with faults := faults ++ [.invalidInterpolation] }
  else if !o.value.isKnown then { t with faults, known := false }
  else match o.value.convert? .string with
    | some (.string s) =>
      if t.known && faults.isEmpty then { t with faults, text := t.text ++ s }
      else { t with faults }
    | _ => { t with faults := faults ++ [.invalidInterpolation] }

/-- The text as a value. -/
def TextOutcome.outcome (t : TextOutcome) : Outcome :=
  ⟨if t.known then .text t.text else .unknown .string, t.faults⟩

/-- The texts of the items of a tuple, joined. -/
def joinItems (text : String) (faults : List EvalFault) : List Value → Outcome
  | [] => ⟨.text text, faults⟩
  | v :: vs =>
    if v.isNull then joinItems text (faults ++ [.invalidInterpolation]) vs
    else match v.convert? .string with
      | none => joinItems text (faults ++ [.invalidInterpolation]) vs
      | some (.string s) => joinItems (text ++ s) faults vs
      | some _ => ⟨.unknown .string, faults⟩

/-- The outcome of a joined loop. -/
def joinedOutcome (o : Outcome) : Outcome :=
  match o.value with
  | .tuple items => joinItems "" o.faults items
  | _ => ⟨.unknown .string, o.faults⟩

/-! ### Calls -/

/-- The arguments of an expanded value. -/
def expandedItems (o : Outcome) : Except Outcome (List Value) :=
  if !o.faults.isEmpty then .error ⟨.anything, o.faults⟩
  else match o.value with
    | .list _ items | .set _ items | .tuple items => .ok items
    | .unknown (.list _) | .unknown (.set _) | .unknown (.tuple _) | .unknown .dynamic =>
      .error ⟨.anything, []⟩
    | _ => .error (.fault .invalidExpansion)

/-- The arguments converted to the types of their parameters. -/
def convertArguments (f : Function) : Nat → List Outcome → List Value × List EvalFault
  | _, [] => ([], [])
  | i, o :: rest =>
    let (vs, faults) := convertArguments f (i + 1) rest
    match o.value.convert? ((f.parameter? i).map (·.type) |>.getD .dynamic) with
    | some v => (v :: vs, o.faults ++ faults)
    | none => (.anything :: vs, o.faults ++ .invalidArgument :: faults)

/-- Calls a function with the outcomes of its arguments. -/
def callOutcome (f : Function) (args : List Outcome) : Outcome :=
  if args.length < f.parameters.length then .fault .notEnoughArguments
  else if f.rest.isNone && args.length > f.parameters.length then .fault .tooManyArguments
  else
    let (vs, faults) := convertArguments f 0 args
    if !faults.isEmpty then ⟨.anything, faults⟩
    else match f.call vs with
      | .ok v => ⟨v, []⟩
      | .error e => .fault (if e.isArgument then .invalidArgument else .callFailed)

/-- Calls the function with a name. With `expand`, the items of the last
argument are arguments of their own. -/
def callNamed (scope : Scope) (name : String) (args : List Outcome) (expand : Bool) : Outcome :=
  match scope.functions with
  | none => .fault .functionsNotAllowed
  | some functions =>
    match functions.find? (·.name == name) with
    | none => .fault .unknownFunction
    | some f =>
      if expand then
        match expandedItems (args.getLast?.getD ⟨.anything, []⟩) with
        | .error o => o
        | .ok items => callOutcome f (args.dropLast ++ items.map fun v => ⟨v, []⟩)
      else callOutcome f args

/-! ### Objects and loops -/

/-- An object under construction. -/
structure ObjectOutcome where
  entries : List (String × Value) := []
  known : Bool := true
  faults : List EvalFault := []

/-- Adds an item. -/
def ObjectOutcome.add (b : ObjectOutcome) (k v : Outcome) : ObjectOutcome :=
  let faults := b.faults ++ k.faults ++ v.faults
  let failed (fs : List EvalFault) : ObjectOutcome :=
    { b with known := false, faults := faults ++ fs }
  if !k.faults.isEmpty then failed []
  else if k.value.isNull then failed [.nullKey]
  else match k.value.convert? .string with
    | none => failed [.incorrectKeyType]
    | some (.string s) => { b with entries := b.entries ++ [(s, v.value)], faults }
    | some _ => failed []

/-- The object as a value. -/
def ObjectOutcome.outcome (b : ObjectOutcome) : Outcome :=
  ⟨if b.known then .objectOf b.entries else .anything, b.faults⟩

/-- What the condition of a loop says about an element. -/
inductive Inclusion
  | included
  | excluded
  | undecided (faults : List EvalFault)

/-- Whether a loop takes an element. -/
def inclusion (makesObject : Bool) : Option Outcome → Inclusion × List EvalFault
  | none => (.included, [])
  | some o =>
    let verdict : Inclusion :=
      if o.value.isNull then .undecided [.invalidLoopCondition]
      else if !makesObject && o.value.type == .dynamic then .undecided []
      else match o.value.convert? .bool with
        | none => .undecided [.invalidLoopCondition]
        | some (.bool b) => if b then .included else .excluded
        | some _ => .undecided []
    (verdict, o.faults)

/-- The check of the condition of a loop before its first round, with the
names standing for unknown values. -/
def conditionFaults (o : Option Outcome) : Except (List EvalFault) Unit :=
  match o with
  | none => .ok ()
  | some o =>
    if o.value.isNull then .error (o.faults ++ [.nullLoopCondition])
    else if (o.value.convert? .bool).isNone then .error (o.faults ++ [.invalidLoopCondition])
    else if !o.faults.isEmpty then .error o.faults
    else .ok ()

/-- A loop in progress. `groups` are the entries of an object, each with the
values for its key in order; `items` those of a tuple. -/
structure LoopOutcome where
  groups : List (String × List Value) := []
  items : List Value := []
  known : Bool := true
  faults : List EvalFault := []

namespace LoopOutcome

/-- A round that leaves the result open. A fault of the loop itself is
reported once. -/
def undecided (l : LoopOutcome) (found own : List EvalFault) : LoopOutcome :=
  { l with known := false, faults := l.faults ++ found ++ (if l.known then own else []) }

/-- Adds a value under a key. A second value for a key is a fault unless
values are grouped. -/
def addEntry (l : LoopOutcome) (group : Bool) (key : String) (v : Value)
    (found : List EvalFault) : LoopOutcome :=
  match l.groups.lookup key with
  | none => { l with groups := l.groups ++ [(key, [v])], faults := l.faults ++ found }
  | some old =>
    if group then
      let groups := l.groups.map fun (k, vs) => (k, if k == key then old ++ [v] else vs)
      { l with groups, faults := l.faults ++ found }
    else { l with faults := l.faults ++ found ++ [.duplicateObjectKey] }

/-- One round. -/
def round (l : LoopOutcome) (group : Bool) (condition key : Option Outcome) (value : Outcome) :
    LoopOutcome :=
  let (verdict, found) := inclusion key.isSome condition
  match verdict with
  | .undecided own => l.undecided found own
  | .excluded => { l with faults := l.faults ++ found }
  | .included =>
    match key with
    | none => { l with items := l.items ++ [value.value], faults := l.faults ++ found ++ value.faults }
    | some k =>
      let found := found ++ k.faults
      if k.value.isNull then l.undecided found [.invalidObjectKey]
      else if !k.value.isKnown then l.undecided found []
      else match k.value.convert? .string with
        | some (.string s) => l.addEntry group s value.value (found ++ value.faults)
        | _ => l.undecided found [.invalidObjectKey]

/-- The result of all rounds. -/
def outcome (l : LoopOutcome) (makesObject group : Bool) : Outcome :=
  let value : Value :=
    if !l.known then .anything
    else if !makesObject then .tuple l.items
    else if group then .objectOf (l.groups.map fun (k, vs) => (k, .tuple vs))
    else .objectOf (l.groups.map fun (k, vs) => (k, vs.headD .anything))
  ⟨value, l.faults⟩

end LoopOutcome

/-- The outcome of a loop over a collection. The other arguments give the
outcomes of its parts inside the loop, for a key and a value. -/
def loopOutcome (collection : Outcome) (makesObject group : Bool)
    (condition key : Value → Value → Option Outcome) (value : Value → Value → Outcome) :
    Outcome :=
  if collection.value.isNull then ⟨.anything, collection.faults ++ [.loopOverNull]⟩
  else if collection.value.type == .dynamic then ⟨.anything, collection.faults⟩
  else match collection.value with
    | .unknown (.string) | .unknown (.number) | .unknown (.bool) =>
      ⟨.anything, collection.faults ++ [.loopOverOther]⟩
    | .unknown _ => ⟨.anything, collection.faults⟩
    | v =>
      match v.entries? with
      | none => ⟨.anything, collection.faults ++ [.loopOverOther]⟩
      | some entries =>
        match conditionFaults (condition .anything .anything) with
        | .error faults => ⟨.anything, collection.faults ++ faults⟩
        | .ok () =>
          let l := entries.foldl
            (fun l (k, v) => l.round group (condition k v) (key k v) (value k v))
            { faults := collection.faults : LoopOutcome }
          l.outcome makesObject group

/-! ### Splats -/

/-- The outcome of a splat. `each` gives the outcome for an element. -/
def splatOutcome (source : Outcome) (each : Value → Outcome) : Outcome :=
  let collected (items : List Value) (asList : Bool) (element : ValueType) : Outcome :=
    let os := items.map each
    let faults := os.flatMap (·.faults)
    let vs := os.map (·.value)
    if !faults.isEmpty then ⟨.anything, faults⟩
    else if !asList then ⟨.tuple vs, []⟩
    else match vs with
      | [] =>
        let o := each (.unknown element)
        ⟨.list o.value.type [], o.faults⟩
      | v :: _ => ⟨.list v.type vs, []⟩
  if !source.faults.isEmpty then ⟨.anything, source.faults⟩
  else match source.value with
    | .null (.list _) | .null (.set _) | .null (.tuple _) => .fault .splatOfNull
    | .null _ => ⟨.tuple [], []⟩
    | .unknown .dynamic => ⟨.anything, []⟩
    | .list t items | .set t items => collected items true t
    | .tuple items => collected items false .dynamic
    | .unknown (.list t) | .unknown (.set t) =>
      let o := each (.unknown t)
      ⟨.unknown (.list o.value.type), o.faults⟩
    | .unknown (.tuple ts) =>
      let os := ts.map fun t => each (.unknown t)
      ⟨.unknown (.tuple (os.map (·.value.type))), os.flatMap (·.faults)⟩
    | .unknown t => ⟨.anything, (each (.unknown t)).faults⟩
    | v => collected [v] false .dynamic

/-! ### Expressions -/

/-- The value of a variable. -/
def lookupVariable (scope : Scope) (name : String) : Outcome :=
  match scope.bindings with
  | none => .fault .variablesNotAllowed
  | some bindings =>
    match bindings.lookup name with
    | none => .fault .unknownVariable
    | some v => ⟨v, []⟩

/-- Steps into an outcome. -/
def Outcome.steps (o : Outcome) (steps : List Step) : Outcome :=
  (takeSteps o.value steps).after o.faults

namespace Expr

mutual

/-- The outcome of an expression in a scope. -/
def eval : Expr → Scope → Outcome
  | literal v, _ => ⟨v, []⟩
  | template parts, scope => ((evalList parts scope).foldl TextOutcome.add {}).outcome
  | wrapped e, scope => eval e scope
  | joined e, scope => joinedOutcome (eval e scope)
  | reference root steps, scope =>
    let o := lookupVariable scope root
    if o.faults.isEmpty then o.steps steps else o
  | relative source steps, scope => (eval source scope).steps steps
  | call name args expand, scope => callNamed scope name (evalList args scope) expand
  | conditional condition ifTrue ifFalse, scope =>
    conditionalOutcome (eval condition scope) (eval ifTrue scope) (eval ifFalse scope)
  | binary op left right, scope => binaryOutcome op (eval left scope) (eval right scope)
  | unary op e, scope => unaryOutcome op (eval e scope)
  | parens e, scope => eval e scope
  | tuple items, scope =>
    let os := evalList items scope
    ⟨.tuple (os.map (·.value)), os.flatMap (·.faults)⟩
  | object items, scope =>
    ((evalItems items scope).foldl (fun b (k, v) => b.add k v) ({} : ObjectOutcome)).outcome
  | loop keyName valueName collection key value condition group, scope =>
    let inside (k v : Value) : Scope := scope.enterLoop keyName valueName k v
    loopOutcome (eval collection scope) key.isSome group
      (fun k v => evalOption condition (inside k v))
      (fun k v => evalOption key (inside k v))
      (fun k v => eval value (inside k v))
  | index collection key, scope =>
    let c := eval collection scope
    let k := eval key scope
    (indexValue c.value k.value).after (c.faults ++ k.faults)
  | splat source each, scope =>
    splatOutcome (eval source scope) fun v => eval each (scope.enterSplat v)
  | item, scope => ⟨scope.element.getD .anything, []⟩
  | ambiguousKey _, _ => .fault .ambiguousKey

/-- The outcomes of expressions. -/
def evalList : List Expr → Scope → List Outcome
  | [], _ => []
  | e :: es, scope => eval e scope :: evalList es scope

/-- The outcomes of the keys and values of an object. -/
def evalItems : List (Expr × Expr) → Scope → List (Outcome × Outcome)
  | [], _ => []
  | (k, v) :: rest, scope => (eval k scope, eval v scope) :: evalItems rest scope

/-- The outcome of an expression that may be absent. -/
def evalOption : Option Expr → Scope → Option Outcome
  | none, _ => none
  | some e, scope => some (eval e scope)

end

end Expr

end SolidityCanvas.Config
