/-
Reading the configuration language.

* `Expr.parse?`: an expression.
* `Expr.parseTemplate?`: a text with interpolations, without quotes.
* `Body.parse?`: a file of attributes and blocks.

`none` means that the text is not of that form. The stages below take the
tokens that are left and give the ones that they leave. Each takes fuel as
its first argument, of which every step uses one; no stage makes more than a
dozen steps between two tokens, so `fuelFor` is enough.

A line break ends an attribute and an item of an object, and means nothing
inside parentheses, brackets and interpolations; `lines` says which holds.
-/
import SolidityCanvas.Config.Template
import SolidityCanvas.Config.Token
import SolidityCanvas.Number.Decimal

namespace SolidityCanvas.Config

namespace Parser

/-- Steps enough for any number of tokens. -/
def fuelFor (tokens : List Token) : Nat := 16 * (tokens.length + 2)

/-- The tokens from the next one that counts. -/
def visible (lines : Bool) (ts : List Token) : List Token :=
  if lines then ts else ts.dropWhile (· == .newline)

/-- The operator with a sign on a level of precedence; higher levels bind
tighter. -/
def operator? : Nat → Symbol → Option BinaryOp
  | 0, .or => some .or
  | 1, .and => some .and
  | 2, .equal => some .equal
  | 2, .notEqual => some .notEqual
  | 3, .greater => some .greater
  | 3, .greaterOrEqual => some .greaterOrEqual
  | 3, .less => some .less
  | 3, .lessOrEqual => some .lessOrEqual
  | 4, .plus => some .add
  | 4, .minus => some .subtract
  | 5, .star => some .multiply
  | 5, .slash => some .divide
  | 5, .percent => some .modulo
  | _, _ => none

/-- The level above all operators. -/
def operandLevel : Nat := 6

/-- What a bare word stands for. -/
def wordExpr : String → Expr
  | "true" => .literal (.bool true)
  | "false" => .literal (.bool false)
  | "null" => .null
  | n => .reference n []

/-- An expression as the key of an object. A bare word is that text unless it
stands in parentheses. -/
def objectKey (inParens : Bool) (e : Expr) : Expr :=
  if inParens then e
  else match e with
    | .reference _ (_ :: _) => .ambiguousKey e
    | e =>
      match e.keyword? with
      | some word => .literal (.text word)
      | none => e

/-- The index that a constant key is, if it is one. -/
def constantKey? : Expr → Option Value
  | .literal v => some v
  | .template [.literal v] => some v
  | _ => none

/-- The rest of the name of a function after its first part, up to the open
parenthesis. `expected` says that a part has to follow. -/
def functionName (lines expected : Bool) (name : String) :
    List Token → Option (String × List Token)
  | .newline :: rest => if lines then none else functionName lines expected name rest
  | .symbol .openParen :: rest => if expected then none else some (name, rest)
  | .symbol .doubleColon :: rest =>
    if expected then none else functionName lines true name rest
  | .name part :: rest =>
    if expected then functionName lines false (name ++ "::" ++ part) rest else none
  | _ => none

/-- The names that a loop binds, up to the word `in`. -/
def loopNames? (ts : List Token) : Option (Option String × String × List Token) :=
  match visible false ts with
  | .name first :: rest =>
    match visible false rest with
    | .symbol .comma :: rest =>
      match visible false rest with
      | .name second :: rest =>
        match visible false rest with
        | .name "in" :: rest => some (some first, second, rest)
        | _ => none
      | _ => none
    | .name "in" :: rest => some (none, first, rest)
    | _ => none
  | _ => none

/-- An index written as an attribute; it has no point. -/
def attributeIndex? (number : String) : Option Step :=
  if number.contains '.' then none
  else (Number.parse? number).map fun n => .index (.number n)

/-- The attributes and indices after a splat that takes no others. -/
def splatSteps (lines : Bool) : Nat → List Token → Option (List Step × List Token)
  | 0, ts => some ([], ts)
  | fuel + 1, ts =>
    match visible lines ts with
    | .symbol .dot :: rest =>
      match visible lines rest with
      | .name n :: rest => do
        let (steps, rest) ← splatSteps lines fuel rest
        return (.attribute n :: steps, rest)
      | .number n :: rest => do
        let step ← attributeIndex? n
        let (steps, rest) ← splatSteps lines fuel rest
        return (step :: steps, rest)
      | _ => none
    | _ => some ([], ts)

/-- What an attribute splat evaluates for each element. -/
def splatItem (steps : List Step) : Expr :=
  if steps.isEmpty then .item else .relative .item steps

mutual

/-- An expression. -/
def expression : Nat → Bool → List Token → Option (Expr × List Token)
  | 0, _, _ => none
  | fuel + 1, lines, ts => do
    let (condition, rest) ← binary fuel lines 0 ts
    match visible lines rest with
    | .symbol .question :: rest => do
      let (ifTrue, rest) ← expression fuel lines rest
      match visible lines rest with
      | .symbol .colon :: rest => do
        let (ifFalse, rest) ← expression fuel lines rest
        return (.conditional condition ifTrue ifFalse, rest)
      | _ => none
    | _ => return (condition, rest)

/-- Operands joined by operators from a level of precedence on. -/
def binary : Nat → Bool → Nat → List Token → Option (Expr × List Token)
  | 0, _, _, _ => none
  | fuel + 1, lines, level, ts =>
    if level == operandLevel then operand fuel lines ts
    else do
      let (left, rest) ← binary fuel lines (level + 1) ts
      binaryRest fuel lines level left rest

/-- The operators on one level that follow an operand, from the left. -/
def binaryRest : Nat → Bool → Nat → Expr → List Token → Option (Expr × List Token)
  | 0, _, _, _, _ => none
  | fuel + 1, lines, level, left, ts =>
    match visible lines ts with
    | .symbol s :: rest =>
      match operator? level s with
      | some op => do
        let (right, rest) ← binary fuel lines (level + 1) rest
        binaryRest fuel lines level (.binary op left right) rest
      | none => some (left, ts)
    | _ => some (left, ts)

/-- A term and the steps into it. -/
def operand : Nat → Bool → List Token → Option (Expr × List Token)
  | 0, _, _ => none
  | fuel + 1, lines, ts => do
    let (e, rest) ← term fuel lines ts
    steps fuel lines e rest

/-- A term. -/
def term : Nat → Bool → List Token → Option (Expr × List Token)
  | 0, _, _ => none
  | fuel + 1, lines, ts =>
    match visible lines ts with
    | .symbol .openParen :: rest => do
      let (e, rest) ← expression fuel false rest
      match visible false rest with
      | .symbol .closeParen :: rest => some (.parens e, rest)
      | _ => none
    | .number n :: rest => (Number.parse? n).map fun n => (.literal (.number n), rest)
    | .name n :: rest =>
      match visible lines rest with
      | .symbol .openParen :: _ | .symbol .doubleColon :: _ => do
        let (name, rest) ← functionName lines false n rest
        let (args, expand, rest) ← arguments fuel [] rest
        return (.call name args expand, rest)
      | _ => some (wordExpr n, rest)
    | .openQuote :: rest => do
      let (parts, rest) ← templateParts fuel (some .closeQuote) false [] rest
      let e ← Template.assemble? false parts
      return (e, rest)
    | .openHeredoc flushed :: rest => do
      let (parts, rest) ← templateParts fuel (some .closeHeredoc) false [] rest
      let e ← Template.assemble? flushed parts
      return (e, rest)
    | .symbol .minus :: rest => do
      let (e, rest) ← operand fuel lines rest
      return (.unary .negate e, rest)
    | .symbol .bang :: rest => do
      let (e, rest) ← operand fuel lines rest
      return (.unary .not e, rest)
    | .symbol .openBracket :: rest =>
      match visible false rest with
      | .name "for" :: rest => loop fuel false rest
      | rest => do
        let (items, rest) ← tupleItems fuel [] rest
        return (.tuple items, rest)
    | .symbol .openBrace :: rest =>
      match visible false rest with
      | .name "for" :: rest => loop fuel true rest
      | _ => do
        let (items, rest) ← objectItems fuel [] rest
        return (.object items, rest)
    | _ => none

/-- The steps into an expression. -/
def steps : Nat → Bool → Expr → List Token → Option (Expr × List Token)
  | 0, _, _, _ => none
  | fuel + 1, lines, e, ts =>
    match visible lines ts with
    | .symbol .dot :: rest =>
      match visible lines rest with
      | .name n :: rest => steps fuel lines (e.addStep (.attribute n)) rest
      | .number n :: rest => do
        let step ← attributeIndex? n
        steps fuel lines (e.addStep step) rest
      | .symbol .star :: rest => do
        let (inner, rest) ← splatSteps lines rest.length rest
        steps fuel lines (.splat e (splatItem inner)) rest
      | _ => none
    | .symbol .openBracket :: rest =>
      match visible lines rest with
      | .symbol .star :: rest =>
        match visible lines rest with
        | .symbol .closeBracket :: rest => do
          let (each, rest) ← steps fuel lines .item rest
          return (.splat e each, rest)
        | _ => none
      | _ => do
        let (key, rest) ← expression fuel false rest
        match visible false rest with
        | .symbol .closeBracket :: rest =>
          match constantKey? key with
          | some v => steps fuel lines (e.addStep (.index v)) rest
          | none => steps fuel lines (.index e key) rest
        | _ => none
    | _ => some (e, ts)

/-- The arguments of a call, and whether the last one is expanded. -/
def arguments : Nat → List Expr → List Token → Option (List Expr × Bool × List Token)
  | 0, _, _ => none
  | fuel + 1, done, ts =>
    match visible false ts with
    | .symbol .closeParen :: rest => some (done.reverse, false, rest)
    | ts => do
      let (arg, rest) ← expression fuel false ts
      match visible false rest with
      | .symbol .closeParen :: rest => some ((arg :: done).reverse, false, rest)
      | .symbol .ellipsis :: rest =>
        match visible false rest with
        | .symbol .closeParen :: rest => some ((arg :: done).reverse, true, rest)
        | _ => none
      | .symbol .comma :: rest => arguments fuel (arg :: done) rest
      | _ => none

/-- The items of a tuple. -/
def tupleItems : Nat → List Expr → List Token → Option (List Expr × List Token)
  | 0, _, _ => none
  | fuel + 1, done, ts =>
    match visible false ts with
    | .symbol .closeBracket :: rest => some (done.reverse, rest)
    | ts => do
      let (e, rest) ← expression fuel false ts
      match visible false rest with
      | .symbol .closeBracket :: rest => some ((e :: done).reverse, rest)
      | .symbol .comma :: rest => tupleItems fuel (e :: done) rest
      | _ => none

/-- The items of an object. -/
def objectItems : Nat → List (Expr × Expr) → List Token →
    Option (List (Expr × Expr) × List Token)
  | 0, _, _ => none
  | fuel + 1, done, ts =>
    match ts with
    | .newline :: rest => objectItems fuel done rest
    | .symbol .closeBrace :: rest => some (done.reverse, rest)
    | ts => do
      let (key, rest) ← expression fuel true ts
      let key := objectKey (ts.head? == some (.symbol .openParen)) key
      match rest with
      | .symbol .assign :: rest | .symbol .colon :: rest => do
        let (value, rest) ← expression fuel true rest
        match rest with
        | .symbol .closeBrace :: rest => some (((key, value) :: done).reverse, rest)
        | .symbol .comma :: rest | .newline :: rest =>
          objectItems fuel ((key, value) :: done) rest
        | _ => none
      | _ => none

/-- A loop after its first word, which makes an object or a tuple. -/
def loop : Nat → Bool → List Token → Option (Expr × List Token)
  | 0, _, _ => none
  | fuel + 1, makesObject, ts => do
    let (keyName, valueName, rest) ← loopNames? ts
    let (collection, rest) ← expression fuel false rest
    match visible false rest with
    | .symbol .colon :: rest => do
      let (first, rest) ← expression fuel false rest
      let (key, value, rest) ← match visible false rest with
        | .symbol .arrow :: rest => do
          let (value, rest) ← expression fuel false rest
          pure (some first, value, rest)
        | rest => pure (none, first, rest)
      let (group, rest) := match visible false rest with
        | .symbol .ellipsis :: rest => (true, rest)
        | rest => (false, rest)
      let (condition, rest) ← match visible false rest with
        | .name "if" :: rest => do
          let (condition, rest) ← expression fuel false rest
          pure (some condition, rest)
        | rest => pure (none, rest)
      let close := if makesObject then Symbol.closeBrace else .closeBracket
      match visible false rest with
      | .symbol s :: rest =>
        if s == close && key.isSome == makesObject && (makesObject || !group) then
          some (.loop keyName valueName collection key value condition group, rest)
        else none
      | _ => none
    | _ => none

/-- The parts of a text up to its end, which is that of the input if no token
is given. `trim` says that white space at the start of the next text is
dropped; `done` holds the parts so far, the last one first. -/
def templateParts : Nat → Option Token → Bool → List TemplatePart → List Token →
    Option (List TemplatePart × List Token)
  | 0, _, _, _, _ => none
  | fuel + 1, close, trim, done, ts =>
    match ts with
    | [] => if close.isNone then some (done.reverse, []) else none
    | .text s :: rest =>
      let s := if trim then Template.trimStart s else s
      templateParts fuel close false (.text s :: done) rest
    | .openInterpolation strip :: rest => do
      let done := if strip then Template.trimLast done else done
      let (e, rest) ← expression fuel false rest
      match visible false rest with
      | .closeSequence strip :: rest => templateParts fuel close strip (.value e :: done) rest
      | _ => none
    | .openDirective strip :: rest => do
      let done := if strip then Template.trimLast done else done
      let (part, rest) ← directive fuel rest
      match visible false rest with
      | .closeSequence strip :: rest => templateParts fuel close strip (part :: done) rest
      | _ => none
    | t :: rest => if close == some t then some (done.reverse, rest) else none

/-- A directive up to its closing brace. -/
def directive : Nat → List Token → Option (TemplatePart × List Token)
  | 0, _ => none
  | fuel + 1, ts =>
    match visible false ts with
    | .name "if" :: rest => do
      let (condition, rest) ← expression fuel false rest
      return (.openIf condition, rest)
    | .name "else" :: rest => some (.otherwise, rest)
    | .name "endif" :: rest => some (.closeIf, rest)
    | .name "for" :: rest => do
      let (keyName, valueName, rest) ← loopNames? rest
      let (collection, rest) ← expression fuel false rest
      return (.openFor keyName valueName collection, rest)
    | .name "endfor" :: rest => some (.closeFor, rest)
    | _ => none

end

/-! ### Files -/

/-- The labels of a block up to its open brace. `label` is the quoted label
that is being read. -/
def blockLabels (label : Option String) : List Token → Option (List String × List Token)
  | [] => none
  | t :: rest =>
    match label, t with
    | none, .symbol .openBrace => some ([], rest)
    | none, .name n => do
      let (labels, rest) ← blockLabels none rest
      return (n :: labels, rest)
    | none, .openQuote => blockLabels (some "") rest
    | some done, .text s => blockLabels (some (done ++ s)) rest
    | some done, .closeQuote => do
      let (labels, rest) ← blockLabels none rest
      return (done :: labels, rest)
    | _, _ => none

/-- The value of an attribute. -/
def attributeValue (ts : List Token) : Option (Expr × List Token) :=
  expression (fuelFor ts) true ts

/-- What a block on a single line holds, up to its closing brace: one
attribute. -/
def singleLine : List Token → Option (List Attribute × List Token)
  | .name n :: .symbol .assign :: rest => do
    let (value, rest) ← attributeValue rest
    match rest with
    | .symbol .closeBrace :: rest => some ([⟨n, value⟩], rest)
    | _ => none
  | _ => none

/-- What follows an item of a body: the next line or the end. -/
def nextLine : List Token → Option (List Token)
  | .newline :: rest => some rest
  | [] => some []
  | _ => none

/-- The attributes and blocks of a body up to its end: the closing brace if
`nested`, the end of the input otherwise. `attributes` and `blocks` are those
so far, the last one first. -/
def bodyItems : Nat → Bool → List Attribute → List Block → List Token →
    Option (List Attribute × List Block × List Token)
  | 0, _, _, _, _ => none
  | fuel + 1, nested, attributes, blocks, ts =>
    match ts with
    | [] => if nested then none else some (attributes.reverse, blocks.reverse, [])
    | .newline :: rest => bodyItems fuel nested attributes blocks rest
    | .symbol .closeBrace :: rest =>
      if nested then some (attributes.reverse, blocks.reverse, rest) else none
    | .name n :: .symbol .assign :: rest => do
      let (value, rest) ← attributeValue rest
      let rest ← nextLine rest
      if attributes.any (·.name == n) then none
      else bodyItems fuel nested (⟨n, value⟩ :: attributes) blocks rest
    | .name n :: rest => do
      let (labels, rest) ← blockLabels none rest
      let (inner, innerBlocks, rest) ← match rest with
        | .newline :: _ | [] | .symbol .closeBrace :: _ => bodyItems fuel true [] [] rest
        | rest => do
          let (inner, rest) ← singleLine rest
          pure (inner, [], rest)
      let rest ← nextLine rest
      bodyItems fuel nested attributes (.mk n labels inner innerBlocks :: blocks) rest
    | _ => none

end Parser

/-- The expression that a text is. -/
def Expr.parse? (s : String) : Option Expr := do
  let ts ← tokenize? s
  let (e, rest) ← Parser.expression (Parser.fuelFor ts) false ts
  if (Parser.visible false rest).isEmpty then some e else none

/-- The expression that a text with interpolations is. -/
def Expr.parseTemplate? (s : String) : Option Expr := do
  let ts ← tokenizeTemplate? s
  let (parts, _) ← Parser.templateParts (Parser.fuelFor ts) none false [] ts
  Template.assemble? false parts

/-- What a file holds. -/
def Body.parse? (s : String) : Option Body := do
  let ts ← tokenize? s
  let (attributes, blocks, _) ← Parser.bodyItems (Parser.fuelFor ts) false [] [] ts
  return ⟨attributes, blocks⟩

end SolidityCanvas.Config
