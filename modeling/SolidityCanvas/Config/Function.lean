/-
Functions that expressions may call.

A function names the types of its parameters; a call converts its arguments
to them before `Function.call` runs it. `null` is refused unless the
parameter takes it, and an argument that is not known makes a result that is
not known, unless the parameter takes that too.
-/
import SolidityCanvas.Value.Convert

namespace SolidityCanvas.Config

/-- Why a call has no result. -/
inductive CallFault
  /-- The number of arguments is not the number of parameters. -/
  | wrongCount (required given : Nat) (orMore : Bool)
  /-- An argument is `null`. -/
  | nullArgument
  /-- An argument is of the wrong kind. -/
  | unsuitableArgument
  /-- The arguments together have no result. -/
  | failed
  /-- A number of spaces is below zero. -/
  | negativeSpaces (n : Int)
  /-- A number is not whole, or too large. -/
  | notWhole
  deriving DecidableEq, Inhabited

namespace CallFault

/-- Whether the fault is that of a single argument. -/
def isArgument : CallFault → Bool
  | nullArgument | unsuitableArgument => true
  | _ => false

/-- The fault in words. -/
def message : CallFault → String
  | wrongCount required given orMore =>
    "wrong number of arguments (" ++ (if orMore then "at least " else "") ++
      toString required ++ " required; " ++ toString given ++ " given)"
  | nullArgument => "argument must not be null"
  | unsuitableArgument => "unsuitable argument"
  | failed => "no result"
  | negativeSpaces n => "spaces must not be negative, got " ++ toString n
  | notWhole =>
    "value must be a whole number, between -9223372036854775808 and 9223372036854775807"

end CallFault

/-- A parameter of a function. -/
structure FunctionParameter where
  type : ValueType
  takesNull : Bool := false
  takesUnknown : Bool := false
  deriving Inhabited

/-- A function. `rest` is the parameter of all arguments after the others. -/
structure Function where
  name : String
  parameters : List FunctionParameter
  rest : Option FunctionParameter := none
  /-- The type of the result, for arguments of which some may be unknown. -/
  resultType : List Value → Except CallFault ValueType
  /-- The result, for arguments of the right types. -/
  run : List Value → Except CallFault Value

namespace Function

/-- The parameter that an argument belongs to. -/
def parameter? (f : Function) (i : Nat) : Option FunctionParameter :=
  match f.parameters[i]? with
  | some p => some p
  | none => f.rest

/-- The arguments with their parameters. -/
def paired (f : Function) (args : List Value) : List (FunctionParameter × Value) :=
  args.zipIdx.filterMap fun (v, i) => (f.parameter? i).map fun p => (p, v)

/-- Calls the function with arguments of its parameters' types. -/
def call (f : Function) (args : List Value) : Except CallFault Value :=
  let required := f.parameters.length
  if args.length < required || (f.rest.isNone && args.length > required) then
    .error (.wrongCount required args.length f.rest.isSome)
  else
    let pairs := f.paired args
    if pairs.any fun (p, v) => v.isNull && !p.takesNull then .error .nullArgument
    else if pairs.any fun (p, v) => v.type == .dynamic && !p.takesUnknown then .ok .anything
    else do
      let type ← f.resultType args
      if pairs.any fun (p, v) => !v.isKnown && !p.takesUnknown then .ok (.unknown type)
      else f.run args

end Function

end SolidityCanvas.Config
