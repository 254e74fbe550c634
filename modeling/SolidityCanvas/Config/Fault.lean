/-
What can be wrong with a configuration that could be read.

Every fault has a summary, a few words that name it. A report lists faults in
the order they were found.
-/

namespace SolidityCanvas.Config

/-- Why an expression has no value. -/
inductive EvalFault
  | variablesNotAllowed
  | unknownVariable
  | functionsNotAllowed
  | unknownFunction
  | notEnoughArguments
  | tooManyArguments
  | invalidArgument
  | callFailed
  | invalidExpansion
  | invalidInterpolation
  | nullCondition
  | incorrectCondition
  | inconsistentBranches
  | loopOverNull
  | loopOverOther
  | nullLoopCondition
  | invalidLoopCondition
  | invalidObjectKey
  | duplicateObjectKey
  | nullKey
  | incorrectKeyType
  | ambiguousKey
  | invalidIndex
  | indexOfNull
  | attributeOfNull
  | unsupportedAttribute
  | missingElement
  | splatOfNull
  | invalidOperand
  | operationFailed
  deriving DecidableEq, Inhabited

/-- The fault in a few words. -/
def EvalFault.summary : EvalFault → String
  | variablesNotAllowed => "Variables not allowed"
  | unknownVariable => "Unknown variable"
  | functionsNotAllowed => "Function calls not allowed"
  | unknownFunction => "Call to unknown function"
  | notEnoughArguments => "Not enough function arguments"
  | tooManyArguments => "Too many function arguments"
  | invalidArgument => "Invalid function argument"
  | callFailed => "Error in function call"
  | invalidExpansion => "Invalid expanding argument value"
  | invalidInterpolation => "Invalid template interpolation value"
  | nullCondition => "Null condition"
  | incorrectCondition => "Incorrect condition type"
  | inconsistentBranches => "Inconsistent conditional result types"
  | loopOverNull => "Iteration over null value"
  | loopOverOther => "Iteration over non-iterable value"
  | nullLoopCondition => "Condition is null"
  | invalidLoopCondition => "Invalid 'for' condition"
  | invalidObjectKey => "Invalid object key"
  | duplicateObjectKey => "Duplicate object key"
  | nullKey => "Null value as key"
  | incorrectKeyType => "Incorrect key type"
  | ambiguousKey => "Ambiguous attribute key"
  | invalidIndex => "Invalid index"
  | indexOfNull => "Attempt to index null value"
  | attributeOfNull => "Attempt to get attribute from null value"
  | unsupportedAttribute => "Unsupported attribute"
  | missingElement => "Missing map element"
  | splatOfNull => "Splat of null value"
  | invalidOperand => "Invalid operand"
  | operationFailed => "Operation failed"

/-- Why a body is not of the expected form. -/
inductive BodyFault
  | missingArgument
  | unsupportedArgument
  | unsupportedBlock
  | missingLabel (label block : String)
  | extraLabel (block : String)
  | duplicateBlock (block : String)
  | unsuitableValue
  | invalidType
  deriving DecidableEq, Inhabited

/-- The fault in a few words. -/
def BodyFault.summary : BodyFault → String
  | missingArgument => "Missing required argument"
  | unsupportedArgument => "Unsupported argument"
  | unsupportedBlock => "Unsupported block type"
  | missingLabel label block => "Missing " ++ label ++ " for " ++ block
  | extraLabel block => "Extraneous label for " ++ block
  | duplicateBlock block => "Duplicate " ++ block ++ " block"
  | unsuitableValue => "Unsuitable value type"
  | invalidType => "Invalid type specification"

/-- A fault of a configuration: of an expression, of the form of a body, or of
what the configuration means. The last kind comes with a sentence. -/
inductive Fault
  | eval (f : EvalFault)
  | body (f : BodyFault)
  | meaning (summary detail : String)
  deriving DecidableEq, Inhabited

/-- The fault in a few words. -/
def Fault.summary : Fault → String
  | eval f => f.summary
  | body f => f.summary
  | meaning s _ => s

end SolidityCanvas.Config
