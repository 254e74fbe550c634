/-
Texts with interpolations and directives.

A text is read as a row of parts. `Template.assemble?` puts the parts
together: the indentation that all lines of a flush heredoc share is dropped,
neighbouring texts are melded, and each directive takes the parts up to its
end. `none` means that a directive is not closed, or closed without having
been opened.
-/
import SolidityCanvas.Config.Expr
import SolidityCanvas.Text.Split

namespace SolidityCanvas.Config

/-- A part of a text. -/
inductive TemplatePart
  | text (s : String)
  | value (e : Expr)
  | openIf (condition : Expr)
  | otherwise
  | closeIf
  | openFor (keyName : Option String) (valueName : String) (collection : Expr)
  | closeFor
  deriving Inhabited

namespace Template

open Text

/-- The text without white space at its start. -/
def trimStart (s : String) : String := String.ofList (s.toList.dropWhile isBlank)

/-- The text without white space at its end. -/
def trimEnd (s : String) : String := String.ofList (dropRightWhile isBlank s.toList)

/-- The parts, the last one first, with no white space at the end of the last
one if it is a text. -/
def trimLast : List TemplatePart → List TemplatePart
  | .text s :: rest => .text (trimEnd s) :: rest
  | parts => parts

/-! ### Flush heredocs -/

/-- Whether a text ends a line. -/
def endsLine (s : String) : Bool := s.toList.getLast? == some '\n'

/-- The white space at the start of a line. A blank line has no
indentation. -/
def indentation? (s : String) : Option Nat :=
  let blanks := (s.toList.takeWhile isBlank).length
  if blanks == s.length && endsLine s then none else some blanks

/-- The least indentation of the lines that are not blank. A line that starts
with an interpolation or a directive has none. -/
def leastIndentation? : Bool → List TemplatePart → Option Nat
  | _, [] => none
  | lineStart, .text s :: rest =>
    let others := leastIndentation? (endsLine s) rest
    if lineStart then
      match indentation? s, others with
      | some n, some m => some (min n m)
      | some n, none => some n
      | none, others => others
    else others
  | lineStart, _ :: rest => if lineStart then some 0 else leastIndentation? false rest

/-- Drops characters at the start of every line that is not blank. -/
def dropIndentation (n : Nat) : Bool → List TemplatePart → List TemplatePart
  | _, [] => []
  | lineStart, .text s :: rest =>
    let dropped := if lineStart && (indentation? s).isSome then
      String.ofList (s.toList.drop n) else s
    .text dropped :: dropIndentation n (endsLine s) rest
  | _, part :: rest => part :: dropIndentation n false rest

/-- The parts of a flush heredoc, without the indentation that all lines
share. -/
def flush (parts : List TemplatePart) : List TemplatePart :=
  match leastIndentation? true parts with
  | none => parts
  | some n => dropIndentation n true parts

/-! ### Assembly -/

/-- Neighbouring texts as one. -/
def meld : List TemplatePart → List TemplatePart
  | [] => []
  | .text s :: rest =>
    match meld rest with
    | .text t :: more => .text (s ++ t) :: more
    | more => .text s :: more
  | part :: rest => part :: meld rest

/-- A directive that waits for its end. -/
inductive Pending
  | branch (condition : Expr)
  | alternative (condition : Expr) (ifTrue : Expr)
  | loop (keyName : Option String) (valueName : String) (collection : Expr)

/-- The text of some parts, given the last one first. -/
def ofParts (parts : List Expr) : Expr :=
  if parts.isEmpty then .template [.literal (.string "")] else .template parts.reverse

/-- Goes through the parts. `current` holds the expressions of the innermost
directive, the last one first; `pending` the directives around it, each with
the expressions before it. -/
def assembleFrom : List Expr → List (Pending × List Expr) → List TemplatePart →
    Option (List Expr)
  | current, [], [] => some current.reverse
  | _, _ :: _, [] => none
  | current, pending, .text s :: rest =>
    assembleFrom (.literal (.text s) :: current) pending rest
  | current, pending, .value e :: rest => assembleFrom (e :: current) pending rest
  | current, pending, .openIf condition :: rest =>
    assembleFrom [] ((.branch condition, current) :: pending) rest
  | current, (.branch condition, before) :: pending, .otherwise :: rest =>
    assembleFrom [] ((.alternative condition (ofParts current), before) :: pending) rest
  | current, (.branch condition, before) :: pending, .closeIf :: rest =>
    assembleFrom (.conditional condition (ofParts current) (ofParts []) :: before) pending rest
  | current, (.alternative condition ifTrue, before) :: pending, .closeIf :: rest =>
    assembleFrom (.conditional condition ifTrue (ofParts current) :: before) pending rest
  | current, pending, .openFor keyName valueName collection :: rest =>
    assembleFrom [] ((.loop keyName valueName collection, current) :: pending) rest
  | current, (.loop keyName valueName collection, before) :: pending, .closeFor :: rest =>
    let body := Expr.loop keyName valueName collection none (ofParts current) none false
    assembleFrom (.joined body :: before) pending rest
  | _, _, _ :: _ => none

/-- The expression that a row of parts is. A single interpolation keeps its
value as it is. -/
def assemble? (flushed : Bool) (parts : List TemplatePart) : Option Expr :=
  match meld (if flushed then flush parts else parts) with
  | [.value e] => some (.wrapped e)
  | [] => some (.template [.literal (.string "")])
  | parts => (assembleFrom [] [] parts).map .template

end Template

end SolidityCanvas.Config
