/-
The functions that templates may call.

`library` lists them by name in alphabetical order.
-/
import SolidityCanvas.Config.Function.Format
import SolidityCanvas.Text.Case
import SolidityCanvas.Text.Split

namespace SolidityCanvas.Config

open Text

/-- A parameter that takes values of any type, `null` and unknown ones. -/
def anyParameter : FunctionParameter :=
  { type := .dynamic, takesNull := true, takesUnknown := true }

/-- The whole number of spaces that a value is. -/
def wholeWord (n : Number) : Except CallFault Int :=
  match n.toInt? with
  | some i => if i < -9223372036854775808 || i > 9223372036854775807 then .error .notWhole else .ok i
  | none => .error .notWhole

/-- Puts spaces before every line but the first and the empty ones. -/
def indentLines (spaces : Nat) (s : String) : String :=
  match lines s with
  | [] => ""
  | first :: rest =>
    let pad := String.ofList (List.replicate spaces ' ')
    "\n".intercalate (first :: rest.map fun l => if l.isEmpty then l else pad ++ l)

/-- A function of texts that always has a result. -/
def textFunction (name : String) (count : Nat) (f : List String → String) : Function where
  name
  parameters := List.replicate count { type := .string }
  resultType _ := .ok .string
  run args := .ok (.text (f (args.filterMap fun
    | .string s => some s
    | _ => none)))

/-- The text of all items of all lists, with a separator between them. -/
def joinFunction : Function where
  name := "join"
  parameters := [{ type := .string }]
  rest := some { type := .list .string }
  resultType _ := .ok .string
  run
    | .string separator :: lists =>
      if lists.isEmpty then .error .failed
      else if !Value.allKnown lists then .ok (.unknown .string)
      else
        let items := lists.flatMap fun l => l.items?.getD []
        if items.any Value.isNull then .error .unsuitableArgument
        else .ok (.text (separator.intercalate (items.filterMap fun
          | .string s => some s
          | _ => none)))
    | _ => .error .failed

/-- Indents the lines of a text. -/
def indentFunction : Function where
  name := "indent"
  parameters := [{ type := .number }, { type := .string }]
  resultType _ := .ok .string
  run
    | [.number n, .string s] => do
      let spaces ← wholeWord n
      if spaces < 0 then .error (.negativeSpaces spaces)
      else .ok (.text (indentLines spaces.toNat s))
    | _ => .error .failed

/-- The number of items. -/
def lengthFunction : Function where
  name := "length"
  parameters := [{ type := .dynamic, takesUnknown := true }]
  resultType
    | [v] =>
      match v.type with
      | .list _ | .set _ | .map _ | .tuple _ | .dynamic => .ok .number
      | _ => .error .failed
    | _ => .error .failed
  run
    | [.list _ items] | [.set _ items] | [.tuple items] => .ok (.int items.length)
    | [.map _ entries] => .ok (.int entries.length)
    | [.unknown (.tuple ts)] => .ok (.int ts.length)
    | [.unknown _] => .ok (.unknown .number)
    | _ => .error .failed

/-- The list type of lists only, if their element types can be unified. -/
def commonListType? (args : List Value) : Option ValueType :=
  if args.all (·.type.isList) then ValueType.unifyAll? (args.map (·.type)) else none

/-- The types of the items that a list or tuple adds to a tuple; no number is
known for an unknown list. -/
def itemTypes (v : Value) : Except CallFault (Option (List ValueType)) :=
  match v.type with
  | .tuple ts => .ok (some ts)
  | .list t =>
    match v with
    | .list _ items => .ok (some (items.map fun _ => t))
    | _ => .ok none
  | _ => .error .unsuitableArgument

/-- The items of all lists and tuples, one after another. Lists of types that
can be unified make a list, all else a tuple. -/
def concatFunction : Function where
  name := "concat"
  parameters := []
  rest := some { type := .dynamic }
  resultType args :=
    if args.isEmpty then .error .failed
    else match commonListType? args with
      | some t => .ok t
      | none => do
        let types ← args.mapM itemTypes
        if types.any Option.isNone then .ok .dynamic
        else .ok (.tuple (types.filterMap id).flatten)
  run args :=
    match commonListType? args with
    | some (.list t) =>
      match args.mapM (·.convert? (.list t)) with
      | some lists => .ok (.list t (lists.flatMap fun l => l.items?.getD []))
      | none => .error .unsuitableArgument
    | _ => .ok (.tuple (args.flatMap fun v => v.items?.getD []))

/-- The arguments written by a pattern. -/
def formatFunction : Function where
  name := "format"
  parameters := [{ type := .string }]
  rest := some anyParameter
  resultType _ := .ok .string
  run
    | .string pattern :: args =>
      if !Value.allKnown args then .ok (.unknown .string)
      else (Format.format pattern args).map .text
    | _ => .error .failed

/-- The items of a value that a formatted list goes through. -/
def formatItems? : Value → Option (List Value)
  | .list _ items | .set _ items | .tuple items => some items
  | _ => none

/-- The number of items that a value goes through, also if they are not
known. -/
def formatCount? : Value → Option Nat
  | .unknown (.tuple ts) => some ts.length
  | v => (formatItems? v).map (·.length)

/-- Whether nothing can be said about a formatted list because of a value. -/
def blocksFormat : Value → Bool
  | .unknown (.list _) | .unknown (.set _) | .unknown (.tuple _) | .unknown .dynamic => true
  | _ => false

/-- One text of a formatted list. -/
def formatOne (pattern : String) (args : List Value) : Except CallFault Value :=
  if !Value.allKnown args then .ok (.unknown .string)
  else match Format.format pattern args with
    | .ok s => .ok (.text s)
    | .error _ => .error .failed

/-- The pattern applied to the items of lists of one length; other arguments
are the same for each of them. -/
def formatListFunction : Function where
  name := "formatlist"
  parameters := [{ type := .string }]
  rest := some anyParameter
  resultType _ := .ok (.list .string)
  run
    | .string pattern :: args =>
      let counts := args.filterMap formatCount?
      if counts.any (· != counts.headD 0) then .error .unsuitableArgument
      else if args.any blocksFormat then .ok (.unknown (.list .string))
      else do
        let rounds := (List.range (counts.headD 1)).map fun i =>
          args.map fun v => match formatItems? v with
            | some items => items.getD i .anything
            | none => v
        let texts ← rounds.mapM (formatOne pattern)
        return .list .string texts
    | _ => .error .failed

/-- The functions that templates may call, by name. -/
def library : List Function := [
  concatFunction,
  formatFunction,
  formatListFunction,
  indentFunction,
  joinFunction,
  lengthFunction,
  textFunction "lower" 1 fun args => toLower (args.headD ""),
  textFunction "replace" 3 fun
    | [s, old, new] => replaceAll old new s
    | _ => "",
  textFunction "trimspace" 1 fun args => trim (args.headD ""),
  textFunction "upper" 1 fun args => toUpper (args.headD "")]

/-- Their names. -/
def libraryNames : List String := library.map (·.name)

end SolidityCanvas.Config
