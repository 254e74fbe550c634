/-
Values written as the calls that would construct them.

This form exists for every value, also for the ones that have no JSON form,
such as an infinite number.
-/
import SolidityCanvas.Number.Double
import SolidityCanvas.Number.Styled
import SolidityCanvas.Text.Quoted
import SolidityCanvas.Value.Basic

namespace SolidityCanvas

namespace ValueType

mutual

/-- A type as the call that would construct it. -/
def display : ValueType → String
  | string => "cty.String"
  | number => "cty.Number"
  | bool => "cty.Bool"
  | dynamic => "cty.DynamicPseudoType"
  | list t => "cty.List(" ++ display t ++ ")"
  | set t => "cty.Set(" ++ display t ++ ")"
  | map t => "cty.Map(" ++ display t ++ ")"
  | tuple [] => "cty.EmptyTuple"
  | tuple ts => "cty.Tuple([]cty.Type\x7b" ++ displayList ts ++ "\x7d)"
  | object [] => "cty.EmptyObject"
  | object as => "cty.Object(map[string]cty.Type\x7b" ++ displayAttributes as ++ "\x7d)"

/-- Types separated by commas. -/
def displayList : List ValueType → String
  | [] => ""
  | [t] => display t
  | t :: u :: rest => display t ++ ", " ++ displayList (u :: rest)

/-- Attributes separated by commas. -/
def displayAttributes : List (String × ValueType) → String
  | [] => ""
  | [(n, t)] => Text.quoted n ++ ":" ++ display t
  | (n, t) :: a :: rest =>
    Text.quoted n ++ ":" ++ display t ++ ", " ++ displayAttributes (a :: rest)

end

end ValueType

/-- Whether a number is one that 64 bits of floating point hold exactly. -/
def Binary.fitsDouble (b : Binary) : Bool :=
  b.isZero || (bitLength b.mantissa ≤ 53 && b.exponent ≥ -1074 &&
    b.exponent + bitLength b.mantissa ≤ 1024)

/-- A number as the call that would construct it. -/
def Number.display (n : Number) : String :=
  let general : String :=
    let (negative, digits) := n.generalText 'e' none
    String.ofList ((if negative then ['-'] else if n.isInfinite then ['+'] else []) ++ digits)
  match n with
  | finite b =>
    if b.isWhole then "cty.NumberIntVal(" ++ general ++ ")"
    else if b.fitsDouble then
      let (negative, digits) := Number.generalText 'e' none (finite (b.withPrecision 53))
      "cty.NumberFloatVal(" ++ String.ofList ((if negative then ['-'] else []) ++ digits) ++ ")"
    else "cty.MustParseNumberVal(" ++ Text.quoted b.text ++ ")"
  | infinite _ => "cty.NumberFloatVal(" ++ general ++ ")"

namespace Value

mutual

/-- A value as the call that would construct it. -/
def display : Value → String
  | string s => "cty.StringVal(" ++ Text.quoted s ++ ")"
  | number n => n.display
  | bool b => if b then "cty.True" else "cty.False"
  | null t => "cty.NullVal(" ++ t.display ++ ")"
  | unknown .dynamic => "cty.DynamicVal"
  | unknown t => "cty.UnknownVal(" ++ t.display ++ ")"
  | list t [] => "cty.ListValEmpty(" ++ t.display ++ ")"
  | list _ items => "cty.ListVal([]cty.Value\x7b" ++ displayList items ++ "\x7d)"
  | set t [] => "cty.SetValEmpty(" ++ t.display ++ ")"
  | set _ items => "cty.SetVal([]cty.Value\x7b" ++ displayList items ++ "\x7d)"
  | tuple [] => "cty.EmptyTupleVal"
  | tuple items => "cty.TupleVal([]cty.Value\x7b" ++ displayList items ++ "\x7d)"
  | map t [] => "cty.MapValEmpty(" ++ t.display ++ ")"
  | map _ entries => "cty.MapVal(map[string]cty.Value\x7b" ++ displayEntries entries ++ "\x7d)"
  | object [] => "cty.EmptyObjectVal"
  | object entries =>
    "cty.ObjectVal(map[string]cty.Value\x7b" ++ displayEntries entries ++ "\x7d)"

/-- Values separated by commas. -/
def displayList : List Value → String
  | [] => ""
  | [v] => display v
  | v :: w :: rest => display v ++ ", " ++ displayList (w :: rest)

/-- Named values separated by commas. -/
def displayEntries : List (String × Value) → String
  | [] => ""
  | [(n, v)] => Text.quoted n ++ ":" ++ display v
  | (n, v) :: e :: rest =>
    Text.quoted n ++ ":" ++ display v ++ ", " ++ displayEntries (e :: rest)

end

end Value

end SolidityCanvas
