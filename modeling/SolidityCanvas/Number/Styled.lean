/-
Numbers in a chosen style.

* `scientificText`: one digit before the point and an exponent of at least
  two digits.
* `fixedText`: a number of digits after the point.
* `generalText`: whichever of the two is shorter for the size of the number.

Without a number of digits, there are as many as tell the number from its
neighbours.
-/
import SolidityCanvas.Number.Decimal

namespace SolidityCanvas

namespace Decimal

/-- The nearest decimal with a number of digits after the point. -/
def roundPlaces (d : Decimal) (places : Nat) : Decimal :=
  let n := d.point + places
  if n < 0 then d else d.round n.toNat

/-- One digit before the point, `places` after it, and the exponent after
`mark`. -/
def scientific (d : Decimal) (mark : Char) (places : Nat) : List Char :=
  let e : Int := if d.digits.isEmpty then 0 else d.point - 1
  let fraction := (List.range places).map fun i => d.digit (i + 1)
  let exponent := Nat.toDigits 10 e.natAbs
  chars [d.digit 0] ++ (if places == 0 then [] else '.' :: chars fraction) ++
    mark :: (if e < 0 then '-' else '+') ::
      ((if exponent.length < 2 then ['0'] else []) ++ exponent)

/-- The exponent is written when it is below minus four, or not below the
number of digits. -/
def general (d : Decimal) (mark : Char) (digits : Nat) (shortest : Bool) : List Char :=
  let count := d.digits.length
  let limit : Int := if shortest then 6
    else if digits > count && (count : Int) ≥ d.point then count else digits
  let e := d.point - 1
  if e < -4 || e ≥ limit then d.scientific mark (min digits count - 1)
  else
    let shown : Int := if (digits : Int) > d.point then count else digits
    d.fixed (shown - d.point).toNat

end Decimal

namespace Number

/-- A text without the sign, made from the decimal expansion. -/
def styled (n : Number) (style : Binary → List Char) : Bool × List Char :=
  match n with
  | finite b => (b.negative, style b)
  | infinite negative => (negative, ['I', 'n', 'f'])

/-- The decimal expansion. -/
def expansion (b : Binary) : Decimal := Decimal.ofBinary b.mantissa b.exponent

/-- The sign and the digits with an exponent after `mark`. -/
def scientificText (mark : Char) (places : Nat) (n : Number) : Bool × List Char :=
  n.styled fun b => ((expansion b).round (places + 1)).scientific mark places

/-- The sign and the digits without an exponent. -/
def fixedText (places : Nat) (n : Number) : Bool × List Char :=
  n.styled fun b => ((expansion b).roundPlaces places).fixed places

/-- The sign and the digits in the shorter of the two styles. -/
def generalText (mark : Char) (digits : Option Nat) (n : Number) : Bool × List Char :=
  n.styled fun b =>
    match digits with
    | none =>
      let d := b.shortestDecimal
      d.general mark d.digits.length true
    | some digits =>
      let digits := max digits 1
      ((expansion b).round digits).general mark digits false

end Number

end SolidityCanvas
