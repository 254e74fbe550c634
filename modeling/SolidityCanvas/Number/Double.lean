/-
Double-precision numbers.

A double has 53 bits and a bounded exponent. `Double.nearest?` is the double
nearest to a decimal numeral, `Double.digits` the fewest digits that are read
back as the same double, the nearest ones if there are several, and
`Double.text` the way a double stands in a document: without an exponent from
a millionth up to below ten to the twenty-first.
-/
import SolidityCanvas.Number.Decimal

namespace SolidityCanvas.Double

/-- The bits of a double. -/
def bits : Nat := 53

/-- The exponent of the least positive double. -/
def minExponent : Int := -1074

/-- The exponent of the last bit of the greatest doubles. -/
def maxUnit : Int := 971

/-- The fraction `num / den` of a numeral other than zero. -/
def fraction (t : Numeral) : Nat × Nat :=
  let n := decimalValue (t.whole ++ t.fraction)
  let e := t.exponent - t.fraction.length
  if e ≥ 0 then (n * Nat.pow 10 e.toNat, 1) else (n, Nat.pow 10 (-e).toNat)

/-- The double nearest to a fraction, a tie to the even mantissa; `none` if
it is beyond the greatest double. -/
def ofFraction? (negative : Bool) (num den : Nat) : Option Binary :=
  if num == 0 then some (Binary.zero negative bits)
  else
    -- A first quotient with spare bits shows where the last bit of the double lies.
    let shift : Int := (bits : Int) + 2 + bitLength den - bitLength num
    let q := if shift ≥ 0 then (num <<< shift.toNat) / den else num / (den <<< (-shift).toNat)
    let rest := if shift ≥ 0 then (num <<< shift.toNat) % den else num % (den <<< (-shift).toNat)
    let unit := max (-shift + (bitLength q : Int) - bits) minExponent
    let drop := (unit + shift).toNat
    let n := roundShift q drop (rest != 0)
    if unit > maxUnit || (unit == maxUnit && bitLength n > bits) then none
    else some (Binary.normal negative n unit bits)

/-- The double nearest to a numeral. -/
def nearest? (t : Numeral) : Option Binary :=
  let n := decimalValue (t.whole ++ t.fraction)
  if n == 0 then some (Binary.zero t.negative bits)
  else
    -- Exponents far out of range are decided without the power of ten.
    let magnitude := t.exponent + t.whole.length
    if magnitude > 400 then
      if (t.whole.dropWhile (· == '0')).isEmpty && magnitude < 100000 then
        ofFraction? t.negative (fraction t).1 (fraction t).2
      else none
    else if magnitude < -400 - (t.fraction.length : Int) then some (Binary.zero t.negative bits)
    else ofFraction? t.negative (fraction t).1 (fraction t).2

/-- The double nearest to a numeral text. -/
def parse? (s : String) : Option Binary := (Numeral.parse? s).bind nearest?

/-- Twice the bounds of the reals that are read as the double `n · 2 ^ e`, in
units of `2 ^ (e - 1)`: half a unit to either side, but only a quarter below
a power of two. -/
def bounds (n : Nat) (e : Int) : Nat × Nat :=
  if n == Nat.pow 2 (bits - 1) && e > minExponent then (4 * n - 1, 4 * n + 2)
  else (4 * n - 2, 4 * n + 2)

/-- The double with its last possible bit as the unit. -/
def unitForm (b : Binary) : Nat × Int :=
  let room := min (bits - bitLength b.mantissa : Int) (b.exponent - minExponent)
  (b.mantissa <<< room.toNat, b.exponent - room)

/-- The fewest digits that are read back as the number, if `count` digits
suffice. Candidates are the two neighbours of the number on the grid of that
many digits. -/
def digitsWith? (b : Binary) (d : Decimal) (count : Nat) : Option Decimal :=
  let (n, e) := unitForm b
  let (low, high) := bounds n e
  let inclusive := n % 2 == 0
  -- A candidate c · 10 ^ k is compared with low and high in units of 2 ^ (e - 2).
  let within (c : Decimal) : Bool :=
    let k := c.point - c.digits.length
    let value := c.digits.foldl (fun v x => v * 10 + x) 0
    let left := value * (if k ≥ 0 then Nat.pow 10 k.toNat else 1) *
      (if e - 2 ≥ 0 then 1 else Nat.pow 2 (2 - e).toNat)
    let scale := (if k ≥ 0 then 1 else Nat.pow 10 (-k).toNat) *
      (if e - 2 ≥ 0 then Nat.pow 2 (e - 2).toNat else 1)
    if inclusive then low * scale ≤ left && left ≤ high * scale
    else low * scale < left && left < high * scale
  let nearest := d.round count
  let other := if d.roundsUp count then d.roundDown count else d.roundUp count
  if count ≥ d.digits.length then some d
  else if within nearest then some nearest
  else if within other then some other
  else none

/-- Tries ever more digits. -/
def digitsFrom (b : Binary) (d : Decimal) : Nat → Nat → Decimal
  | 0, _ => d
  | tries + 1, count =>
    match digitsWith? b d count with
    | some c => c
    | none => digitsFrom b d tries (count + 1)

/-- The fewest digits that are read back as the number. -/
def digits (b : Binary) : Decimal :=
  digitsFrom b (Decimal.ofBinary b.mantissa b.exponent) 17 1

/-- The number as it stands in a document. -/
def text (b : Binary) : String :=
  let sign := if b.negative then ['-'] else []
  if b.isZero then String.ofList (sign ++ ['0'])
  else
    let d := digits b
    if d.point > -6 && d.point ≤ 21 then String.ofList (sign ++ d.fixed d.places)
    else
      let e := d.point - 1
      let mantissa := match d.digits with
        | [] => ['0']
        | [x] => Decimal.chars [x]
        | x :: rest => Decimal.chars [x] ++ '.' :: Decimal.chars rest
      let exponent := (if e < 0 then "-" else "+").toList ++
        (if e ≤ -10 || e ≥ 10 || e < 0 then [] else ['0']) ++ (toString e.natAbs).toList
      String.ofList (sign ++ mantissa ++ 'e' :: exponent)

end SolidityCanvas.Double
