/-
Numbers written in decimal.

* `Decimal.ofBinary`: the exact decimal expansion of a binary fraction.
* `Binary.shortestDecimal`: the least number of leading digits that tells a
  number from its neighbours at its own precision.
* `Number.text`: that many digits, written without an exponent.
* `Number.parse?`: the number nearest to a decimal text.
-/
import SolidityCanvas.Number.Basic

namespace SolidityCanvas

/-- The number `0.d₁d₂… · 10 ^ point`. The last digit is not zero. -/
structure Decimal where
  digits : List Nat
  point : Int
  deriving DecidableEq, Inhabited

namespace Decimal

/-- The digits of a natural number, the most significant first. -/
def digitsOf (n : Nat) : List Nat := (Nat.toDigits 10 n).map fun c => c.toNat - '0'.toNat

/-- Digits without zeros at the end. -/
def dropZeros (ds : List Nat) : List Nat := (ds.reverse.dropWhile (· == 0)).reverse

/-- The exact expansion of `n · 2 ^ e`. -/
def ofBinary (n : Nat) (e : Int) : Decimal :=
  if n == 0 then ⟨[], 0⟩
  else if e ≥ 0 then
    let ds := digitsOf (n <<< e.toNat)
    ⟨dropZeros ds, ds.length⟩
  else
    let places := (-e).toNat
    let ds := digitsOf (n * Nat.pow 5 places)
    ⟨dropZeros ds, (ds.length : Int) - places⟩

/-- The digit at a place; zero after the last. -/
def digit (d : Decimal) (i : Nat) : Nat := d.digits.getD i 0

/-- The first `n` digits. -/
def roundDown (d : Decimal) (n : Nat) : Decimal := { d with digits := dropZeros (d.digits.take n) }

/-- The first `n` digits, the last of them raised by one. -/
def roundUp (d : Decimal) (n : Nat) : Decimal :=
  match (d.digits.take n).reverse.dropWhile (· == 9) with
  | [] => ⟨[1], d.point + 1⟩
  | last :: rest => { d with digits := ((last + 1) :: rest).reverse }

/-- Whether the nearest decimal of `n` digits lies above; a tie goes to the
even last digit. -/
def roundsUp (d : Decimal) (n : Nat) : Bool :=
  if d.digit n == 5 && n + 1 == d.digits.length then
    n > 0 && d.digit (n - 1) % 2 == 1
  else d.digit n ≥ 5

/-- The nearest decimal of `n` digits. -/
def round (d : Decimal) (n : Nat) : Decimal :=
  if n ≥ d.digits.length then d
  else if d.roundsUp n then d.roundUp n else d.roundDown n

/-- Walks along the digits until cutting the number off there leads neither
below `lower` nor above `upper`; `inclusive` says that the two bounds
themselves may be reached. `places` is the number of digits left to look
at. -/
def shortestFrom (d lower upper : Decimal) (inclusive : Bool) : Nat → Nat → Decimal
  | 0, _ => d
  | places + 1, i =>
    let m := d.digit i
    let l := lower.digit i
    let u := upper.digit i
    let down := l != m || (inclusive && i + 1 == lower.digits.length)
    let up := m != u && (inclusive || m + 1 < u || i + 1 < upper.digits.length)
    if down && up then d.round (i + 1)
    else if down then d.roundDown (i + 1)
    else if up then d.roundUp (i + 1)
    else shortestFrom d lower upper inclusive places (i + 1)

/-- The digits as characters. -/
def chars (ds : List Nat) : List Char := ds.map fun n => Char.ofNat (n + 48)

/-- The number without an exponent, with `places` digits after the point. -/
def fixed (d : Decimal) (places : Nat) : List Char :=
  let whole : List Nat := if d.point > 0 then
      d.digits.take d.point.toNat ++ List.replicate (d.point.toNat - d.digits.length) 0
    else [0]
  let fractionDigit (i : Nat) : Nat :=
    let j : Int := d.point + i
    if j < 0 then 0 else d.digit j.toNat
  let fraction := (List.range places).map fractionDigit
  chars whole ++ (if places == 0 then [] else '.' :: chars fraction)

/-- The digits after the point that the number has. -/
def places (d : Decimal) : Nat := ((d.digits.length : Int) - d.point).toNat

end Decimal

/-- The shortest digits between the number and the halves of the way to its
neighbours. -/
def Binary.shortestDecimal (b : Binary) : Decimal :=
  let d := Decimal.ofBinary b.mantissa b.exponent
  if b.isZero then d
  else
    let room := b.precision + 1 - bitLength b.mantissa
    let n := b.mantissa <<< room
    let e := b.exponent - room
    let lower := Decimal.ofBinary (n - 1) e
    let upper := Decimal.ofBinary (n + 1) e
    d.shortestFrom lower upper (n / 2 % 2 == 0) d.digits.length 0

/-- The shortest text that tells the number from its neighbours. -/
def Binary.text (b : Binary) : String :=
  let d := b.shortestDecimal
  String.ofList ((if b.negative then ['-'] else []) ++ d.fixed d.places)

/-- The text of a number. -/
def Number.text : Number → String
  | finite b => b.text
  | infinite negative => if negative then "-Inf" else "+Inf"

/-! ### Reading -/

/-- The least and the greatest binary exponent a number may have. -/
def maxExponent : Int := 2147483647

/-- A decimal text taken apart: the digits before and after the point, and
the exponent with the base it belongs to. -/
structure Numeral where
  negative : Bool
  whole : List Char
  fraction : List Char
  exponent : Int
  binaryExponent : Bool

/-- The value of digits. -/
def decimalValue (cs : List Char) : Nat := cs.foldl (fun n c => n * 10 + (c.toNat - '0'.toNat)) 0

/-- An ASCII digit. -/
def isDecimalDigit (c : Char) : Bool := '0' ≤ c && c ≤ '9'

/-- A sign, if there is one, and the rest. -/
def takeSign : List Char → Bool × List Char
  | '-' :: cs => (true, cs)
  | '+' :: cs => (false, cs)
  | cs => (false, cs)

/-- Reads the part of a numeral after its digits. -/
def readExponent? : List Char → Option (Int × Bool)
  | [] => some (0, false)
  | c :: cs =>
    if c == 'e' || c == 'E' || c == 'p' || c == 'P' then
      let (negative, digits) := takeSign cs
      let n := decimalValue digits
      if digits.isEmpty || !digits.all isDecimalDigit || n ≥ 9223372036854775808 then none
      else some (if negative then -n else n, c == 'p' || c == 'P')
    else none

/-- Reads a numeral. -/
def Numeral.parse? (s : String) : Option Numeral := do
  let (negative, cs) := takeSign s.toList
  let whole := cs.takeWhile isDecimalDigit
  let afterWhole := cs.dropWhile isDecimalDigit
  let (fraction, rest) := match afterWhole with
    | '.' :: more => (more.takeWhile isDecimalDigit, more.dropWhile isDecimalDigit)
    | _ => ([], afterWhole)
  if whole.isEmpty && fraction.isEmpty then none
  else
    let (exponent, binaryExponent) ← readExponent? rest
    return { negative, whole, fraction, exponent, binaryExponent }

/-- The product rounded to the precision of the first factor. -/
def Binary.mulRounded (a b : Binary) : Binary :=
  rounded (a.negative != b.negative) (a.mantissa * b.mantissa) (a.exponent + b.exponent)
    a.precision false

/-- Multiplies `product` by `factor` to the power `n`, where `steps` bounds
the number of bits of `n`. -/
def Binary.mulPower (factor product : Binary) : Nat → Nat → Binary
  | 0, _ => product
  | steps + 1, n =>
    if n == 0 then product
    else
      let product := if n % 2 == 1 then product.mulRounded factor else product
      mulPower (factor.mulRounded factor) product steps (n / 2)

/-- Five to the power `n`, exact as long as it fits the precision and within
some last bits of it beyond. -/
def powerOfFive (n precision : Nat) : Binary :=
  if n ≤ 27 then Binary.normal false (Nat.pow 5 n) 0 precision
  else
    Binary.mulPower (Binary.normal false 5 0 (precision + 64))
      (Binary.normal false (Nat.pow 5 27) 0 precision) 64 (n - 27)

/-- The number nearest to a numeral; `none` if its exponent is out of all
bounds. -/
def Numeral.value? (t : Numeral) : Option Number :=
  let n := decimalValue (t.whole ++ t.fraction)
  if n == 0 then some (.finite (Binary.zero t.negative Number.readPrecision))
  else
    let places : Int := t.fraction.length
    let exp5 := (if t.binaryExponent then 0 else t.exponent) - places
    let exp2 := t.exponent - places
    let top := exp2 + bitLength n
    if top > maxExponent || top < -maxExponent - 1 then none
    else
      let limited (b : Binary) : Number :=
        if b.exponent + bitLength b.mantissa > maxExponent then .infinite t.negative
        else if b.exponent + bitLength b.mantissa < -maxExponent - 1 then
          .finite (Binary.zero t.negative Number.readPrecision)
        else .finite b
      if exp5 == 0 then
        some (limited (Binary.rounded t.negative n exp2 Number.readPrecision false))
      else
        let p := powerOfFive exp5.natAbs (Number.readPrecision + 64)
        if exp5 < 0 then
          let q := Binary.ofRatio t.negative n p.mantissa Number.readPrecision
          some (limited { q with exponent := q.exponent + exp2 - p.exponent })
        else
          some (limited (Binary.rounded t.negative (n * p.mantissa) (exp2 + p.exponent)
            Number.readPrecision false))

/-- Reads a decimal text as the nearest number. -/
def Number.parse? (s : String) : Option Number :=
  match s with
  | "Inf" | "inf" | "+Inf" | "+inf" => some (.infinite false)
  | "-Inf" | "-inf" => some (.infinite true)
  | _ => (Numeral.parse? s).bind Numeral.value?

end SolidityCanvas
