/-
Numbers.

A number is a binary fraction `± mantissa · 2 ^ exponent` held to a number of
bits, its precision, or one of the two infinities. The mantissa is odd unless
the number is zero, so each value has one form for each precision. Zero keeps
its sign.

Results are rounded to the precision of the more precise operand, to the
nearest value and a tie to the even one. Operations without a result, such as
zero divided by zero, give `none`.
-/

namespace SolidityCanvas

/-- A finite number `± mantissa · 2 ^ exponent`. -/
structure Binary where
  negative : Bool
  mantissa : Nat
  exponent : Int
  precision : Nat
  deriving DecidableEq, Inhabited

/-- A number. -/
inductive Number
  | finite (b : Binary)
  | infinite (negative : Bool)
  deriving DecidableEq, Inhabited

/-- The number of bits of a natural number. -/
def bitLength (n : Nat) : Nat := if n == 0 then 0 else n.log2 + 1

/-- The number of zero bits below the lowest one bit. -/
def trailingZeros (n : Nat) : Nat := if n == 0 then 0 else (n ^^^ (n - 1)).log2

/-- `n / 2 ^ shift` rounded to the nearest natural number, a tie to the even
one. `inexact` says that the value is a little more than `n`. -/
def roundShift (n shift : Nat) (inexact : Bool) : Nat :=
  if shift == 0 then n
  else
    let q := n >>> shift
    let r := n - (q <<< shift)
    let half := 1 <<< (shift - 1)
    if r > half || (r == half && (inexact || q % 2 == 1)) then q + 1 else q

namespace Binary

/-- Zero. -/
def zero (negative : Bool) (precision : Nat) : Binary := ⟨negative, 0, 0, precision⟩

/-- Whether the number is zero. -/
def isZero (b : Binary) : Bool := b.mantissa == 0

/-- The value `± n · 2 ^ e` with an odd mantissa. -/
def normal (negative : Bool) (n : Nat) (e : Int) (precision : Nat) : Binary :=
  if n == 0 then zero negative precision
  else
    let z := trailingZeros n
    ⟨negative, n >>> z, e + z, precision⟩

/-- The value nearest to `± n · 2 ^ e` that fits the precision. `inexact`
says that the true value is a little more than that. -/
def rounded (negative : Bool) (n : Nat) (e : Int) (precision : Nat) (inexact : Bool) : Binary :=
  let shift := bitLength n - precision
  normal negative (roundShift n shift inexact) (e + shift) precision

/-- The value nearest to the fraction `± num / den`. -/
def ofRatio (negative : Bool) (num den precision : Nat) : Binary :=
  if num == 0 then zero negative precision
  else
    let shift : Int := (precision : Int) + 2 + bitLength den - bitLength num
    let scaledNum := if shift ≥ 0 then num <<< shift.toNat else num
    let scaledDen := if shift ≥ 0 then den else den <<< (-shift).toNat
    rounded negative (scaledNum / scaledDen) (-shift) precision (scaledNum % scaledDen != 0)

/-- The number with another precision, rounded if it has to be. -/
def withPrecision (b : Binary) (precision : Nat) : Binary :=
  rounded b.negative b.mantissa b.exponent precision false

/-- The signed mantissas of two numbers for the lesser exponent of both. -/
def aligned (a b : Binary) : Int × Int × Int :=
  let e := min a.exponent b.exponent
  let scaled (c : Binary) : Int :=
    let n : Int := c.mantissa <<< (c.exponent - e).toNat
    if c.negative then -n else n
  (scaled a, scaled b, e)

/-- The sum. Opposite values add up to positive zero. -/
def add (a b : Binary) : Binary :=
  let precision := max a.precision b.precision
  if a.isZero && b.isZero then zero (a.negative && b.negative) precision
  else if a.isZero then b.withPrecision precision
  else if b.isZero then a.withPrecision precision
  else
    let (x, y, e) := aligned a b
    let s := x + y
    rounded (s < 0) s.natAbs e precision false

/-- The number with the other sign. -/
def neg (b : Binary) : Binary := { b with negative := !b.negative }

/-- The product, kept exact as long as it needs no more bits than a product
may have, and never less precise than the more precise factor. -/
def mul (a b : Binary) : Binary :=
  let exact := rounded (a.negative != b.negative) (a.mantissa * b.mantissa)
    (a.exponent + b.exponent) 512 false
  let precision := max (max a.precision b.precision) (bitLength exact.mantissa)
  { exact with precision }

/-- The quotient by a number other than zero. -/
def div (a b : Binary) : Binary :=
  let precision := max a.precision b.precision
  let e := a.exponent - b.exponent
  let q := ofRatio (a.negative != b.negative) a.mantissa b.mantissa precision
  if q.isZero then q else { q with exponent := q.exponent + e }

/-- The order of two numbers; zeros of either sign are equal. -/
def compare (a b : Binary) : Ordering :=
  let (x, y, _) := aligned a b
  Ord.compare x y

/-- The whole part. -/
def truncate (b : Binary) : Int :=
  let n : Int := if b.exponent ≥ 0 then b.mantissa <<< b.exponent.toNat
    else b.mantissa >>> (-b.exponent).toNat
  if b.negative then -n else n

/-- Whether the number is whole. -/
def isWhole (b : Binary) : Bool := b.isZero || b.exponent ≥ 0

end Binary

namespace Number

/-- The precision of numbers that are read. -/
def readPrecision : Nat := 512

/-- A whole number, held to 64 bits. -/
def ofInt (n : Int) : Number := finite (Binary.normal (n < 0) n.natAbs 0 64)

/-- Whether the number is infinite. -/
def isInfinite : Number → Bool
  | infinite _ => true
  | finite _ => false

/-- The number with the other sign. -/
def neg : Number → Number
  | finite b => finite b.neg
  | infinite s => infinite (!s)

/-- The sum, unless the summands are opposite infinities. -/
def add? : Number → Number → Option Number
  | finite a, finite b => some (finite (a.add b))
  | infinite s, infinite t => if s == t then some (infinite s) else none
  | infinite s, finite _ => some (infinite s)
  | finite _, infinite t => some (infinite t)

/-- The difference. -/
def sub? (a b : Number) : Option Number := a.add? b.neg

/-- The product, unless zero meets an infinity. -/
def mul? : Number → Number → Option Number
  | finite a, finite b => some (finite (a.mul b))
  | infinite s, infinite t => some (infinite (s != t))
  | infinite s, finite b => if b.isZero then none else some (infinite (s != b.negative))
  | finite a, infinite t => if a.isZero then none else some (infinite (a.negative != t))

/-- The quotient; a number other than zero divided by zero is infinite. There
is none for two zeros and for two infinities. -/
def div? : Number → Number → Option Number
  | finite a, finite b =>
    if b.isZero then
      if a.isZero then none else some (infinite (a.negative != b.negative))
    else some (finite (a.div b))
  | infinite _, infinite _ => none
  | infinite s, finite b => some (infinite (s != b.negative))
  | finite a, infinite t => some (finite (Binary.zero (a.negative != t) a.precision))

/-- The remainder of the division that rounds toward zero, held to the
precision of the dividend. Zero as the divisor leaves the dividend as it
is. -/
def mod? : Number → Number → Option Number
  | finite a, finite b =>
    if b.isZero then some (finite a)
    else
      let q := (a.div b).truncate
      let whole := Binary.rounded (q < 0) q.natAbs 0 a.precision false
      let product := Binary.rounded (b.negative != whole.negative)
        (b.mantissa * whole.mantissa) (b.exponent + whole.exponent) a.precision false
      some (finite ((a.add product.neg).withPrecision a.precision))
  | a, b => a.mul? b

/-- The order of two numbers. -/
def compare : Number → Number → Ordering
  | finite a, finite b => a.compare b
  | infinite s, infinite t => if s == t then .eq else if s then .lt else .gt
  | infinite s, finite _ => if s then .lt else .gt
  | finite _, infinite t => if t then .gt else .lt

/-- Whether two numbers have the same value. -/
def same (a b : Number) : Bool := a.compare b == .eq

/-- The value, if it is a whole number. -/
def toInt? : Number → Option Int
  | finite b => if b.isWhole then some b.truncate else none
  | infinite _ => none

end Number

end SolidityCanvas
