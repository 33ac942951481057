/-!
# Numbers in double precision

Conversions between exact numbers and doubles, each rounded to the nearest value and,
half-way between two, to the even one: quotients, integers and decimals become doubles,
and doubles become decimals with a fixed number of places.

A finite double without its sign is a significand times a power of two. Its bits are a
number as well, and of two doubles the larger one has the larger bits.
-/

namespace ChipEight.Double

/-! ## Rounding -/

/-- `num / den` rounded to the nearest integer, a half to the even one. -/
def roundDiv (num den : Nat) : Nat :=
  let q := num / den
  let r := num % den
  if 2 * r < den ∨ (2 * r = den ∧ q % 2 = 0) then q else q + 1

/-! ## The bits of a double -/

/-- Bits of a significand. -/
abbrev precision : Nat := 53

/-- The least number that fills a significand. -/
abbrev leastFull : Nat := Nat.pow 2 (precision - 1)

abbrev leastExponent : Int := -1074

/-- The bits of infinity, which are beyond those of all finite doubles. -/
abbrev infinityBits : Nat := 2047 * leastFull

/-- The bits of `m * 2 ^ e`, for a significand that is full or has the least exponent. The
sum carries into the exponent, so the significand may be rounded up to one bit more. -/
def bitsOf (m : Nat) (e : Int) : Nat := (e - leastExponent).toNat * leastFull + m

/-- The significand and exponent of a finite double without its sign. -/
def parts (x : Float) : Nat × Int :=
  let bits := x.toBits.toNat
  let e : Nat := bits / leastFull % 2048
  let f : Nat := bits % leastFull
  if e = 0 then (f, leastExponent) else (f + leastFull, leastExponent + e - 1)

/-- Whether the sign of a double is a minus. -/
def isNegative (x : Float) : Bool := decide (0x8000000000000000 ≤ x.toBits)

/-- Whether a double is zero, of either sign. -/
def isZero (x : Float) : Bool := x.toBits <<< 1 == 0

/-! ## Exact numbers as doubles -/

/-- Two to the power of `e`, or one if `e` is negative. -/
def twoTo (e : Int) : Nat := Nat.pow 2 e.toNat

/-- Ten to the power of `e`, or one if `e` is negative. -/
def tenTo (e : Int) : Nat := Nat.pow 10 e.toNat

/-- The exponent with which the significand of `num / den` is full, or the least one. -/
def exponentOf (num den : Nat) : Int :=
  let e : Int := (num.log2 : Int) - den.log2 - (precision - 1 : Nat)
  let e := if num * twoTo (-e) < leastFull * den * twoTo e then e - 1 else e
  max e leastExponent

/-- The bits of the double nearest to `num / den`. Those from `infinityBits` on stand for
numbers beyond all doubles. -/
def nearestBits (num den : Nat) : Nat :=
  if num = 0 then 0
  else
    let e := exponentOf num den
    bitsOf (roundDiv (num * twoTo (-e)) (den * twoTo e)) e

/-- The double nearest to a number, unless it is beyond all of them. -/
def ofNat? (n : Nat) : Option Float :=
  let bits := nearestBits n 1
  if bits < infinityBits then some (Float.ofBits (UInt64.ofNat bits)) else none

/-- The bits of the double nearest to `digits * 10 ^ exponent`. Exponents that are far
outside the range of doubles are told apart without computing the power. -/
def decimalBits (digits : Nat) (exponent : Int) : Nat :=
  if digits = 0 ∨ exponent < -((digits.log2 : Int) + 400) then 0
  else if 400 < exponent then infinityBits
  else min infinityBits (nearestBits (digits * tenTo exponent) (tenTo (-exponent)))

/-- The double with the given sign and bits. -/
def withSign (minus : Bool) (bits : Nat) : Float :=
  Float.ofBits ((if minus then 0x8000000000000000 else 0) ||| UInt64.ofNat bits)

/-- The double nearest to a decimal; those beyond all doubles become infinite. -/
def ofDecimal (minus : Bool) (digits : Nat) (exponent : Int) : Float :=
  withSign minus (decimalBits digits exponent)

/-- The infinite double with a given sign. -/
def infinity (minus : Bool) : Float := withSign minus infinityBits

/-- The double that is no number. -/
def notANumber : Float := withSign false (infinityBits + leastFull / 2)

/-! ## Doubles as decimals -/

/-- The absolute value of a finite double in units of `1 / scale`, rounded. -/
def scaled (x : Float) (scale : Nat) : Nat :=
  let (m, e) := parts x
  roundDiv (m * twoTo e * scale) (twoTo (-e))

/-- The text of a double that is infinite or no number, or else its sign in front of what
`finite` makes of it. -/
def textOr (x : Float) (finite : Unit → String) : String :=
  if x.isNaN then "nan"
  else (if isNegative x then "-" else "") ++ if x.isInf then "inf" else finite ()

/-- A double with a fixed number of decimal places. -/
def fixed (places : Nat) (x : Float) : String :=
  textOr x fun _ =>
    let ds := Nat.toDigits 10 (scaled x (Nat.pow 10 places))
    let ds := List.replicate (places + 1 - ds.length) '0' ++ ds
    let whole := ds.take (ds.length - places)
    let fraction := ds.drop (ds.length - places)
    String.ofList (if places = 0 then whole else whole ++ '.' :: fraction)

end ChipEight.Double
