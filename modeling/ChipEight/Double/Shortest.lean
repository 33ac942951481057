import ChipEight.Double

/-!
# The shortest decimal of a double

Of all decimals that are read back as a given double, the shortest one has the fewest
digits, and of several with as few the one nearest to the double. It is found on grids:
the multiples of a power of ten, from coarse to fine. The first grid that has a point
among the numbers that round to the double holds the answer, and that point is one of the
double's two neighbours on the grid.

All comparisons are of whole numbers, so nothing is rounded on the way.
-/

namespace ChipEight.Double

/-! ## Rounding intervals -/

/-- The numbers that round to a double, on a scale on which their ends are whole. -/
structure Interval where
  /-- The lower end. -/
  low : Nat
  /-- The double itself. -/
  value : Nat
  /-- The upper end. -/
  high : Nat
  /-- One on this scale. -/
  unit : Nat
  /-- Whether the ends round to the double too. -/
  closed : Bool
  deriving DecidableEq, Repr

/-- The interval of a finite double other than zero, without its sign. Its ends are half a
step away, but below a power of two steps are half as wide. -/
def intervalOf (x : Float) : Interval :=
  let (m, e) := parts x
  let scale := twoTo (e - 2)
  let below := if m = leastFull ∧ leastExponent < e then 1 else 2
  { low := (4 * m - below) * scale
    value := 4 * m * scale
    high := (4 * m + 2) * scale
    unit := twoTo (2 - e)
    closed := m % 2 == 0 }

namespace Interval

/-- Whether `c / d` on the scale of the interval lies in it. -/
def contains (i : Interval) (c d : Nat) : Bool :=
  if i.closed then decide (i.low * d ≤ c ∧ c ≤ i.high * d)
  else decide (i.low * d < c ∧ c < i.high * d)

/-- The number whose multiple of `10 ^ p` is in the interval and nearest to the double, a
tie going to the even number. -/
def gridPoint? (i : Interval) (p : Int) : Option Nat :=
  let step := i.unit * tenTo p
  let d := tenTo (-p)
  let c := i.value * d / step
  match i.contains (c * step) d, i.contains ((c + 1) * step) d with
  | true, true => some (roundDiv (i.value * d) step)
  | true, false => some c
  | false, true => some (c + 1)
  | false, false => none

end Interval

/-! ## Decimals -/

/-- The number `digits * 10 ^ exponent`. -/
structure Decimal where
  /-- All digits as one number. -/
  digits : Nat
  /-- The power of ten that the last digit counts. -/
  exponent : Int
  deriving DecidableEq, Repr

/-- The first of `count` grids from `10 ^ p` downwards that has a point in an interval, with
that point. -/
def searchGrids (i : Interval) : Nat → Int → Decimal
  | 0, p => ⟨i.value * tenTo (-p) / (i.unit * tenTo p), p⟩
  | count + 1, p =>
    match i.gridPoint? p with
    | some c => ⟨c, p⟩
    | none => searchGrids i count (p - 1)

/-- A power of ten that is beyond a double. A thousand bits make 301.03 digits. -/
def beyond (x : Float) : Int :=
  let (m, e) := parts x
  (e + m.log2 + 1) * 30103 / 100000 + 2

/-- The shortest decimal of a finite double other than zero, without its sign. Seventeen
digits are always enough. -/
def shortest (x : Float) : Decimal := searchGrids (intervalOf x) 22 (beyond x)

/-! ## Notation -/

namespace Decimal

/-- Positional notation; `point` digits stand before the point. -/
def positional (ds : List Char) (point : Int) : List Char :=
  let front := List.replicate (1 - point).toNat '0'
  let back := List.replicate (point - ds.length).toNat '0'
  let whole := (front ++ ds ++ back).take (max point 1).toNat
  let places := (front ++ ds ++ back).drop (max point 1).toNat
  whole ++ '.' :: if places.isEmpty then ['0'] else places

/-- Scientific notation: a digit before the point, and an exponent with a sign and at least
two digits. -/
def scientific (ds : List Char) (exponent : Int) : List Char :=
  let size := Nat.toDigits 10 exponent.natAbs
  let size := if size.length < 2 then '0' :: size else size
  let sign := if exponent < 0 then '-' else '+'
  match ds with
  | [] => []
  | [d] => d :: 'e' :: sign :: size
  | d :: more => d :: '.' :: more ++ 'e' :: sign :: size

/-- Numbers from `0.0001` up to `10 ^ 16` are written in positional notation, all others in
scientific notation. -/
def text (d : Decimal) : String :=
  let ds := Nat.toDigits 10 d.digits
  let point := ds.length + d.exponent
  String.ofList
    (if -4 < point ∧ point ≤ 16 then positional ds point else scientific ds (point - 1))

end Decimal

/-- A double in the fewest digits that are read back as it. -/
def text (x : Float) : String :=
  textOr x fun _ => if isZero x then "0.0" else (shortest x).text

end ChipEight.Double
