import Recount.Double.Basic

/-!
# Shortest decimal digits

The fewest decimal digits that read back as a given double. The reals that round to a double form
an interval around it; for one digit, two digits and so on, the two neighbours of the double on
that decimal grid are tested for membership, and the first grid with a hit wins.
-/

namespace Recount.Double

/-- A positive decimal number: its digits, and how many of them stand before the point (a count
that may be negative, for zeros after the point, or exceed the number of digits). -/
structure Digits where
  digits : List Char
  point : Int

/-- A fraction that is compared by cross multiplication. -/
structure Fraction where
  num : Nat
  den : Nat

/-- `m * 2 ^ e` as a fraction. -/
def Fraction.ofBinary (m : Nat) (e : Int) : Fraction :=
  if 0 ≤ e then ⟨m * 2 ^ e.toNat, 1⟩ else ⟨m, 2 ^ (-e).toNat⟩

/-- `d * 10 ^ e` as a fraction. -/
def Fraction.ofDecimal (d : Nat) (e : Int) : Fraction :=
  if 0 ≤ e then ⟨d * 10 ^ e.toNat, 1⟩ else ⟨d, 10 ^ (-e).toNat⟩

/-- The order of the fractions' values. -/
def Fraction.le (x y : Fraction) : Bool := x.num * y.den ≤ y.num * x.den

/-- The strict order of the fractions' values. -/
def Fraction.lt (x y : Fraction) : Bool := x.num * y.den < y.num * x.den

/-- The interval of the reals that round to a positive double. -/
structure Interval where
  low : Fraction
  high : Fraction
  /-- The ends belong to the interval. -/
  closed : Bool

/-- Half a unit to each side, a quarter below a power of two. The ends round to the even mantissa. -/
def interval (x : Double) : Interval :=
  let m := x.mantissa
  let below := if m = 2 ^ 52 && 1 < x.exponentBits then 4 * m - 1 else 4 * m - 2
  { low := .ofBinary below (x.exponent - 2)
    high := .ofBinary (4 * m + 2) (x.exponent - 2)
    closed := m % 2 == 0 }

/-- Membership in the interval. -/
def Interval.holds (i : Interval) (x : Fraction) : Bool :=
  if i.closed then i.low.le x && x.le i.high else i.low.lt x && x.lt i.high

/-- The number of decimal digits before the point of a fraction of at least one; below one, minus
the number of zeros after the point. The search goes down from `start` for so many steps. -/
def pointOf (x : Fraction) (start : Int) : Nat → Int
  | 0 => start
  | steps + 1 =>
    if (Fraction.ofDecimal 1 (start - 1)).le x then start else pointOf x (start - 1) steps

/-- The neighbour of `x` on the grid of multiples of `10 ^ unit` that lies in the interval: of two
the nearer, of two equally near the even one. -/
def neighbour? (x : Fraction) (i : Interval) (unit : Int) : Option Nat :=
  let quotient :=
    if 0 ≤ unit then x.num / (x.den * 10 ^ unit.toNat) else x.num * 10 ^ (-unit).toNat / x.den
  let below := Fraction.ofDecimal quotient unit
  let above := Fraction.ofDecimal (quotient + 1) unit
  let hasBelow := quotient != 0 && i.holds below
  let hasAbove := i.holds above
  if hasBelow && hasAbove then
    let middle := Fraction.ofDecimal (10 * quotient + 5) (unit - 1)
    if x.lt middle then some quotient
    else if middle.lt x then some (quotient + 1)
    else some (if quotient % 2 = 0 then quotient else quotient + 1)
  else if hasBelow then some quotient
  else if hasAbove then some (quotient + 1)
  else none

/-- The digits of a coefficient on the grid of `10 ^ unit`, without zeros at the end. -/
def Digits.ofGrid (coeff : Nat) (unit : Int) : Digits :=
  let all := Nat.toDigits 10 coeff
  { digits := (all.reverse.dropWhile (· == '0')).reverse, point := all.length + unit }

/-- The shortest digits of a positive finite double. -/
def shortest (x : Double) : Digits :=
  let value := Fraction.ofBinary x.mantissa x.exponent
  let i := x.interval
  let point := pointOf value 310 640
  let grids := (List.range 18).map fun (count : Nat) => point - count
  match grids.findSome? fun unit => (neighbour? value i unit).map fun coeff => (coeff, unit) with
  | some (coeff, unit) => .ofGrid coeff unit
  | none => .ofGrid x.mantissa 0

/-- The digits with the point among them, and with zeros where there are none. -/
def Digits.positional (d : Digits) : List Char :=
  if d.point ≤ 0 then '0' :: '.' :: (List.replicate (-d.point).toNat '0' ++ d.digits)
  else
    let whole := d.point.toNat
    if d.digits.length ≤ whole then d.digits ++ List.replicate (whole - d.digits.length) '0'
    else d.digits.take whole ++ '.' :: d.digits.drop whole

/-- The digits with the point after the first one, and the exponent with its sign. -/
def Digits.scientific (d : Digits) : List Char :=
  let exponent := d.point - 1
  let mantissa := match d.digits with
    | [] => ['0']
    | [digit] => [digit]
    | digit :: rest => digit :: '.' :: rest
  let sign := if exponent < 0 then '-' else '+'
  mantissa ++ 'e' :: sign :: Nat.toDigits 10 exponent.natAbs

/-- The sign of a double as text. -/
def sign (x : Double) : List Char := if x.signBit then ['-'] else []

/-- A double without exponent: all its digits up to the point, and no point in an integer. -/
def plain (x : Double) : String :=
  if x.isNaN then "NaN"
  else if !x.isFinite then String.ofList (x.sign ++ "inf".toList)
  else if x.mantissa = 0 then String.ofList (x.sign ++ ['0'])
  else String.ofList (x.sign ++ x.shortest.positional)

/-- A finite double that is told apart from an integer: with a point or an exponent. The exponent
is written below `1e-5` and from `1e+16`. -/
def marked (x : Double) : String :=
  if x.mantissa = 0 then String.ofList (x.sign ++ "0.0".toList)
  else
    let d := x.shortest
    let body :=
      if -5 < d.point && d.point ≤ 16 then
        let text := d.positional
        if text.contains '.' then text else text ++ ['.', '0']
      else d.scientific
    String.ofList (x.sign ++ body)

end Recount.Double
