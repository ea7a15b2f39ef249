import Recount.Decimal.Basic

/-!
# Arithmetic on decimal quantities

Sums and products are exact as long as they fit and are otherwise rounded half to even to the most
places that fit. A quotient is computed digit group by digit group until it is exact or full.
An operation whose result does not fit without decimal places fails with its `Overflow`.
-/

namespace Recount.Decimal

/-- The sum. A zero operand leaves the other one as it is, whatever their scales. -/
def add (d e : Decimal) : Except Overflow Decimal :=
  if d.isZero then .ok e
  else if e.isZero then .ok d
  else
    let scale := max d.scale e.scale
    match fit? (d.coeffAt scale + e.coeffAt scale) scale with
    | some sum => .ok sum
    | none => .error .addition

/-- The difference. A zero subtrahend leaves the minuend as it is, and of two zeros the second one
stays. -/
def sub (d e : Decimal) : Except Overflow Decimal :=
  if d.isZero then .ok e.neg
  else if e.isZero then .ok d
  else
    let scale := max d.scale e.scale
    match fit? (d.coeffAt scale - e.coeffAt scale) scale with
    | some difference => .ok difference
    | none => .error .subtraction

/-- The product. A zero factor gives zero without decimal places. -/
def mul (d e : Decimal) : Except Overflow Decimal :=
  if d.isZero || e.isZero then .ok zero
  else match fit? (d.coeff * e.coeff) (d.scale + e.scale) with
    | some product => .ok product
    | none => .error .multiplication

/-- A quotient of sizes: the number `coeff / 10 ^ scale`, whose scale may still be negative. -/
structure Quotient where
  coeff : Nat
  scale : Int
  /-- A remainder occurred, so zeros at the end are removed. -/
  inexact : Bool

/-- A coefficient one place too long loses its last digit, half to even; the digits that follow
it break a tie upwards. -/
def Quotient.shorten (coeff : Nat) (scale : Int) (more : Bool) (inexact : Bool) :
    Except Overflow Quotient :=
  if scale < 1 then .error .division
  else
    let last := coeff % 10
    let kept := coeff / 10
    let up := last > 5 || (last == 5 && (more || kept % 2 == 1))
    .ok ⟨if up then kept + 1 else kept, scale - 1, inexact⟩

/-- The largest group of at most nine digits by which a coefficient can still grow. -/
def growth (coeff : Nat) (scale : Int) : Nat :=
  ((List.range 10).reverse.find? fun (digits : Nat) =>
    scale + (digits : Int) ≤ maxScale && coeff * 10 ^ digits < coeffBound).getD 0

/-- Extends a quotient by groups of digits while a remainder is left or its scale is negative. A
group of no digits ends the division: the quotient is full and is rounded half to even. -/
def extend (divisor coeff remainder : Nat) (scale : Int) (inexact : Bool) :
    Except Overflow Quotient :=
  if remainder = 0 ∧ 0 ≤ scale then .ok ⟨coeff, scale, inexact⟩
  else
    let inexact := inexact || remainder != 0
    let digits := if remainder = 0 then min 9 (-scale).toNat else growth coeff scale
    if _hfull : digits = 0 ∨ maxScale < scale + digits then
      if scale < 0 then .error .division
      else if divisor < 2 * remainder || (divisor == 2 * remainder && coeff % 2 == 1) then
        if coeff + 1 < coeffBound then .ok ⟨coeff + 1, scale, inexact⟩
        else Quotient.shorten (coeff + 1) scale true inexact
      else .ok ⟨coeff, scale, inexact⟩
    else
      let next := coeff * 10 ^ digits + remainder * 10 ^ digits / divisor
      let rest := remainder * 10 ^ digits % divisor
      let scale := scale + digits
      if next < coeffBound then extend divisor next rest scale inexact
      else Quotient.shorten next scale (rest != 0) inexact
termination_by (maxScale - scale).toNat
decreasing_by omega

/-- Removes a block of zeros from the end of a coefficient, if the scale reaches that far. -/
def Quotient.dropZeros (mask digits : Nat) (q : Quotient) : Quotient :=
  if q.coeff % mask == 0 && digits ≤ q.scale && q.coeff % 10 ^ digits == 0 then
    { q with coeff := q.coeff / 10 ^ digits, scale := q.scale - digits }
  else q

/-- Removes zeros from the end of an inexact quotient: eight at a time while the low 32 bits are
clear, then four, two and one. -/
def Quotient.dropTrailingZeros (q : Quotient) : Quotient :=
  let q := (List.range 3).foldl (fun q _ => q.dropZeros (2 ^ 32) 8) q
  ((q.dropZeros 16 4).dropZeros 4 2).dropZeros 2 1

/-- The quotient by a number that is not zero; a zero dividend gives zero without places. -/
def div (d e : Decimal) : Except Overflow Decimal :=
  if d.isZero || e.isZero then .ok zero
  else
    let scale : Int := d.scale - e.scale
    match extend e.digits (d.digits / e.digits) (d.digits % e.digits) scale false with
    | .error overflow => .error overflow
    | .ok quotient =>
      let quotient := if quotient.inexact then quotient.dropTrailingZeros else quotient
      let coeff : Int := if d.minus != e.minus then -quotient.coeff else quotient.coeff
      match ofParts? coeff quotient.scale.toNat with
      | some result => .ok result
      | none => .error .division

example : (mul ⟨false, 15, 1, by decide, by decide⟩ hundred).toOption.map (·.coeff) = some 1500 := by
  decide

end Recount.Decimal
