import Recount.Power

/-!
# Decimal quantities

A quantity is a sign, digits that make a natural number below `2 ^ 96`, and a scale of at most 28:
the number `coeff / 10 ^ scale`. The scale is part of the value, so `2.50` and `2.5` are two
quantities of one number, and a zero may have a minus. A result that needs more digits is rounded
to as many as fit.
-/

namespace Recount

/-- The bound that every coefficient stays below. -/
def Decimal.coeffBound : Nat := 2 ^ 96

/-- The greatest number of decimal places. -/
def Decimal.maxScale : Nat := 28

/-- A decimal number with its number of places. -/
structure Decimal where
  /-- The sign is a minus. -/
  minus : Bool
  /-- All digits, read as one natural number. -/
  digits : Nat
  /-- How many of the digits are decimal places. -/
  scale : Nat
  digits_lt : digits < Decimal.coeffBound
  scale_le : scale ≤ Decimal.maxScale
deriving DecidableEq, Repr

/-- The arithmetic operation whose result did not fit a quantity. -/
inductive Overflow where
  | addition
  | subtraction
  | multiplication
  | division
deriving DecidableEq, Repr

namespace Decimal

/-- The quantity with this sign, digits and scale, if there is one. -/
def ofSign? (minus : Bool) (digits scale : Nat) : Option Decimal :=
  if h : digits < coeffBound ∧ scale ≤ maxScale then some ⟨minus, digits, scale, h.1, h.2⟩ else none

/-- The quantity with this coefficient and scale, if there is one. A zero has no minus. -/
def ofParts? (coeff : Int) (scale : Nat) : Option Decimal :=
  ofSign? (decide (coeff < 0)) coeff.natAbs scale

/-- All digits with the sign, read as one integer. -/
def coeff (d : Decimal) : Int := if d.minus then -(d.digits : Int) else d.digits

/-- Nothing, without decimal places. -/
def zero : Decimal := ⟨false, 0, 0, by decide, by decide⟩

/-- The whole in percent. -/
def hundred : Decimal := ⟨false, 100, 0, by decide, by decide⟩

instance : Inhabited Decimal := ⟨zero⟩

/-- The number is zero, whatever its sign and scale. -/
def isZero (d : Decimal) : Bool := d.digits == 0

/-- The number is below zero. -/
def isNegative (d : Decimal) : Bool := d.minus && !d.isZero

/-- The quotient of two naturals, rounded to the nearest and on a tie to the even neighbour. -/
def divHalfEven (num den : Nat) : Nat :=
  let quotient := num / den
  let twice := 2 * (num % den)
  if den < twice || (twice == den && quotient % 2 == 1) then quotient + 1 else quotient

/-- `divHalfEven` of an integer's size, with the integer's sign. -/
def divHalfEvenInt (num : Int) (den : Nat) : Int :=
  if num < 0 then -(divHalfEven num.natAbs den : Int) else divHalfEven num.natAbs den

/-- The quantity nearest to `coeff / 10 ^ scale` that gives up the fewest places, a half going to
the even neighbour. There is none if the number does not even fit without decimal places. -/
def fit? (coeff : Int) (scale : Nat) : Option Decimal :=
  (List.range (scale + 1)).findSome? fun dropped =>
    ofParts? (divHalfEvenInt coeff (10 ^ dropped)) (scale - dropped)

/-- The negated number. A zero keeps its sign. -/
def neg (d : Decimal) : Decimal := if d.isZero then d else { d with minus := !d.minus }

/-- The coefficient that the number has at a scale no smaller than its own. -/
def coeffAt (d : Decimal) (scale : Nat) : Int := d.coeff * 10 ^ (scale - d.scale)

/-- Removes up to `scale` zeros from the end of a coefficient. -/
def stripZeros (coeff : Int) : Nat → Int × Nat
  | 0 => (coeff, 0)
  | scale + 1 => if coeff % 10 == 0 then stripZeros (coeff / 10) scale else (coeff, scale + 1)

/-- The same number without zeros at the end of its decimal places. -/
def normalize (d : Decimal) : Decimal :=
  let (coeff, scale) := stripZeros d.coeff d.scale
  (ofParts? coeff scale).getD d

/-- The number rounded half to even to so many places; one with fewer places is left alone. -/
def roundTo (places : Nat) (d : Decimal) : Decimal :=
  if d.scale ≤ places then d
  else (ofParts? (divHalfEvenInt d.coeff (10 ^ (d.scale - places))) places).getD d

/-- The integer that the number is, if it has no fraction. -/
def toInt? (d : Decimal) : Option Int :=
  if d.coeff % 10 ^ d.scale == 0 then some (d.coeff / 10 ^ d.scale) else none

/-- The number without decimal places, if it has no fraction. A zero keeps its sign. -/
def toWhole? (d : Decimal) : Option Decimal :=
  if d.digits % 10 ^ d.scale == 0 then ofSign? d.minus (d.digits / 10 ^ d.scale) 0 else none

/-- Two quantities denote one number. -/
def sameValue (d e : Decimal) : Bool := d.coeff * 10 ^ e.scale == e.coeff * 10 ^ d.scale

theorem ofParts?_eq_some {coeff : Int} {scale : Nat} {d : Decimal}
    (h : ofParts? coeff scale = some d) : d.coeff = coeff ∧ d.scale = scale := by
  unfold ofParts? ofSign? at h
  split at h
  · cases h
    refine ⟨?_, rfl⟩
    simp only [Decimal.coeff]
    by_cases hneg : coeff < 0
    · rw [if_pos (by simpa using hneg)]
      omega
    · rw [if_neg (by simpa using hneg)]
      omega
  · exact absurd h (by simp)

theorem ofSign?_self (d : Decimal) : ofSign? d.minus d.digits d.scale = some d := by
  simp [ofSign?, d.digits_lt, d.scale_le]

end Decimal
end Recount
