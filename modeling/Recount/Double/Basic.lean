import Recount.Power

/-!
# Binary double precision numbers

A double is kept as its 64 bits, so that equality of doubles is equality of their
representations. Its finite value is `mantissa * 2 ^ exponent` with the sign of its top bit.
-/

namespace Recount

/-- A number of the binary64 format. -/
structure Double where
  bits : UInt64
deriving DecidableEq, Repr, Inhabited

namespace Double

/-- The bits of a machine number. -/
def ofFloat (x : Float) : Double := ⟨x.toBits⟩

/-- The machine number with these bits. -/
def toFloat (x : Double) : Float := Float.ofBits x.bits

/-- The sign bit is set. -/
def signBit (x : Double) : Bool := 2 ^ 63 ≤ x.bits.toNat

/-- The eleven exponent bits. -/
def exponentBits (x : Double) : Nat := x.bits.toNat / 2 ^ 52 % 2 ^ 11

/-- The fifty-two fraction bits. -/
def fractionBits (x : Double) : Nat := x.bits.toNat % 2 ^ 52

/-- Neither infinite nor a NaN. -/
def isFinite (x : Double) : Bool := x.exponentBits < 2047

/-- Not a number. -/
def isNaN (x : Double) : Bool := x.exponentBits == 2047 && x.fractionBits != 0

/-- The integer mantissa of a finite double. -/
def mantissa (x : Double) : Nat :=
  if x.exponentBits = 0 then x.fractionBits else 2 ^ 52 + x.fractionBits

/-- The power of two that the mantissa is multiplied with. -/
def exponent (x : Double) : Int := (max x.exponentBits 1 : Nat) - 1075

/-- The negated number. -/
def neg (x : Double) : Double := ofFloat (-x.toFloat)

/-- The double nearest to a natural number below `2 ^ 64`. -/
def ofNat (n : Nat) : Double := ofFloat (UInt64.ofNat n).toFloat

/-- The double nearest to a power of ten, for exponents up to 308. -/
def tenPow (exponent : Nat) : Float := Float.ofScientific 1 false exponent

/-- The number with the given decimal digits and exponent, computed with at most two roundings per
step: the digits become a double, which is then multiplied or divided by a power of ten; exponents
below -308 are divided out in blocks. There is none if the number is too large. -/
def scaled? (digits : Nat) (exponent : Int) : Option Double :=
  let x := (UInt64.ofNat digits).toFloat
  if 0 ≤ exponent then
    if exponent ≤ 308 then
      let y := x * tenPow exponent.toNat
      if (ofFloat y).isFinite then some (ofFloat y) else none
    else if digits = 0 then some (ofFloat x) else none
  else if -308 ≤ exponent then some (ofFloat (x / tenPow (-exponent).toNat))
  else if -616 ≤ exponent then some (ofFloat (x / tenPow 308 / tenPow (-exponent - 308).toNat))
  else some (ofFloat 0)

end Double
end Recount
