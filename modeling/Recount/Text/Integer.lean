import Recount.Power
import Recount.Text.Trim

/-!
# Integers in text

Decimal numerals of integers within bounds: digits after an optional sign, and nothing else. A
numeral is read from the left, so of two faults the one further left is reported.
-/

namespace Recount.Text

/-- Why a text is not an integer within its bounds. -/
inductive IntegerFault where
  | empty
  | invalidDigit
  | tooLarge
  | tooSmall
deriving DecidableEq, Repr

/-- The wording of a fault. -/
def IntegerFault.message : IntegerFault → String
  | empty => "cannot parse integer from empty string"
  | invalidDigit => "invalid digit found in string"
  | tooLarge => "number too large to fit in target type"
  | tooSmall => "number too small to fit in target type"

/-- Reads digits as a number of at most `bound` after those that make `value`. -/
def readDigits (bound : Nat) (excess : IntegerFault) (value : Nat) :
    List Char → Except IntegerFault Nat
  | [] => .ok value
  | c :: cs =>
    if c.isDigit then
      let next := value * 10 + (c.toNat - 48)
      if bound < next then .error excess else readDigits bound excess next cs
    else .error .invalidDigit

/-- Reads an integer of at least `-low` and at most `high`. Where `low` is zero there is no minus
sign. -/
def readInteger (low high : Nat) (s : String) : Except IntegerFault Int :=
  match s.toList with
  | [] => .error .empty
  | '+' :: [] => .error .invalidDigit
  | '-' :: [] => .error .invalidDigit
  | '+' :: digits => (readDigits high .tooLarge 0 digits).map Int.ofNat
  | '-' :: digits =>
    if low = 0 then .error .invalidDigit
    else (readDigits low .tooSmall 0 digits).map fun n => -(n : Int)
  | digits => (readDigits high .tooLarge 0 digits).map Int.ofNat

/-- Reads an integer of 32 bits with sign. -/
def int32? (s : String) : Option Int := (readInteger (2 ^ 31) (2 ^ 31 - 1) s).toOption

/-- Reads a natural number of so many bits. -/
def readNat (bits : Nat) (s : String) : Except IntegerFault Nat :=
  (readInteger 0 (2 ^ bits - 1) s).map Int.toNat

end Recount.Text
