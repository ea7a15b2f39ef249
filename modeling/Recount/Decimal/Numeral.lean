import Recount.Decimal.Basic
import Recount.Text.Trim

/-!
# Decimal numerals

How quantities are written and read. A numeral is an optional sign and digits with at most one
point; underscores may stand after the first digit. Places beyond the capacity of a quantity are
cut off, and the first digit that is cut off decides the rounding, a half going away from zero. A
numeral may also be followed by an exponent.
-/

namespace Recount.Decimal

/-- The digits of a natural number, at least `width` of them. -/
def padded (width n : Nat) : List Char :=
  let digits := Nat.toDigits 10 n
  List.replicate (width - digits.length) '0' ++ digits

/-- The numeral of a quantity, with all its places. -/
def toNumeral (d : Decimal) : String :=
  let digits := padded (d.scale + 1) d.digits
  let whole := digits.take (digits.length - d.scale)
  let places := digits.drop (digits.length - d.scale)
  String.ofList ((if d.minus then ['-'] else []) ++ whole ++
    (if d.scale = 0 then [] else '.' :: places))

/-- The digits of a numeral read so far. -/
structure Reading where
  coeff : Nat := 0
  scale : Nat := 0
  /-- The point has been read. -/
  inPlaces : Bool := false
  /-- A digit has been read. -/
  hasDigit : Bool := false

/-- The value of an ASCII digit. -/
def digit? (c : Char) : Option Nat := if c.isDigit then some (c.toNat - 48) else none

/-- Ends a numeral at the first digit that no longer fits. Digits and underscores may follow. -/
def Reading.cutAt (r : Reading) (digit : Nat) (rest : List Char) : Option (Nat × Nat) :=
  if rest.any fun c => !c.isDigit && c != '_' then none
  else if digit < 5 then some (r.coeff, r.scale)
  else if r.coeff + 1 < coeffBound then some (r.coeff + 1, r.scale)
  else if r.scale = 0 then none
  else some ((r.coeff + 5) / 10, r.scale - 1)

/-- Reads the rest of an unsigned numeral as coefficient and scale. -/
def Reading.finish (r : Reading) : List Char → Option (Nat × Nat)
  | [] => if r.hasDigit then some (r.coeff, r.scale) else none
  | c :: rest =>
    match digit? c with
    | some digit =>
      let coeff := r.coeff * 10 + digit
      if r.inPlaces && (maxScale ≤ r.scale || coeffBound ≤ coeff) then r.cutAt digit rest
      else if coeffBound ≤ coeff then none
      else
        let scale := if r.inPlaces then r.scale + 1 else 0
        Reading.finish { r with coeff, scale, hasDigit := true } rest
    | none =>
      if c == '.' && !r.inPlaces then Reading.finish { r with inPlaces := true } rest
      else if c == '_' && r.hasDigit then Reading.finish r rest
      else none

/-- Reads a signed numeral without exponent. A zero has no minus. -/
def ofNumeralChars (cs : List Char) : Option Decimal :=
  let (minus, unsigned) :=
    match cs with
    | '-' :: rest => (true, rest)
    | '+' :: rest => (false, rest)
    | cs => (false, cs)
  (Reading.finish {} unsigned).bind fun (digits, scale) => ofSign? (minus && digits != 0) digits scale

/-- Reads a plain numeral. -/
def ofNumeral? (s : String) : Option Decimal := ofNumeralChars s.toList

/-- Reads an exponent: digits after an optional plus sign, with a value of at most 28. -/
def exponent? (cs : List Char) : Option Nat :=
  let digits := match cs with
    | '+' :: rest => rest
    | cs => cs
  if digits.isEmpty then none
  else
    let value := digits.foldl
      (fun value? c => value?.bind fun value => (digit? c).map (value * 10 + ·)) (some 0)
    value.bind fun value => if value ≤ maxScale then some value else none

/-- The number times a power of ten. -/
def scaleUp? (d : Decimal) (exponent : Nat) : Option Decimal :=
  if exponent ≤ d.scale then ofSign? d.minus d.digits (d.scale - exponent)
  else ofSign? d.minus (d.digits * 10 ^ (exponent - d.scale)) 0

/-- The number divided by a power of ten; places beyond the last are cut off, a half going away
from zero. What becomes zero keeps its sign. -/
def scaleDown? (d : Decimal) (exponent : Nat) : Option Decimal :=
  if d.scale + exponent ≤ maxScale then ofSign? d.minus d.digits (d.scale + exponent)
  else
    let unit := 10 ^ (d.scale + exponent - maxScale)
    ofSign? d.minus ((d.digits + unit / 2) / unit) maxScale

/-- Reads a numeral that is followed by an exponent. -/
def ofScientific? (s : String) : Option Decimal :=
  let cs := s.toList
  let base := cs.takeWhile fun c => c != 'e' && c != 'E'
  match cs.drop base.length with
  | [] => none
  | _ :: exponent =>
    (ofNumeralChars base).bind fun d =>
      match exponent with
      | '-' :: digits => (exponent? digits).bind d.scaleDown?
      | digits => (exponent? digits).bind d.scaleUp?

/-- Reads a numeral with or without exponent. -/
def ofText? (s : String) : Option Decimal := (ofNumeral? s).or (ofScientific? s)

end Recount.Decimal
