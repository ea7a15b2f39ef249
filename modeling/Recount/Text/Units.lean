/-!
# Text in units of sixteen bits

A character of the basic plane is one unit, any other is a pair of units. Bytes that begin with a
byte order mark for such units are read in that order.
-/

namespace Recount.Text

/-- The unit may be the first one of a pair. -/
def isHighUnit (unit : Nat) : Bool := 0xD800 ≤ unit && unit ≤ 0xDBFF

/-- The unit may be the second one of a pair. -/
def isLowUnit (unit : Nat) : Bool := 0xDC00 ≤ unit && unit ≤ 0xDFFF

/-- The character in the place of something that is none. -/
def replacement : Char := '\ufffd'

/-- The character that a single unit is. -/
def ofUnit (unit : Nat) : Char :=
  if isHighUnit unit || isLowUnit unit then replacement else Char.ofNat unit

/-- The characters of units; half a pair is replaced. -/
def ofUnits : List Nat → List Char
  | high :: low :: rest =>
    if isHighUnit high && isLowUnit low then
      Char.ofNat (0x10000 + (high - 0xD800) * 0x400 + (low - 0xDC00)) :: ofUnits rest
    else ofUnit high :: ofUnits (low :: rest)
  | [unit] => [ofUnit unit]
  | [] => []

/-- The units of pairs of bytes, in their order; half a unit is one that is no character. -/
def units (toUnit : Nat → Nat → Nat) : List UInt8 → List Nat
  | a :: b :: rest => toUnit a.toNat b.toNat :: units toUnit rest
  | [_] => [0xD800]
  | [] => []

/-- The text of bytes, in the encoding that a byte order mark names, and otherwise in UTF-8. Bytes
that are no text are replaced as a whole. -/
def ofMarked (bytes : ByteArray) : String :=
  match bytes.data.toList with
  | 0xFF :: 0xFE :: rest => String.ofList (ofUnits (units (fun a b => b * 256 + a) rest))
  | 0xFE :: 0xFF :: rest => String.ofList (ofUnits (units (fun a b => a * 256 + b) rest))
  | _ =>
    match (String.fromUTF8? bytes).map String.toList with
    | some ('\ufeff' :: cs) => String.ofList cs
    | some cs => String.ofList cs
    | none => String.singleton replacement

end Recount.Text
