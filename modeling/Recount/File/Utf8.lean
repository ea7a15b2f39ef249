/-!
# Faults of encoded text

Bytes that are not text in the encoding UTF-8 have a first fault: a sequence that breaks off at
the end of the bytes, or one whose first one to three bytes cannot be continued as they are.
-/

namespace Recount.Utf8

/-- The first fault of some bytes. -/
inductive Fault where
  /-- So many bytes at an offset begin no character. -/
  | invalid (offset length : Nat)
  /-- The last character is not complete. -/
  | incomplete (offset : Nat)
deriving DecidableEq, Repr

/-- The wording of a fault. -/
def Fault.message : Fault → String
  | invalid offset length => "invalid utf-8 sequence of " ++ toString length ++
      " bytes from index " ++ toString offset
  | incomplete offset => "incomplete utf-8 byte sequence from index " ++ toString offset

/-- How many bytes a character with this first byte has, and the bounds of its second byte. -/
def shape? (first : UInt8) : Option (Nat × UInt8 × UInt8) :=
  if first < 0x80 then some (1, 0, 0)
  else if first < 0xC2 then none
  else if first < 0xE0 then some (2, 0x80, 0xBF)
  else if first = 0xE0 then some (3, 0xA0, 0xBF)
  else if first = 0xED then some (3, 0x80, 0x9F)
  else if first < 0xF0 then some (3, 0x80, 0xBF)
  else if first = 0xF0 then some (4, 0x90, 0xBF)
  else if first < 0xF4 then some (4, 0x80, 0xBF)
  else if first = 0xF4 then some (4, 0x80, 0x8F)
  else none

/-- The fault of a character whose first `read` bytes at `offset` are good; `low` and `high` bound
the next byte, and so many more are due. -/
def restFault? (offset read : Nat) (low high : UInt8) : Nat → List UInt8 → Option Fault
  | 0, _ => none
  | _ + 1, [] => some (.incomplete offset)
  | due + 1, byte :: bytes =>
    if low ≤ byte && byte ≤ high then restFault? offset (read + 1) 0x80 0xBF due bytes
    else some (.invalid offset read)

/-- The first fault of the bytes from an offset on; `skip` bytes still belong to the character
that was read last. -/
def faultFrom? (offset : Nat) : Nat → List UInt8 → Option Fault
  | _, [] => none
  | skip + 1, _ :: bytes => faultFrom? (offset + 1) skip bytes
  | 0, first :: bytes =>
    match shape? first with
    | none => some (.invalid offset 1)
    | some (size, low, high) =>
      match restFault? offset 1 low high (size - 1) bytes with
      | some fault => some fault
      | none => faultFrom? (offset + 1) (size - 1) bytes

/-- The text of some bytes, or their first fault. -/
def decode (bytes : ByteArray) : Except Fault String :=
  match String.fromUTF8? bytes with
  | some s => .ok s
  | none => .error ((faultFrom? 0 0 bytes.data.toList).getD (.invalid 0 1))

end Recount.Utf8
