import Recount.Json.Printer
import Recount.Json.Reader
import Recount.Text.Trim

/-!
# Bytes as text

The two alphabets in which bytes are written: hexadecimal digits, and the base 64 alphabet that is
safe in addresses, without padding.
-/

namespace Recount.Bytes

/-- Two lower-case hexadecimal digits for each byte. -/
def toHex (bytes : ByteArray) : String :=
  String.ofList (bytes.data.toList.flatMap fun byte =>
    [Json.hexDigit (byte.toNat / 16), Json.hexDigit byte.toNat])

/-- The bytes of pairs of hexadecimal digits. -/
def ofHexDigits? : List Char → Option (List UInt8)
  | [] => some []
  | a :: b :: rest => do
    let high ← Json.hexValue? a
    let low ← Json.hexValue? b
    let bytes ← ofHexDigits? rest
    some (UInt8.ofNat (high * 16 + low) :: bytes)
  | [_] => none

/-- The six bits that a character of the address-safe alphabet stands for. -/
def sextet? (c : Char) : Option Nat :=
  if c.isUpper then some (c.toNat - 65)
  else if c.isLower then some (c.toNat - 71)
  else if c.isDigit then some (c.toNat + 4)
  else if c == '-' then some 62
  else if c == '_' then some 63
  else none

/-- The character that stands for six bits. -/
def sextetChar (n : Nat) : Char :=
  let n := n % 64
  if n < 26 then Char.ofNat (n + 65)
  else if n < 52 then Char.ofNat (n + 71)
  else if n < 62 then Char.ofNat (n - 4)
  else if n = 62 then '-'
  else '_'

/-- The bytes of groups of four characters. A last group of two or three characters stands for one
or two bytes, and its unused bits are zero. -/
def ofSextets? : List Nat → Option (List UInt8)
  | [] => some []
  | a :: b :: c :: d :: rest =>
    (ofSextets? rest).map fun bytes =>
      UInt8.ofNat (a * 4 + b / 16) :: UInt8.ofNat (b * 16 + c / 4) :: UInt8.ofNat (c * 64 + d)
        :: bytes
  | [a, b, c] =>
    if c % 4 = 0 then some [UInt8.ofNat (a * 4 + b / 16), UInt8.ofNat (b * 16 + c / 4)] else none
  | [a, b] => if b % 16 = 0 then some [UInt8.ofNat (a * 4 + b / 16)] else none
  | [_] => none

/-- Reads the base 64 text of bytes. -/
def ofBase64? (s : String) : Option ByteArray := do
  let sextets ← s.toList.mapM sextet?
  let bytes ← ofSextets? sextets
  some ⟨bytes.toArray⟩

/-- The characters for a list of bytes. -/
def base64Chars : List UInt8 → List Char
  | [] => []
  | a :: b :: c :: rest =>
    let n := a.toNat * 65536 + b.toNat * 256 + c.toNat
    sextetChar (n / 262144) :: sextetChar (n / 4096) :: sextetChar (n / 64) :: sextetChar n
      :: base64Chars rest
  | [a, b] =>
    let n := a.toNat * 1024 + b.toNat * 4
    [sextetChar (n / 4096), sextetChar (n / 64), sextetChar n]
  | [a] =>
    let n := a.toNat * 16
    [sextetChar (n / 64), sextetChar n]

/-- The base 64 text of bytes. -/
def toBase64 (bytes : ByteArray) : String := String.ofList (base64Chars bytes.data.toList)

end Recount.Bytes
