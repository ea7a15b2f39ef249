import Recount.Json.Decode
import Recount.Json.Printer

/-!
# Identifiers

Rows, tenants and users are named by 128-bit identifiers, written as 32 hexadecimal digits in
groups of 8, 4, 4, 4 and 12.
-/

namespace Recount

/-- A 128-bit identifier. -/
structure Id where
  val : BitVec 128
deriving DecidableEq, Repr, Inhabited

namespace Id

/-- The identifier of all zeros. -/
def nil : Id := ⟨0⟩

/-- The identifier of all ones. -/
def max : Id := ⟨BitVec.allOnes 128⟩

/-- The identifier with this number. -/
def ofNat (n : Nat) : Id := ⟨BitVec.ofNat 128 n⟩

/-- The order of the numbers, which is the order of the texts. -/
def lt (x y : Id) : Bool := x.val.toNat < y.val.toNat

/-- `x` comes before `y` or is `y`. -/
def le (x y : Id) : Bool := x.val.toNat ≤ y.val.toNat

/-- The hexadecimal digits, the highest first. -/
def digits (x : Id) : List Char :=
  (List.range 32).map fun i => Json.hexDigit (x.val.toNat / 16 ^ (31 - i))

/-- The digits in their groups. -/
def groups (cs : List Char) : List Char :=
  cs.take 8 ++ '-' :: (cs.drop 8).take 4 ++ '-' :: (cs.drop 12).take 4 ++
    '-' :: (cs.drop 16).take 4 ++ '-' :: cs.drop 20

/-- The text of an identifier. -/
def text (x : Id) : String := String.ofList (groups x.digits)

instance : ToString Id := ⟨text⟩

/-- The identifier of 32 hexadecimal digits. -/
def ofDigits? (cs : List Char) : Option Id :=
  if cs.length = 32 then
    let number? := cs.foldl
      (fun n? c => n?.bind fun n => (Json.hexValue? c).map (n * 16 + ·)) (some 0)
    number?.map ofNat
  else none

/-- The identifier of digits in groups. -/
def ofGroups? (cs : List Char) : Option Id :=
  let isHyphen i := cs[i]? == some '-'
  if cs.length = 36 && isHyphen 8 && isHyphen 13 && isHyphen 18 && isHyphen 23 then
    ofDigits? (cs.filter (· != '-'))
  else none

/-- Reads an identifier: plain digits, groups, groups in braces, or groups after `urn:uuid:`. -/
def parse? (s : String) : Option Id :=
  let cs := s.toList
  match cs.length with
  | 32 => ofDigits? cs
  | 36 => ofGroups? cs
  | 38 =>
    if cs.head? == some '\x7b' && cs.getLast? == some '\x7d' then
      ofGroups? ((cs.drop 1).take 36)
    else none
  | 45 => if cs.take 9 == "urn:uuid:".toList then ofGroups? (cs.drop 9) else none
  | _ => none

/-- An identifier as JSON. -/
def toJson (x : Id) : Json := .str x.text

/-- Decodes an identifier. -/
def decode : Json.Decoder Id := Json.Decode.textAs parse?

end Id
end Recount
