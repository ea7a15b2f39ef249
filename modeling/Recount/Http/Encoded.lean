import Recount.Json.Printer
import Recount.Json.Reader
import Recount.Text.Trim

/-!
# Encoded texts in addresses

In an address a byte may be written as a percent sign with two hexadecimal digits. The query of an
address is a list of names and values, in which a plus sign stands for a blank.
-/

namespace Recount.Http

/-- The bytes of a text in which bytes may be encoded. -/
def percentBytes : List Char → List UInt8
  | [] => []
  | '%' :: a :: b :: rest =>
    match Json.hexValue? a, Json.hexValue? b with
    | some high, some low => UInt8.ofNat (high * 16 + low) :: percentBytes rest
    | _, _ => 0x25 :: percentBytes (a :: b :: rest)
  | c :: rest => (String.singleton c).toUTF8.data.toList ++ percentBytes rest

/-- The text that an encoded text stands for, if its bytes are text. -/
def percentDecode? (s : String) : Option String :=
  String.fromUTF8? ⟨(percentBytes s.toList).toArray⟩

/-- An encoded byte; letters, digits and a few marks stand for themselves. -/
def percentByte (b : UInt8) : List Char :=
  let c := Char.ofNat b.toNat
  let digit n := (Json.hexDigit n).toUpper
  if c.isAlphanum || "-._~".toList.contains c then [c]
  else ['%', digit (b.toNat / 16), digit b.toNat]

/-- An encoded text. -/
def percentEncode (s : String) : String :=
  String.ofList (s.toUTF8.data.toList.flatMap percentByte)

/-- A text that may be the address of a request: no controls and blanks, and of the marks that set
an address off from its surroundings only a quote in the path. -/
def isAddress (path query : String) : Bool :=
  let isPlain (c : Char) := 0x20 < c.toNat && c != '<' && c != '>'
  !path.isEmpty && path.toList.all (fun c => isPlain c && c != '`') &&
    query.toList.all fun c => isPlain c && c != '"'

/-- A name or a value of a query; bytes that are no text become a mark of that. -/
def formDecode (cs : List Char) : String :=
  let spaced := cs.map fun c => if c == '+' then ' ' else c
  (percentDecode? (String.ofList spaced)).getD "\ufffd"

/-- The names and values of a query in their order. -/
def queryFields (query : String) : List (String × String) :=
  let pieces := (Text.splitChars '&' query.toList).filter (!·.isEmpty)
  pieces.map fun piece =>
    let name := piece.takeWhile (· != '=')
    (formDecode name, formDecode (piece.drop (name.length + 1)))

end Recount.Http
