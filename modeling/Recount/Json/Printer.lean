import Recount.Json.Value

/-!
# Writing JSON

The compact text of a JSON value: no blanks, members in the order of their keys, characters
escaped only where they must be. The second form keeps to ASCII.
-/

namespace Recount.Json

/-- The digit of a hexadecimal numeral. -/
def hexDigit (n : Nat) : Char := ("0123456789abcdef".toList)[n % 16]?.getD '0'

/-- A code unit of sixteen bits, escaped. -/
def escapeUnit (unit : Nat) : List Char :=
  ['\\', 'u', hexDigit (unit / 4096), hexDigit (unit / 256), hexDigit (unit / 16), hexDigit unit]

/-- A character inside a text. -/
def escapeChar (c : Char) : List Char :=
  if c == '"' then ['\\', '"']
  else if c == '\\' then ['\\', '\\']
  else if c == '\n' then ['\\', 'n']
  else if c == '\r' then ['\\', 'r']
  else if c == '\t' then ['\\', 't']
  else if c == '\x08' then ['\\', 'b']
  else if c == '\x0c' then ['\\', 'f']
  else if c.toNat < 0x20 then escapeUnit c.toNat
  else [c]

/-- A character inside a text that is to be ASCII; beyond the basic plane it takes two units. -/
def escapeAscii (c : Char) : List Char :=
  if c.toNat < 0x7F then escapeChar c
  else if c.toNat < 0x10000 then escapeUnit c.toNat
  else
    let offset := c.toNat - 0x10000
    escapeUnit (0xD800 + offset / 0x400) ++ escapeUnit (0xDC00 + offset % 0x400)

/-- A text in quotes. -/
def quote (escape : Char → List Char) (s : String) : String :=
  String.ofList ('"' :: (s.toList.flatMap escape ++ ['"']))

/-- The numeral of a number. -/
def Number.text : Number → String
  | .int n => toString n
  | .double x => x.marked

mutual
/-- The compact text of a value. -/
def printWith (escape : Char → List Char) : Json → String
  | .null => "null"
  | .bool true => "true"
  | .bool false => "false"
  | .num n => n.text
  | .str s => quote escape s
  | .arr items => "[" ++ ",".intercalate (printItems escape items) ++ "]"
  | .obj members => "\x7b" ++ ",".intercalate (printMembers escape members) ++ "\x7d"

/-- The texts of the items of an array. -/
def printItems (escape : Char → List Char) : List Json → List String
  | [] => []
  | item :: items => printWith escape item :: printItems escape items

/-- The texts of the members of an object. -/
def printMembers (escape : Char → List Char) : List (String × Json) → List String
  | [] => []
  | (key, value) :: members =>
    (quote escape key ++ ":" ++ printWith escape value) :: printMembers escape members
end

/-- The compact text of a value. -/
def print (value : Json) : String := printWith escapeChar value

/-- The compact text of a value in ASCII. -/
def printAscii (value : Json) : String := printWith escapeAscii value

end Recount.Json
