import Recount.Json.Value

/-!
# Passing over JSON

A value that nobody asks for is passed over, and only its form matters: a number may be of any
size, an escaped unit need not belong to a character, and arrays and objects may be nested to any
depth. The scan keeps a list of what is open and takes one value or one opening mark at a time.
-/

namespace Recount.Json

/-- The blanks of JSON. -/
def isSpace (c : Char) : Bool := c == ' ' || c == '\n' || c == '\t' || c == '\r'

/-- The text after its leading blanks. -/
def skipSpace (cs : List Char) : List Char := cs.dropWhile isSpace

/-- The value of a hexadecimal digit. -/
def hexValue? (c : Char) : Option Nat :=
  if c.isDigit then some (c.toNat - 48)
  else if 'a' ≤ c && c ≤ 'f' then some (c.toNat - 87)
  else if 'A' ≤ c && c ≤ 'F' then some (c.toNat - 55)
  else none

/-- The character after a backslash, where it is a single one. -/
def simpleEscape? (c : Char) : Option Char :=
  if c == '"' || c == '\\' || c == '/' then some c
  else if c == 'b' then some '\x08'
  else if c == 'f' then some '\x0c'
  else if c == 'n' then some '\n'
  else if c == 'r' then some '\r'
  else if c == 't' then some '\t'
  else none

/-- The rest of a text after a given word. -/
def afterWord? (word : List Char) (cs : List Char) : Option (List Char) :=
  if cs.take word.length == word then some (cs.drop word.length) else none

/-- What follows a text whose opening quote has been read. -/
def afterText? : List Char → Option (List Char)
  | [] => none
  | '"' :: rest => some rest
  | '\\' :: 'u' :: a :: b :: c :: d :: rest =>
    if [a, b, c, d].all fun c => (hexValue? c).isSome then afterText? rest else none
  | '\\' :: c :: rest => if (simpleEscape? c).isSome then afterText? rest else none
  | c :: rest => if c.toNat < 0x20 then none else afterText? rest

/-- What follows digits, of which there is at least one. -/
def afterDigits? (cs : List Char) : Option (List Char) :=
  if (cs.takeWhile Char.isDigit).isEmpty then none else some (cs.dropWhile Char.isDigit)

/-- What follows the power of ten of a number, if it has one. -/
def afterPower? : List Char → Option (List Char)
  | [] => some []
  | c :: cs =>
    if c == 'e' || c == 'E' then
      afterDigits? (match cs with
        | '+' :: cs => cs
        | '-' :: cs => cs
        | cs => cs)
    else some (c :: cs)

/-- What follows a number. -/
def afterNumber? (cs : List Char) : Option (List Char) := do
  let unsigned := match cs with
    | '-' :: cs => cs
    | cs => cs
  let cs ← match unsigned with
    | '0' :: c :: rest => if c.isDigit then none else some (c :: rest)
    | cs => afterDigits? cs
  let cs ← match cs with
    | '.' :: cs => afterDigits? cs
    | cs => some cs
  afterPower? cs

/-- What follows a value that is neither an array nor an object. -/
def afterScalar? : List Char → Option (List Char)
  | '"' :: rest => afterText? rest
  | 'n' :: rest => afterWord? ['u', 'l', 'l'] rest
  | 't' :: rest => afterWord? ['r', 'u', 'e'] rest
  | 'f' :: rest => afterWord? ['a', 'l', 's', 'e'] rest
  | cs => afterNumber? cs

/-- What follows the key of a member and its colon. -/
def afterKey? (cs : List Char) : Option (List Char) := do
  let rest ← match skipSpace cs with
    | '"' :: rest => afterText? rest
    | _ => none
  match skipSpace rest with
  | ':' :: rest => some rest
  | _ => none

/-- Something that has been opened. -/
inductive Open where
  | array
  | object
deriving DecidableEq, Repr

/-- Closes what ends after a value. The text goes on with the next value in what stays open. -/
def closeAll : List Open → List Char → Option (List Open × List Char)
  | [], cs => some ([], cs)
  | o :: os, cs =>
    match o, skipSpace cs with
    | .array, ',' :: rest => some (.array :: os, rest)
    | .object, ',' :: rest => (afterKey? rest).map fun rest => (.object :: os, rest)
    | .array, ']' :: rest => closeAll os rest
    | .object, '\x7d' :: rest => closeAll os rest
    | _, _ => none

/-- Opens an array or an object that is not empty, or passes over another value. -/
def advance (os : List Open) (cs : List Char) : Option (List Open × List Char) :=
  match skipSpace cs with
  | '[' :: rest =>
    match skipSpace rest with
    | ']' :: rest => closeAll os rest
    | rest => some (.array :: os, rest)
  | '\x7b' :: rest =>
    match skipSpace rest with
    | '\x7d' :: rest => closeAll os rest
    | rest => (afterKey? rest).map fun rest => (.object :: os, rest)
  | cs => (afterScalar? cs).bind (closeAll os)

/-- Passes over a value and the rest of all that is open; each step takes a character or more. -/
def passOver : Nat → List Open → List Char → Option (List Char)
  | 0, _, _ => none
  | fuel + 1, os, cs =>
    match advance os cs with
    | none => none
    | some ([], rest) => some rest
    | some (os, rest) => passOver fuel os rest

/-- What follows a value and the rest of all that is open. -/
def after? (os : List Open) (cs : List Char) : Option (List Char) := passOver (cs.length + 1) os cs

end Recount.Json
