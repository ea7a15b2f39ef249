import Recount.Json.Scan

/-!
# Reading JSON

A text is read as far as it is well formed. The result is a draft: a tree that keeps members as
they are written, repeated keys included, and that marks where the text stops being JSON, and what
has the form of JSON without being a value. A draft without such marks is a value.
-/

namespace Recount.Json

/-- How an object ends. -/
inductive Draft.End where
  | closed
  /-- A key follows that is no text; from there on only the form was looked at. -/
  | keyless
  /-- Something follows that is not JSON. -/
  | broken
deriving DecidableEq, Repr

/-- A JSON text as it is written. An array that is not closed goes on with something that is not
JSON; a broken draft begins with it. -/
inductive Draft where
  | null
  | bool (value : Bool)
  | num (value : Number)
  | str (value : String)
  | arr (items : List Draft) (closed : Bool)
  | obj (members : List (String × Draft)) (ending : Draft.End)
  /-- Well formed, but a number that is too large, a text with a part of a character, or an array
  or object that is nested too deeply. -/
  | valueless
  | broken
deriving Inhabited

/-- Four hexadecimal digits and the rest. -/
def readUnit : List Char → Option (Nat × List Char)
  | a :: b :: c :: d :: rest => do
    let a ← hexValue? a
    let b ← hexValue? b
    let c ← hexValue? c
    let d ← hexValue? d
    some (a * 4096 + b * 256 + c * 16 + d, rest)
  | _ => none

/-- The character that an escaped unit begins; the second unit of a pair must follow the first. -/
def readEscapedUnit (cs : List Char) : Option (Char × List Char) := do
  let (unit, rest) ← readUnit cs
  if 0xDC00 ≤ unit && unit ≤ 0xDFFF then none
  else if 0xD800 ≤ unit && unit ≤ 0xDBFF then
    match rest with
    | '\\' :: 'u' :: rest =>
      let (second, rest) ← readUnit rest
      if 0xDC00 ≤ second && second ≤ 0xDFFF then
        some (Char.ofNat (0x10000 + (unit - 0xD800) * 0x400 + (second - 0xDC00)), rest)
      else none
    | _ => none
  else some (Char.ofNat unit, rest)

/-- The rest of a text after its opening quote; each step takes a character. -/
def readText : Nat → List Char → List Char → Option (String × List Char)
  | 0, _, _ => none
  | _ + 1, _, [] => none
  | fuel + 1, read, c :: rest =>
    if c == '"' then some (String.ofList read.reverse, rest)
    else if c == '\\' then
      match rest with
      | 'u' :: rest =>
        match readEscapedUnit rest with
        | some (c, rest) => readText fuel (c :: read) rest
        | none => none
      | c :: rest =>
        match simpleEscape? c with
        | some c => readText fuel (c :: read) rest
        | none => none
      | [] => none
    else if c.toNat < 0x20 then none
    else readText fuel (c :: read) rest

/-- A number read in part: the digits taken so far as an integer below `2 ^ 64`, and the power of
ten they are to be multiplied with. -/
structure Significand where
  digits : Nat
  exponent : Int

/-- Takes decimal digits while the integer stays below `2 ^ 64`; further digits are dropped. Digits
before the point raise the exponent when dropped, digits after it lower it when taken. -/
def takeDigits (afterPoint : Bool) (s : Significand) (full : Bool) :
    List Char → Significand × List Char
  | [] => (s, [])
  | c :: rest =>
    if c.isDigit then
      let digits := s.digits * 10 + (c.toNat - 48)
      if full || 2 ^ 64 ≤ digits then
        takeDigits afterPoint (if afterPoint then s else { s with exponent := s.exponent + 1 })
          true rest
      else
        takeDigits afterPoint
          { digits, exponent := if afterPoint then s.exponent - 1 else s.exponent } false rest
    else (s, c :: rest)

/-- The value of the digits of an exponent, up to the given bound. -/
def exponentValue (bound : Nat) (digits : List Char) : Nat :=
  digits.foldl (fun value c => min bound (value * 10 + (c.toNat - 48))) 0

/-- The double with a sign, digits and a power of ten. -/
def mkDouble (negative : Bool) (s : Significand) : Option Number :=
  (Double.scaled? s.digits s.exponent).map fun x => .double (if negative then x.neg else x)

/-- A number after its sign. -/
def readUnsigned (negative : Bool) (cs : List Char) : Option (Number × List Char) := do
  let startsWithZero := match cs with
    | '0' :: _ => true
    | _ => false
  let whole := cs.takeWhile Char.isDigit
  if whole.isEmpty || (startsWithZero && 1 < whole.length) then none
  let (s, rest) := takeDigits false ⟨0, 0⟩ false cs
  let isWhole := s.exponent = 0
  let (s, rest, isWhole) ← match rest with
    | '.' :: places =>
      if (places.takeWhile Char.isDigit).isEmpty then none
      else
        let (s, rest) := takeDigits true s false places
        some (s, rest, false)
    | rest => some (s, rest, isWhole)
  let scientific := match rest with
    | 'e' :: power => some power
    | 'E' :: power => some power
    | _ => none
  match scientific with
  | some power =>
    let (down, power) := match power with
      | '-' :: power => (true, power)
      | '+' :: power => (false, power)
      | power => (false, power)
    let digits := power.takeWhile Char.isDigit
    if digits.isEmpty then none
    let value : Int := exponentValue (2 ^ 31) digits
    let number ← mkDouble negative
      { s with exponent := if down then s.exponent - value else s.exponent + value }
    some (number, power.dropWhile Char.isDigit)
  | none =>
    if isWhole && !(negative && s.digits = 0) && !(negative && 2 ^ 63 < s.digits) then
      some (.int (if negative then -s.digits else s.digits), rest)
    else
      let number ← mkDouble negative s
      some (number, rest)

/-- A number. -/
def readNumber : List Char → Option (Number × List Char)
  | '-' :: rest => readUnsigned true rest
  | cs => readUnsigned false cs

/-- How deeply arrays and objects may be nested. -/
def maxDepth : Nat := 127

/-- The mark of something that has no value: whether it has at least the form of one. -/
def withoutValue (after : Option (List Char)) : Draft × List Char :=
  match after with
  | some rest => (.valueless, rest)
  | none => (.broken, [])

/-- The end of an object at a key that is no text, given what follows the key. -/
def atKeyless (afterKey : Option (List Char)) : List (String × Draft) × Draft.End × List Char :=
  match afterKey.bind (after? [.object]) with
  | some rest => ([], .keyless, rest)
  | none => ([], .broken, [])

mutual
/-- A draft of the value at the start of a text, and the text after it. The text after a draft
that is marked is of no meaning. -/
def readValue : Nat → Nat → List Char → Draft × List Char
  | 0, _, _ => (.broken, [])
  | fuel + 1, depth, cs =>
    match skipSpace cs with
    | '"' :: rest =>
      match readText (rest.length + 1) [] rest with
      | some (s, rest) => (.str s, rest)
      | none => withoutValue (afterText? rest)
    | '[' :: rest =>
      match depth with
      | 0 => withoutValue (after? [] ('[' :: rest))
      | depth + 1 =>
        match skipSpace rest with
        | ']' :: rest => (.arr [] true, rest)
        | rest =>
          let (items, closed, rest) := readItems fuel depth rest
          (.arr items closed, rest)
    | '\x7b' :: rest =>
      match depth with
      | 0 => withoutValue (after? [] ('\x7b' :: rest))
      | depth + 1 =>
        match skipSpace rest with
        | '\x7d' :: rest => (.obj [] .closed, rest)
        | rest =>
          let (members, ending, rest) := readMembers fuel depth rest
          (.obj members ending, rest)
    | 'n' :: rest =>
      match afterWord? ['u', 'l', 'l'] rest with
      | some rest => (.null, rest)
      | none => (.broken, [])
    | 't' :: rest =>
      match afterWord? ['r', 'u', 'e'] rest with
      | some rest => (.bool true, rest)
      | none => (.broken, [])
    | 'f' :: rest =>
      match afterWord? ['a', 'l', 's', 'e'] rest with
      | some rest => (.bool false, rest)
      | none => (.broken, [])
    | cs =>
      match readNumber cs with
      | some (n, rest) => (.num n, rest)
      | none => withoutValue (afterNumber? cs)

/-- The items of an array from its first one on. -/
def readItems : Nat → Nat → List Char → List Draft × Bool × List Char
  | 0, _, _ => ([.broken], false, [])
  | fuel + 1, depth, cs =>
    let (item, rest) := readValue fuel depth cs
    match skipSpace rest with
    | ',' :: rest =>
      match skipSpace rest with
      | ']' :: _ => ([item], false, [])
      | rest =>
        let (items, closed, rest) := readItems fuel depth rest
        (item :: items, closed, rest)
    | ']' :: rest => ([item], true, rest)
    | _ => ([item], false, [])

/-- The members of an object from its first one on. -/
def readMembers : Nat → Nat → List Char → List (String × Draft) × Draft.End × List Char
  | 0, _, _ => ([], .broken, [])
  | fuel + 1, depth, cs =>
    match skipSpace cs with
    | '"' :: rest =>
      match readText (rest.length + 1) [] rest with
      | none => atKeyless (afterKey? cs)
      | some (key, rest) =>
        match skipSpace rest with
        | ':' :: rest =>
          let (value, rest) := readValue fuel depth rest
          match skipSpace rest with
          | ',' :: rest =>
            let (members, ending, rest) := readMembers fuel depth rest
            ((key, value) :: members, ending, rest)
          | '\x7d' :: rest => ([(key, value)], .closed, rest)
          | _ => ([(key, value)], .broken, [])
        | _ => ([(key, .broken)], .broken, [])
    | _ => ([], .broken, [])
end

mutual
/-- No mark in the draft: the text is a value. -/
def Draft.isWhole : Draft → Bool
  | .broken => false
  | .valueless => false
  | .arr items closed => closed && Draft.areWhole items
  | .obj members ending => ending = .closed && Draft.membersAreWhole members
  | _ => true

/-- No mark in any of the drafts. -/
def Draft.areWhole : List Draft → Bool
  | [] => true
  | item :: items => item.isWhole && Draft.areWhole items

/-- No mark in any of the members. -/
def Draft.membersAreWhole : List (String × Draft) → Bool
  | [] => true
  | (_, value) :: members => value.isWhole && Draft.membersAreWhole members
end

mutual
/-- The text has the form of JSON all through. -/
def Draft.isFormed : Draft → Bool
  | .broken => false
  | .arr items closed => closed && Draft.areFormed items
  | .obj members ending => ending ≠ .broken && Draft.membersAreFormed members
  | _ => true

/-- All the drafts have the form of JSON. -/
def Draft.areFormed : List Draft → Bool
  | [] => true
  | item :: items => item.isFormed && Draft.areFormed items

/-- All the members have the form of JSON. -/
def Draft.membersAreFormed : List (String × Draft) → Bool
  | [] => true
  | (_, value) :: members => value.isFormed && Draft.membersAreFormed members
end

mutual
/-- The value of a draft, with null for a part that has none. -/
def Draft.toJson : Draft → Json
  | .null => .null
  | .bool b => .bool b
  | .num n => .num n
  | .str s => .str s
  | .arr items _ => .arr (Draft.toJsons items)
  | .obj members _ => .ofMembers (Draft.toMembers members)
  | .valueless => .null
  | .broken => .null

/-- The values of drafts. -/
def Draft.toJsons : List Draft → List Json
  | [] => []
  | item :: items => item.toJson :: Draft.toJsons items

/-- The members with the values of their drafts. -/
def Draft.toMembers : List (String × Draft) → List (String × Json)
  | [] => []
  | (key, value) :: members => (key, value.toJson) :: Draft.toMembers members
end

mutual
/-- The draft of a value. -/
def toDraft : Json → Draft
  | .null => .null
  | .bool b => .bool b
  | .num n => .num n
  | .str s => .str s
  | .arr items => .arr (toDrafts items) true
  | .obj members => .obj (toDraftMembers members) .closed

/-- The drafts of values. -/
def toDrafts : List Json → List Draft
  | [] => []
  | item :: items => toDraft item :: toDrafts items

/-- The members with the drafts of their values. -/
def toDraftMembers : List (String × Json) → List (String × Draft)
  | [] => []
  | (key, value) :: members => (key, toDraft value) :: toDraftMembers members
end

/-- The draft at the start of a text, and the text after it. -/
def readDraft (s : String) : Draft × List Char :=
  let cs := s.toList
  readValue (2 * cs.length + 2) maxDepth cs

/-- Reads a text that is one JSON value. -/
def parse? (s : String) : Option Json :=
  let (draft, rest) := readDraft s
  if draft.isWhole && (skipSpace rest).isEmpty then some draft.toJson else none

end Recount.Json
