import Recount.Json.Decode
import Recount.Text.Trim

/-!
# Points in time

A point in time is counted in seconds and nanoseconds from the beginning of 1970 in universal
time. It is written in the format of RFC 3339 with as many groups of three places as it needs.
-/

namespace Recount

/-- A point in time. A leap second has a billion nanoseconds or more. -/
structure Time where
  seconds : Int
  nanos : Nat
deriving DecidableEq, Repr, Inhabited

namespace Time

/-- `t` is not later than `u`. -/
def le (t u : Time) : Bool := t.seconds < u.seconds || (t.seconds == u.seconds && t.nanos ≤ u.nanos)

/-- The whole milliseconds from one point in time to a later one. -/
def millisecondsTo (t u : Time) : Int :=
  ((u.seconds - t.seconds) * 1000000000 + (u.nanos - t.nanos)) / 1000000

/-- A day of the Gregorian calendar. -/
structure Date where
  year : Int
  month : Nat
  day : Nat

/-- The days from 1970-01-01 to a date. Years are counted from March, in eras of 400 years. -/
def Date.toDays (d : Date) : Int :=
  let year := if d.month ≤ 2 then d.year - 1 else d.year
  let era := year / 400
  let yearOfEra := year - era * 400
  let monthFromMarch : Int := if d.month > 2 then d.month - 3 else d.month + 9
  let dayOfYear := (153 * monthFromMarch + 2) / 5 + d.day - 1
  let dayOfEra := yearOfEra * 365 + yearOfEra / 4 - yearOfEra / 100 + dayOfYear
  era * 146097 + dayOfEra - 719468

/-- The date so many days after 1970-01-01. -/
def Date.ofDays (days : Int) : Date :=
  let shifted := days + 719468
  let era := shifted / 146097
  let dayOfEra := shifted - era * 146097
  let yearOfEra := (dayOfEra - dayOfEra / 1460 + dayOfEra / 36524 - dayOfEra / 146096) / 365
  let dayOfYear := dayOfEra - (365 * yearOfEra + yearOfEra / 4 - yearOfEra / 100)
  let monthFromMarch := (5 * dayOfYear + 2) / 153
  let day := dayOfYear - (153 * monthFromMarch + 2) / 5 + 1
  let month := if monthFromMarch < 10 then monthFromMarch + 3 else monthFromMarch - 9
  let year := yearOfEra + era * 400
  ⟨if month ≤ 2 then year + 1 else year, month.toNat, day.toNat⟩

/-- A leap year of the Gregorian calendar. -/
def isLeap (year : Int) : Bool := year % 4 == 0 && (year % 100 != 0 || year % 400 == 0)

/-- The number of days of a month. -/
def daysIn (year : Int) (month : Nat) : Nat :=
  if month = 2 then if isLeap year then 29 else 28
  else if month = 4 || month = 6 || month = 9 || month = 11 then 30
  else 31

/-- The date is on the calendar. -/
def Date.isValid (d : Date) : Bool :=
  1 ≤ d.month && d.month ≤ 12 && 1 ≤ d.day && d.day ≤ daysIn d.year d.month

/-- A number with at least two digits. -/
def twoDigits (n : Nat) : List Char := Decimal.padded 2 n

/-- A year with at least four digits, and with a sign if it has more or is negative. -/
def yearText (year : Int) : List Char :=
  let digits := Decimal.padded 4 year.natAbs
  if year < 0 then '-' :: digits else if 9999 < year then '+' :: digits else digits

/-- The places of a second: none, three, six or nine. -/
def places (nanos : Nat) : List Char :=
  if nanos = 0 then []
  else if nanos % 1000000 = 0 then '.' :: Decimal.padded 3 (nanos / 1000000)
  else if nanos % 1000 = 0 then '.' :: Decimal.padded 6 (nanos / 1000)
  else '.' :: Decimal.padded 9 nanos

/-- The text of a point in time. -/
def text (t : Time) : String :=
  let date := Date.ofDays (t.seconds / 86400)
  let second := (t.seconds % 86400).toNat
  let isLeapSecond := 1000000000 ≤ t.nanos
  let ofMinute := second % 60 + if isLeapSecond then 1 else 0
  let nanos := if isLeapSecond then t.nanos - 1000000000 else t.nanos
  String.ofList (yearText date.year ++ '-' :: twoDigits date.month ++ '-' :: twoDigits date.day ++
    'T' :: twoDigits (second / 3600) ++ ':' :: twoDigits (second / 60 % 60) ++
    ':' :: twoDigits ofMinute ++ places nanos ++ ['Z'])

/-- Digits of a number, at most `most` of them. -/
def digits? (most : Nat) (cs : List Char) : Option (Nat × List Char) :=
  let digits := (cs.take most).takeWhile Char.isDigit
  if digits.isEmpty then none
  else some (digits.foldl (fun n c => n * 10 + (c.toNat - 48)) 0, cs.drop digits.length)

/-- Digits of a number after blanks. -/
def number? (most : Nat) (cs : List Char) : Option (Nat × List Char) :=
  digits? most (cs.dropWhile Text.isBlank)

/-- The rest of a text after blanks and a given character. -/
def mark? (c : Char) (cs : List Char) : Option (List Char) :=
  match cs.dropWhile Text.isBlank with
  | d :: rest => if d == c then some rest else none
  | [] => none

/-- The nanoseconds after a point; digits after the ninth are dropped. -/
def fraction? : List Char → Option (Nat × List Char)
  | '.' :: cs =>
    let digits := cs.takeWhile Char.isDigit
    if digits.isEmpty then none
    else
      let nine := (digits ++ List.replicate 9 '0').take 9
      some (nine.foldl (fun n c => n * 10 + (c.toNat - 48)) 0, cs.drop digits.length)
  | cs => some (0, cs)

/-- The first day that there is. -/
def firstDay : Date := ⟨-262143, 1, 1⟩

/-- The last day that there is. -/
def lastDay : Date := ⟨262142, 12, 31⟩

/-- There is such a day. -/
def isDay (days : Int) : Bool := firstDay.toDays ≤ days && days ≤ lastDay.toDays

/-- The seconds by which a zone is ahead of universal time, which is less than a day. -/
def zone? (cs : List Char) : Option (Int × List Char) :=
  match cs with
  | 'Z' :: rest => some (0, rest)
  | 'z' :: rest => some (0, rest)
  | sign :: rest =>
    if (cs.take 3).map Char.toUpper == ['U', 'T', 'C'] then some (0, cs.drop 3)
    else if sign != '+' && sign != '-' && sign != '\u2212' then none
    else
      match rest with
      | a :: b :: rest => do
        let (hours, _) ← if a.isDigit && b.isDigit then number? 2 [a, b] else none
        let rest := rest.dropWhile fun c => c == ':' || Text.isBlank c
        match rest with
        | c :: d :: rest =>
          let (minutes, _) ← if c.isDigit && d.isDigit then number? 2 [c, d] else none
          if 60 ≤ minutes then none
          else
            let ahead : Int := hours * 3600 + minutes * 60
            if 86400 ≤ ahead then none else some (if sign == '+' then ahead else -ahead, rest)
        | _ => none
      | _ => none
  | [] => none

/-- A year: four digits, or a sign and any number of digits. -/
def year? (cs : List Char) : Option (Int × List Char) :=
  match cs.dropWhile Text.isBlank with
  | '-' :: rest => (digits? rest.length rest).map fun (n, rest) => (-(n : Int), rest)
  | '+' :: rest => (digits? rest.length rest).map fun (n, rest) => ((n : Int), rest)
  | rest => (digits? 4 rest).map fun (n, rest) => ((n : Int), rest)

/-- Reads a point in time; blanks may stand between its parts, and one instead of the `T`. -/
def parse? (s : String) : Option Time := do
  let (year, cs) ← year? s.toList
  let (month, cs) ← number? 2 (← mark? '-' cs)
  let (day, cs) ← number? 2 (← mark? '-' cs)
  let cs ← match cs with
    | c :: cs => if c == 'T' || c == 't' || c == ' ' then some cs else none
    | [] => none
  let (hour, cs) ← number? 2 cs
  let (minute, cs) ← number? 2 (← mark? ':' cs)
  let (second, cs) ← number? 2 (← mark? ':' cs)
  let (nanos, cs) ← fraction? cs
  let (ahead, cs) ← zone? (cs.dropWhile Text.isBlank)
  let date : Date := ⟨year, month, day⟩
  if !cs.all Text.isBlank || !date.isValid then none
  else if 24 ≤ hour || 60 ≤ minute || 60 < second then none
  else
    let ofDay := hour * 3600 + minute * 60 + min second 59
    let seconds := date.toDays * 86400 + ofDay - ahead
    if !isDay date.toDays || !isDay (seconds / 86400) then none
    else some ⟨seconds, if second = 60 then nanos + 1000000000 else nanos⟩

/-- A point in time as JSON. -/
def toJson (t : Time) : Json := .str t.text

/-- Decodes a point in time. -/
def decode : Json.Decoder Time := Json.Decode.textAs parse?

end Time
end Recount
