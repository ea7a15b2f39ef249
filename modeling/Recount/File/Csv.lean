import Recount.Text.Trim

/-!
# Separated values

Records of fields, one record a line. A field that holds a separator, a quote or a line break is
written in quotes, with its own quotes doubled. The reader takes any number of fields in a record,
passes over empty lines and ends a record at the end of the text; a quote has a meaning only at
the beginning of a field.
-/

namespace Recount.Csv

/-- A line break. -/
def isBreak (c : Char) : Bool := c == '\n' || c == '\r'

/-- Where the reader stands. -/
inductive Place where
  /-- Before a record; line breaks are passed over. -/
  | record
  /-- Before a field. -/
  | field
  /-- Inside a field without quotes, or after the closing quote of one. -/
  | plain
  /-- Inside quotes. -/
  | quoted
  /-- After a quote inside quotes: it closes the field, or it is the first of a doubled one. -/
  | quote
deriving DecidableEq, Repr

/-- What has been read: whole records, whole fields of the present record, and the characters of
the present field, each list with the latest first. -/
structure Reading where
  place : Place := .record
  records : List (List String) := []
  fields : List String := []
  chars : List Char := []

/-- Ends a field. -/
def Reading.endField (r : Reading) : Reading :=
  { r with place := .field, fields := String.ofList r.chars.reverse :: r.fields, chars := [] }

/-- Ends a record with its last field. -/
def Reading.endRecord (r : Reading) : Reading :=
  let r := r.endField
  { r with place := .record, records := r.fields.reverse :: r.records, fields := [] }

/-- Takes a character into a field. -/
def Reading.take (r : Reading) (place : Place) (c : Char) : Reading :=
  { r with place, chars := c :: r.chars }

/-- Takes a character that is not in quotes and opens none. -/
def Reading.unquoted (separator : Char) (r : Reading) (c : Char) : Reading :=
  if c == separator then r.endField
  else if isBreak c then r.endRecord
  else r.take .plain c

/-- Takes the next character of a text. -/
def Reading.step (separator : Char) (r : Reading) (c : Char) : Reading :=
  match r.place with
  | .record =>
    if isBreak c then r
    else if c == '"' then { r with place := .quoted }
    else r.unquoted separator c
  | .field => if c == '"' then { r with place := .quoted } else r.unquoted separator c
  | .plain => r.unquoted separator c
  | .quoted => if c == '"' then { r with place := .quote } else r.take .quoted c
  | .quote => if c == '"' then r.take .quoted c else r.unquoted separator c

/-- Ends the text. -/
def Reading.finish (r : Reading) : List (List String) :=
  match r.place with
  | .record => r.records.reverse
  | _ => r.endRecord.records.reverse

/-- The records of a text. -/
def read (separator : Char) (cs : List Char) : List (List String) :=
  (cs.foldl (Reading.step separator) {}).finish

/-- The field has to be written in quotes. -/
def needsQuotes (field : String) : Bool :=
  field.toList.any fun c => c == ',' || c == '"' || isBreak c

/-- A field in quotes. -/
def quoted (field : String) : List Char :=
  '"' :: (field.toList.flatMap fun c => if c == '"' then [c, c] else [c]) ++ ['"']

/-- A field as it is written. -/
def writeField (field : String) : List Char :=
  if needsQuotes field then quoted field else field.toList

/-- A record as it is written, with the line break at its end. A single empty field is quoted, so
that its line is not empty. -/
def writeRecord (fields : List String) : List Char :=
  let written := if fields == [""] then [quoted ""] else fields.map writeField
  [','].intercalate written ++ ['\n']

/-- Records as they are written, one after the other. -/
def write (records : List (List String)) : String := String.ofList (records.flatMap writeRecord)

/-- The number of times a character occurs in the first line of a text. -/
def countInFirstLine (cs : List Char) (c : Char) : Nat := (cs.takeWhile (· != '\n')).count c

/-- The separator that a text uses: the one that occurs most often in its first line, the later of
two that occur equally often. -/
def separatorOf (cs : List Char) : Char :=
  [',', '\t', ';', '|'].foldl (fun best c =>
    if countInFirstLine cs best ≤ countInFirstLine cs c then c else best) ','

end Recount.Csv
