import Recount.Json.Decode
import Recount.Text.Trim

/-!
# Scripts

A script answers texts in the place of a system that is not at hand. It is a list of entries; the
first one that fits a text and has uses left answers it, and has one use less then.
-/

namespace Recount.Rehearsal

/-- An entry of a script. -/
structure Entry where
  /-- The entry fits texts in which this occurs. -/
  pattern : String := ""
  /-- The number of uses that are left, if it is limited. -/
  uses : Option Nat := none
  /-- The entry fits queries with this parameter only. -/
  parameter : Option Json := none
  /-- The message of a refusal. -/
  refusal : Option String := none
  /-- The code of a refusal. -/
  code : String := "XX000"
  /-- The names and types of columns. -/
  columns : List (String × String) := []
  rows : List Json := []
  /-- The number of rows that are written, if it is not the number of rows given. -/
  affected : Option Nat := none

/-- The entries of a script in order. -/
abbrev Script := List Entry

/-- The first entry that fits and has uses left, and the script without that use. -/
def Script.take (fits : Entry → Bool) : Script → Option Entry × Script
  | [] => (none, [])
  | e :: rest =>
    if e.uses ≠ some 0 ∧ fits e then (some e, { e with uses := e.uses.map (· - 1) } :: rest)
    else ((take fits rest).1, e :: (take fits rest).2)

/-- The entry fits a text. -/
def Entry.matchesText (e : Entry) (text : String) : Bool := Text.occurs e.pattern text

open Json Json.Decode

/-- The name and the type of a column. -/
def columnOf? : Json → Option (String × String)
  | .arr [.str name, .str type] => some (name, type)
  | _ => none

/-- An entry by the fields in which it is written. -/
def Entry.ofFields (pattern : Option String) (times : Option Nat) (parameter : Option Json)
    (refusal code : Option String) (columns rows : Option (List Json)) (affected : Option Nat) :
    Entry where
  pattern := pattern.getD ""
  uses := times
  parameter := parameter
  refusal := refusal
  code := code.getD "XX000"
  columns := (columns.getD []).filterMap columnOf?
  rows := rows.getD []
  affected := affected

/-- Decodes an entry. -/
def Entry.decode : Decoder Entry :=
  record (Entry.ofFields <$> optField "match" text <*> optField "times" (natOfBits 64)
    <*> optField "param" value <*> optField "error" text <*> optField "code" text
    <*> optField "columns" (list value) <*> optField "rows" (list value)
    <*> optField "affected" (natOfBits 64))

/-- Decodes a script; where nothing is given, it is empty. -/
def Script.field (name : String) : Record Script :=
  (fun entries? => entries?.getD []) <$> optField name (list Entry.decode)

end Recount.Rehearsal
