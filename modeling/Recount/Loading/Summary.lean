import Recount.Count.Basic
import Recount.Load.Record

/-!
# Summaries of loads

What a load read, what it stored, and which sources it tried.
-/

namespace Recount.Loading

/-- Where rows come from. -/
inductive Source where
  /-- A mapping that was named. -/
  | mapping
  /-- The active mappings of a tenant. -/
  | configuredMappings
  /-- One table, read without a mapping. -/
  | legacyTable
  /-- Nowhere: items are entered by hand. -/
  | manualEntry
  | file
deriving DecidableEq, Repr

/-- The names of the sources. -/
def Source.naming : Naming Source where
  all := [.mapping, .configuredMappings, .legacyTable, .manualEntry, .file]
  name
    | .mapping => "mapping"
    | .configuredMappings => "configured_mappings"
    | .legacyTable => "legacy_table"
    | .manualEntry => "manual_entry"
    | .file => "file"

/-- A source that was tried. -/
structure Attempted where
  source : Source
  success : Bool
  message : String
deriving DecidableEq, Repr

/-- An item that could not be stored. -/
structure ItemError where
  code : String
  message : String
deriving DecidableEq, Repr

/-- What a load did. -/
structure Summary where
  source : Source
  version : Int
  rowsRead : Nat := 0
  rowsDropped : Nat := 0
  /-- The number of items that the rows were about. -/
  items : Nat := 0
  inserted : Nat := 0
  updated : Nat := 0
  failed : Nat := 0
  errors : List ItemError := []
  rowErrors : List RowError := []
  attempts : List Attempted := []

open Json

/-- A summary as JSON. -/
def Summary.toJson (s : Summary) : Json :=
  let error (e : ItemError) : Json :=
    ofMembers [("item_code", .str e.code), ("error", .str e.message)]
  let attempt (a : Attempted) : Json :=
    ofMembers [("source", Source.naming.toJson a.source), ("success", .bool a.success),
      ("message", .str a.message)]
  ofMembers [("source", Source.naming.toJson s.source), ("version", .int s.version),
    ("rows_read", .nat s.rowsRead), ("rows_dropped", .nat s.rowsDropped), ("items", .nat s.items),
    ("inserted", .nat s.inserted), ("updated", .nat s.updated), ("failed", .nat s.failed),
    ("errors", ofList error s.errors), ("row_errors", ofList RowError.toJson s.rowErrors),
    ("attempts", ofList attempt s.attempts)]

end Recount.Loading
