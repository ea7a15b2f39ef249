import Recount.Database.Mappings
import Recount.Rehearsal.Script

/-!
# Rehearsed databases

A database whose answers are in a script. The rows of the script need not be whole: they are laid
over a row that fits the table.
-/

namespace Recount.Rehearsal

section Rows

/-- An identifier by its number. -/
def numbered (n : Nat) : Json := (Id.ofNat n).toJson

/-- The time at which all rows were written. -/
def rowTime : Json := .str "2024-01-01T00:00:00Z"

/-- What rows hold, whatever their table. -/
def commonCells : Row :=
  [("count_id", numbered 0x1), ("count_item_id", numbered 0x11), ("created_at", rowTime),
    ("created_by", numbered 0xbb), ("current_version", .nat 1), ("dataset_type", .str "ITEMS"),
    ("details", .arr []), ("duration_ms", .nat 0), ("erp_connection_id", numbered 0xc1),
    ("field_mappings", .arr []), ("filters", .arr []), ("has_variance", .bool false),
    ("inserted", .bool true), ("is_active", .bool true), ("item_code", .str "A"),
    ("item_name", .str "Item A"), ("items_failed", .nat 0), ("items_synced", .nat 0),
    ("joins", .arr []), ("location_id", numbered 0xa1), ("main_table", .str "items"),
    ("sequence_number", .nat 1), ("strategy", .str "REPLACE"), ("system_qty", .str "10"),
    ("tenant_id", numbered 0xaa), ("total_versions", .nat 1), ("triggered_by", numbered 0xbb),
    ("updated_at", rowTime), ("version", .nat 1), ("warehouse_id", numbered 0xa1)]

/-- What the rows of a table hold, for each table in the order in which statements are searched. -/
def tableCells : List (String × Row) :=
  [("inventory_counts", [("id", numbered 0x1), ("status", .str "ACTIVE")]),
    ("count_items", [("id", numbered 0x11), ("status", .str "PENDING")]),
    ("variance_reports",
      [("id", numbered 0x21), ("status", .str "PENDING"), ("counted_qty", .str "7"),
        ("difference", .str "-3"), ("variance_percent", .str "-30.00")]),
    ("sync_history",
      [("id", numbered 0x31), ("status", .str "SUCCESS"), ("started_at", rowTime),
        ("completed_at", rowTime)]),
    ("", [("id", numbered 0x41), ("name", .str "m")])]

/-- The row that a statement answers unless the script says otherwise. -/
def wholeRow (statement : String) : Row :=
  let table := tableCells.find? fun (table, _) => Text.occurs table statement
  commonCells ++ table.elim [] (·.2)

end Rows

/-- A database with a script. -/
structure Server where
  script : Script := []
  /-- The identifiers and times that are drawn are numbered from here on. -/
  tick : Nat := 0
  /-- What the database was asked, the latest first. -/
  calls : List Database.Call := []

namespace Server

/-- The statement answers rows. -/
def answersRows (statement : String) : Bool :=
  Text.startsWith statement "SELECT" || Text.occurs "RETURNING" statement

/-- The reply of an entry to a statement. -/
def reply (statement : String) (e : Entry) : Except DatabaseFault Database.Reply :=
  match e.refusal with
  | some message => .error (.server e.code message)
  | none =>
    let rows := e.rows.map fun row =>
      (Json.ofMembers (wholeRow statement ++ row.members)).members
    .ok ⟨if answersRows statement then rows else [], e.affected.getD rows.length⟩

/-- Answers a text. -/
def answer (s : Server) (call : Database.Call) (statement : String) :
    Except DatabaseFault Database.Reply × Server :=
  let (entry, script) := s.script.take (·.matchesText statement)
  (reply statement (entry.getD {}), { s with script, calls := call :: s.calls })

/-- Answers a call. -/
def serve (supply : Nat → Supply) :
    (call : Database.Call) → Server → Except Overflow call.Answer × Server
  | .start, s =>
    let (answer, s) := s.answer .start "BEGIN"
    (.ok (answer.map fun _ => ()), s)
  | .commit, s =>
    let (answer, s) := s.answer .commit "COMMIT"
    (.ok (answer.map fun _ => ()), s)
  | .send statement, s =>
    let (answer, s) := s.answer (.send statement) statement.text
    (.ok answer, s)
  | .freshId, s => (.ok ((supply s.tick).id 0), { s with tick := s.tick + 1 })
  | .now, s => (.ok ((supply s.tick).time 0), { s with tick := s.tick + 1 })

end Server
end Recount.Rehearsal
