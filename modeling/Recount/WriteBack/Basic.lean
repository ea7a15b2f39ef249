import Recount.Id
import Recount.Name
import Recount.Sql.Query
import Recount.Time

/-!
# Writing back

What was counted is written back to the planning system, item by item. Each attempt is recorded
with what became of every item.
-/

namespace Recount

/-- What is written for an item. -/
inductive Strategy where
  /-- The counted quantity, in place of the one that is there. -/
  | replace
  /-- The difference, added to the quantity that is there. -/
  | add
deriving DecidableEq, Repr, Inhabited

namespace Strategy

/-- The names of the strategies. -/
def naming : Naming Strategy where
  all := [replace, add]
  name
    | replace => "REPLACE"
    | add => "ADD"

/-- Reads the name of a strategy. -/
def parse (given : String) : Except UnknownName Strategy :=
  naming.parse "Unknown sync strategy" given

end Strategy

/-- What became of an attempt. -/
inductive AttemptStatus where
  | success
  | partly
  | failed
deriving DecidableEq, Repr, Inhabited

namespace AttemptStatus

/-- The names of the outcomes. -/
def naming : Naming AttemptStatus where
  all := [success, partly, failed]
  name
    | success => "SUCCESS"
    | partly => "PARTIAL"
    | failed => "FAILED"

/-- Reads the name of an outcome. -/
def parse (given : String) : Except UnknownName AttemptStatus :=
  naming.parse "Unknown sync status" given

/-- The outcome by the numbers of items that were written and that were not. -/
def ofCounts (written failed : Nat) : AttemptStatus :=
  if failed = 0 then .success else if written = 0 then .failed else .partly

end AttemptStatus

/-- What became of one item in an attempt. -/
structure WriteDetail where
  item : Id
  code : String
  value : Decimal
  success : Bool
  error : Option String
deriving DecidableEq

/-- One attempt to write back a version. -/
structure Attempt where
  id : Id
  count : Id
  version : Int
  status : AttemptStatus
  strategy : Strategy
  written : Int
  failed : Int
  details : List WriteDetail
  milliseconds : Int
  triggeredBy : Id
  startedAt : Time
  completedAt : Time
deriving DecidableEq

/-- Where quantities are written. -/
structure Target where
  table : String
  quantityColumn : String
  keyColumn : String
deriving DecidableEq, Repr

/-- A quantity as a parameter: an integer where it is one of 64 bits, or else its exact text. -/
def Decimal.toParameter (d : Decimal) : Json :=
  match d.toInt? with
  | some n =>
    if -(2 ^ 63) ≤ n && n < 2 ^ 63 then .int n else .str d.normalize.toNumeral
  | none => .str d.normalize.toNumeral

namespace Target

/-- The names of a target are well formed. -/
def check (t : Target) : Except Sql.Defect Unit := do
  Sql.checkTableReference t.table
  Sql.checkAlias t.quantityColumn
  Sql.checkAlias t.keyColumn

/-- The statement that writes a value for an item. -/
def statement (t : Target) (d : Sql.Dialect) (strategy : Strategy) (code : String)
    (value : Decimal) : Sql.Query :=
  let written := match strategy with
    | .replace => d.decimalPlaceholder 1
    | .add => t.quantityColumn ++ " + " ++ d.decimalPlaceholder 1
  ⟨"UPDATE " ++ t.table ++ " SET " ++ t.quantityColumn ++ " = " ++ written ++ " WHERE " ++
    t.keyColumn ++ " = " ++ d.placeholder 2, [value.toParameter, .str code]⟩

end Target

section Codec

open Json Json.Decode

/-- Decodes a target. -/
def Target.decode : Decoder Target :=
  record (Target.mk <$> field "table" text <*> field "quantity_column" text
    <*> field "key_column" text)

/-- Decodes what became of an item. -/
def WriteDetail.decode : Decoder WriteDetail :=
  record (WriteDetail.mk <$> field "count_item_id" Id.decode <*> field "item_code" text
    <*> field "value" decimal <*> field "success" bool <*> optField "error" text)

/-- What became of an item as JSON. -/
def WriteDetail.toJson (d : WriteDetail) : Json :=
  ofMembers [("count_item_id", d.item.toJson), ("item_code", .str d.code),
    ("value", d.value.toJson), ("success", .bool d.success), ("error", ofText? d.error)]

/-- An attempt as JSON. -/
def Attempt.toJson (a : Attempt) : Json :=
  ofMembers [("id", a.id.toJson), ("count_id", a.count.toJson), ("version", .int a.version),
    ("status", AttemptStatus.naming.toJson a.status),
    ("strategy", Strategy.naming.toJson a.strategy), ("items_synced", .int a.written),
    ("items_failed", .int a.failed), ("details", ofList WriteDetail.toJson a.details),
    ("duration_ms", .int a.milliseconds), ("triggered_by", a.triggeredBy.toJson),
    ("started_at", a.startedAt.toJson), ("completed_at", a.completedAt.toJson)]

end Codec
end Recount
