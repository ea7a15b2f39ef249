import Recount.Load.Transform

/-!
# Batches of records

The records that the rows of one source make, with the rows that could not be used.
-/

namespace Recount

/-- The records of a source. -/
structure Batch where
  records : List ItemRecord := []
  rowsRead : Nat := 0
  /-- Rows without a code. -/
  rowsDropped : Nat := 0
  rowErrors : List RowError := []

namespace Batch

/-- The records of rows, which are numbered from one on. -/
def ofRows (fields : List FieldMapping) (rows : List Row) : Batch :=
  let results := rows.zipIdx.map fun (row, index) => (index + 1, Transform.ofRow fields row)
  { records := results.filterMap fun (_, result) => result.toOption.join
    rowsRead := rows.length
    rowsDropped := results.countP fun (_, result) =>
      match result with
      | .ok none => true
      | _ => false
    rowErrors := results.filterMap fun (number, result) =>
      match result with
      | .ok _ => none
      | .error defect => some ⟨number, defect.message⟩ }

/-- The records of two sources, one after the other. -/
def append (a b : Batch) : Batch where
  records := a.records ++ b.records
  rowsRead := a.rowsRead + b.rowsRead
  rowsDropped := a.rowsDropped + b.rowsDropped
  rowErrors := a.rowErrors ++ b.rowErrors

/-- The records without their quantities. -/
def withoutQuantities (b : Batch) : Batch :=
  { b with records := b.records.map fun r => { r with systemQty := none } }

end Batch
end Recount
