import Recount.Count.Variance
import Recount.Count.Basic
import Recount.Database.Column
import Recount.Mapping.Basic
import Recount.WriteBack.Basic

/-!
# Tables

The columns of counts, items, reports, attempts and mappings.
-/

namespace Recount.Database

open Columns ColumnType

/-- The columns of a mark. -/
def markColumns (milestone : Milestone) (get : ρ → Mark) : Columns ρ Mark :=
  let name := Milestone.naming.name milestone
  Mark.mk <$> column (name ++ "_by") (optional id) (fun r => (get r).actor)
    <*> column (name ++ "_at") (optional time) (fun r => (get r).time)

/-- The columns of counts. -/
def countColumns : Columns Count Count :=
  Count.mk <$> column "id" id (·.id) <*> column "tenant_id" id (·.tenant)
    <*> column "warehouse_id" id (·.warehouse) <*> column "sequence_number" int64 (·.sequence)
    <*> column "name" (optional text) (·.name) <*> column "notes" (optional text) (·.notes)
    <*> column "status" (named Status.naming Status.parse) (·.status)
    <*> column "current_version" int32 (·.currentVersion)
    <*> column "total_versions" int32 (·.totalVersions)
    <*> column "created_by" id (·.createdBy) <*> column "created_at" time (·.createdAt)
    <*> markColumns .started (·.started) <*> markColumns .completed (·.completed)
    <*> markColumns .approved (·.approved) <*> markColumns .closed (·.closed)
    <*> markColumns .cancelled (·.cancelled) <*> column "updated_at" time (·.updatedAt)

/-- The columns of items. -/
def itemColumns : Columns Item Item :=
  Item.mk <$> column "id" id (·.id) <*> column "count_id" id (·.count)
    <*> column "location_id" id (·.location) <*> column "item_code" text (·.code)
    <*> column "item_name" text (·.name) <*> column "uom" (optional text) (·.uom)
    <*> column "pack_qty" (optional quantity) (·.packQty)
    <*> column "system_qty" quantity (·.systemQty)
    <*> column "counted_qty" (optional quantity) (·.countedQty)
    <*> column "previous_counted_qty" (optional quantity) (·.previousQty)
    <*> column "version" int32 (·.version)
    <*> column "status" (named ItemStatus.naming ItemStatus.parse) (·.status)
    <*> column "has_variance" bool (·.hasVariance)
    <*> column "difference" (optional quantity) (·.difference)
    <*> column "variance_percent" (optional quantity) (·.variancePercent)
    <*> column "cost" (optional quantity) (·.cost) <*> column "price" (optional quantity) (·.price)
    <*> column "barcodes" (optional text) (·.barcodes)
    <*> column "category" (optional text) (·.category) <*> column "brand" (optional text) (·.brand)
    <*> column "counted_by" (optional id) (·.countedBy)
    <*> column "counted_at" (optional time) (·.countedAt)
    <*> column "created_at" time (·.createdAt) <*> column "updated_at" time (·.updatedAt)

/-- The columns of reports. -/
def reportColumns : Columns Report Report :=
  Report.mk <$> column "id" id (·.id) <*> column "count_id" id (·.count)
    <*> column "count_item_id" id (·.item) <*> column "version" int32 (·.version)
    <*> column "item_code" text (·.code) <*> column "system_qty" quantity (·.systemQty)
    <*> column "counted_qty" quantity (·.countedQty) <*> column "difference" quantity (·.difference)
    <*> column "variance_percent" quantity (·.variancePercent)
    <*> column "status" (named ReportStatus.naming ReportStatus.parse) (·.status)
    <*> column "resolution" (optional text) (·.resolution)
    <*> column "resolved_by" (optional id) (·.resolvedBy)
    <*> column "resolved_at" (optional time) (·.resolvedAt)
    <*> column "created_at" time (·.createdAt) <*> column "updated_at" time (·.updatedAt)

/-- The columns of attempts to write back. -/
def attemptColumns : Columns Attempt Attempt :=
  Attempt.mk <$> column "id" id (·.id) <*> column "count_id" id (·.count)
    <*> column "version" int32 (·.version)
    <*> column "status" (named AttemptStatus.naming AttemptStatus.parse) (·.status)
    <*> column "strategy" (named Strategy.naming Strategy.parse) (·.strategy)
    <*> column "items_synced" int32 (·.written) <*> column "items_failed" int32 (·.failed)
    <*> column "details"
      (document (Json.ofList WriteDetail.toJson) (Json.Decode.list WriteDetail.decode)) (·.details)
    <*> column "duration_ms" int64 (·.milliseconds) <*> column "triggered_by" id (·.triggeredBy)
    <*> column "started_at" time (·.startedAt) <*> column "completed_at" time (·.completedAt)

/-- The columns of mappings. -/
def mappingColumns : Columns Mapping Mapping :=
  Mapping.mk <$> column "id" id (·.id) <*> column "tenant_id" id (·.tenant)
    <*> column "erp_connection_id" id (·.connection)
    <*> column "dataset_type" (named Dataset.naming Dataset.parse) (·.dataset)
    <*> column "name" text (·.name) <*> column "main_table" text (·.mainTable)
    <*> column "joins" (document (Json.ofList Join.toJson) (Json.Decode.list Join.decode)) (·.joins)
    <*> column "field_mappings"
      (document (Json.ofList FieldMapping.toJson) (Json.Decode.list FieldMapping.decode)) (·.fields)
    <*> column "filters" (document (Json.ofList Filter.toJson) (Json.Decode.list Filter.decode))
      (·.filters)
    <*> column "raw_query" (optional text) (·.rawQuery) <*> column "version" int32 (·.version)
    <*> column "is_active" bool (·.isActive) <*> column "created_by" id (·.createdBy)
    <*> column "created_at" time (·.createdAt) <*> column "updated_at" time (·.updatedAt)

end Recount.Database
