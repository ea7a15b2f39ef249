import Recount.Mapping.Parts
import Recount.Id
import Recount.Time

/-!
# Mappings

A stored mapping of one data set of a tenant. At most one mapping of each data set is active.
-/

namespace Recount

/-- How one data set of a tenant is read. -/
structure Mapping where
  id : Id
  tenant : Id
  /-- The connection that the data set is read over. -/
  connection : Id
  dataset : Dataset
  name : String
  mainTable : String
  joins : List Join
  fields : List FieldMapping
  filters : List Filter
  /-- A query to use instead of the compiled one. -/
  rawQuery : Option String
  version : Int
  isActive : Bool
  createdBy : Id
  createdAt : Time
  updatedAt : Time

namespace Mapping

/-- The source of the first field mapping onto a target, whatever the case of its letters. -/
def sourceFor? (m : Mapping) (target : String) : Option String :=
  (m.fields.find? fun f => Text.eqIgnoringAsciiCase f.target target).map (·.source)

open Json Json.Decode in
/-- Decodes a mapping. -/
def decode : Decoder Mapping :=
  record (Mapping.mk <$> field "id" Id.decode <*> field "tenant_id" Id.decode
    <*> field "erp_connection_id" Id.decode <*> field "dataset_type" Dataset.naming.decode
    <*> field "name" text <*> field "main_table" text <*> field "joins" (list Join.decode)
    <*> field "field_mappings" (list FieldMapping.decode)
    <*> field "filters" (list Filter.decode) <*> optField "raw_query" text
    <*> field "version" int32 <*> field "is_active" bool <*> field "created_by" Id.decode
    <*> field "created_at" Time.decode <*> field "updated_at" Time.decode)

open Json in
/-- A mapping as JSON. -/
def toJson (m : Mapping) : Json :=
  ofMembers [("id", m.id.toJson), ("tenant_id", m.tenant.toJson),
    ("erp_connection_id", m.connection.toJson),
    ("dataset_type", Dataset.naming.toJson m.dataset), ("name", .str m.name),
    ("main_table", .str m.mainTable), ("joins", ofList Join.toJson m.joins),
    ("field_mappings", ofList FieldMapping.toJson m.fields),
    ("filters", ofList Filter.toJson m.filters), ("raw_query", ofText? m.rawQuery),
    ("version", .int m.version), ("is_active", .bool m.isActive),
    ("created_by", m.createdBy.toJson), ("created_at", m.createdAt.toJson),
    ("updated_at", m.updatedAt.toJson)]

end Mapping
end Recount
