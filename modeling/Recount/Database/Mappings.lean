import Recount.Database.Counts

/-!
# Mappings in a database

The calls about mappings, as statements. A mapping becomes active in one transaction with the
others becoming inactive.
-/

namespace Recount.Database

open Client

/-- Makes the other mappings of a tenant and data set inactive. -/
def deactivateSiblings (m : Mapping) : Client Unit := do
  let _ ← send
    ("UPDATE mapping_configs SET is_active = FALSE, updated_at = NOW() WHERE tenant_id = $1 AND " ++
      "dataset_type = $2 AND id <> $3 AND is_active")
    [.id m.tenant, .text m.dataset.name, .id m.id]

/-- Creates a mapping. -/
def createMapping (m : Mapping) : Client Mapping := do
  let row ← transaction do
    if m.isActive then deactivateSiblings m
    orClash .activeMapping
      (firstRow (insertion mappingColumns "mapping_configs" ++ returning mappingColumns)
        (mappingColumns.parameters m))
  Action.check (mappingColumns.read row)

/-- The mapping of a tenant. -/
def getMapping (tenant mapping : Id) : Client (Option Mapping) :=
  first? mappingColumns (selection mappingColumns "mapping_configs" ofTenant)
    [.id mapping, .id tenant]

/-- The mappings of a tenant, the latest change first. -/
def listMappings (tenant : Id) (dataset : Option Dataset) : Client (List Mapping) :=
  all mappingColumns
    (selection mappingColumns "mapping_configs"
      "tenant_id = $1 AND ($2::TEXT IS NULL OR dataset_type = $2) ORDER BY updated_at DESC")
    [.id tenant, optional (fun d => .text d.name) dataset]

/-- The columns that a change of a mapping writes. -/
def changedColumns : List String :=
  ["name", "main_table", "joins", "field_mappings", "filters", "raw_query", "version", "is_active",
    "updated_at"]

/-- Stores a mapping in the place of the one with its identifier. -/
def updateMapping (m : Mapping) : Client Mapping := do
  let row ← transaction do
    if m.isActive then deactivateSiblings m
    let parameters := (mappingColumns.names.zip (mappingColumns.parameters m)).filter fun (name, _) =>
      changedColumns.contains name
    let row? ← orClash .activeMapping
      (firstRow?
        ("UPDATE mapping_configs SET " ++ assignments changedColumns ++
          " WHERE id = $10 AND tenant_id = $11" ++ returning mappingColumns)
        (parameters.map (·.2) ++ [.id m.id, .id m.tenant]))
    Action.require (.mapping m.id) row?
  Action.check (mappingColumns.read row)

/-- Makes a mapping active or inactive. -/
def setActive (tenant mapping : Id) (active : Bool) : Client Mapping := do
  let row ← transaction do
    let m ← Action.require (.mapping mapping)
      (← first? mappingColumns
        (selection mappingColumns "mapping_configs" (ofTenant ++ " FOR UPDATE"))
        [.id mapping, .id tenant])
    if active then deactivateSiblings m
    orClash .activeMapping
      (firstRow
        ("UPDATE mapping_configs SET is_active = $1, updated_at = NOW() WHERE id = $2" ++
          returning mappingColumns)
        [.bool active, .id mapping])
  Action.check (mappingColumns.read row)

/-- The active mapping of a data set. -/
def findActive (tenant : Id) (dataset : Dataset) : Client (Option Mapping) :=
  first? mappingColumns
    (selection mappingColumns "mapping_configs"
      "tenant_id = $1 AND dataset_type = $2 AND is_active")
    [.id tenant, .text dataset.name]

/-- Answers a call about mappings. -/
def answerMappings : (call : MappingCall) → Client call.Result
  | .create mapping => createMapping mapping
  | .get tenant mapping => getMapping tenant mapping
  | .list tenant dataset => listMappings tenant dataset
  | .update mapping => updateMapping mapping
  | .setActive tenant mapping active => setActive tenant mapping active
  | .findActive tenant dataset => findActive tenant dataset

/-- Answers a call. -/
def answer : (call : StoreCall) → Client call.Result
  | .counts call => answerCounts call
  | .mappings call => answerMappings call

end Recount.Database
