import Recount.Counting.Lifecycle
import Recount.Load.Batch
import Recount.Loading.Store
import Recount.Mapping.Manage
import Recount.Settings
import Recount.Text.Log

/-!
# Loading items

Items are loaded through a mapping that is named, or from the first source that can be read: the
active mappings, a table that is read without mapping, or nowhere at all.
-/

namespace Recount.Loading

/-- What loads work with. -/
structure Sources where
  connections : Erp.Connections
  settings : LoadSettings

/-- Asks for items to be loaded. -/
structure LoadRequest where
  /-- The only mapping to use. -/
  mapping : Option Id
  /-- Where the items are; by default the warehouse of the count. -/
  location : Option Id
  limit : Option Nat

/-- The number of rows to read at most. -/
def rowLimit (sources : Sources) (requested : Option Nat) : Except Error Nat :=
  (Error.ofQuery (Sql.checkLimit requested)).map fun _ =>
    requested.getD sources.settings.rowLimit

/-- Reads the rows of a mapping in a session of its own. -/
def loadMapping (sources : Sources) (m : Mapping) (limit : Nat) : Action Batch := do
  let dialect ← Action.check (Erp.dialectOf sources.connections m.connection)
  let query ← Action.check
    (Error.ofQuery (Sql.Compiler.compileMapping ⟨dialect, none⟩ m (some limit)))
  return .ofRows m.fields (← Erp.runQuery m.connection query)

/-- Reads what enriches items, if there is an active mapping for it; quantities are passed over. -/
def loadExtra (sources : Sources) (tenant : Id) (limit : Nat) (dataset : Dataset) :
    Action Batch := do
  match ← Action.mappings (.findActive tenant dataset) with
  | some m => return (← loadMapping sources m limit).withoutQuantities
  | none => return {}

/-- Reads the active mappings; those of items and of stock must both be there. Quantities are
those of the stock. -/
def loadConfigured (sources : Sources) (tenant : Id) (limit : Nat) : Action (Option Batch) := do
  let items ← Action.mappings (.findActive tenant .items)
  let stock ← Action.mappings (.findActive tenant .stock)
  match items, stock with
  | some items, some stock =>
    let described := (← loadMapping sources items limit).withoutQuantities
    let stocked ← loadMapping sources stock limit
    let cost ← loadExtra sources tenant limit .cost
    let price ← loadExtra sources tenant limit .price
    return some (((described.append stocked).append cost).append price)
  | _, _ => return none

/-- Reads the table that is set up to be read without mapping. -/
def loadLegacy (sources : Sources) (limit : Nat) : Action (Option Batch) := do
  match sources.settings.legacyTable, sources.settings.connection with
  | some table, some connection =>
    let dialect ← Action.check (Erp.dialectOf sources.connections connection.id)
    let sql ← Action.check (Error.ofQuery
      (Sql.Template.render Sql.Template.wholeRowsKey dialect ⟨table, none, some limit⟩))
    return some (.ofRows [] (← Erp.runQuery connection.id ⟨sql, []⟩))
  | _, _ => return none

/-- The report of a source that was tried; `absent` says why it could not be. -/
def attemptedOf (source : Source) (absent : String) : Except Error (Option Batch) → Attempted
  | .ok (some batch) => ⟨source, true, toString batch.rowsRead ++ " rows read"⟩
  | .ok none => ⟨source, false, absent⟩
  | .error e => ⟨source, false, e.message⟩

/-- Stores a batch. -/
def storeBatch (count : Count) (location : Id) (source : Source) (attempts : List Attempted)
    (batch : Batch) : Action Summary :=
  storeRecords count location
    { source, version := count.currentVersion, rowsRead := batch.rowsRead
      rowsDropped := batch.rowsDropped, rowErrors := batch.rowErrors, attempts } batch.records

/-- Tries sources in their order and stores what the first one that can be read gives. Where none
can be read, items are left to be entered by hand. -/
def loadFirst (count : Count) (location : Id) (attempts : List Attempted) :
    List (Source × String × Action (Option Batch)) → Action Summary
  | [] =>
    let manual : Attempted := ⟨.manualEntry, true, "Items must be entered manually"⟩
    return { source := .manualEntry, version := count.currentVersion
             attempts := attempts ++ [manual] }
  | (source, absent, load) :: others => do
    let result ← Action.attempt load
    let attempts := attempts ++ [attemptedOf source absent result]
    match result with
    | .ok (some batch) => storeBatch count location source attempts batch
    | _ => loadFirst count location attempts others

/-- The sources that are tried when no mapping is named. -/
def sourcesInOrder (sources : Sources) (tenant : Id) (limit : Nat) :
    List (Source × String × Action (Option Batch)) :=
  [(.configuredMappings, "ITEMS and STOCK mappings must both be active",
      loadConfigured sources tenant limit),
    (.legacyTable, "No legacy items table configured", loadLegacy sources limit)]

/-- Loads items into the current version of a count. -/
def loadItems (sources : Sources) (tenant count : Id) (r : LoadRequest) : Action Summary := do
  let seen ← Counting.editableCount tenant count
  let location := r.location.getD seen.warehouse
  let limit ← Action.check (rowLimit sources r.limit)
  match r.mapping with
  | some id =>
    let m ← Mapping.get tenant id
    let batch ← loadMapping sources m limit
    let attempted : Attempted :=
      ⟨.mapping, true, "Loaded with mapping '" ++ Text.harmless m.name ++ "'"⟩
    storeBatch seen location .mapping [attempted] batch
  | none => loadFirst seen location [] (sourcesInOrder sources tenant limit)

open Json Json.Decode

/-- Decodes a request. -/
def LoadRequest.decode : Decoder LoadRequest :=
  record (LoadRequest.mk <$> fieldWithDefault none "mapping_id" (optional Id.decode)
    <*> fieldWithDefault none "location_id" (optional Id.decode)
    <*> fieldWithDefault none "limit" Sql.decodeLimit)

end Recount.Loading
