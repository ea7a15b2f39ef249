import Recount.Count.Request
import Recount.Erp.Session

/-!
# Managing mappings

A mapping is stored only if its query can be written for its connection. At most one mapping of a
data set is active.
-/

namespace Recount

/-- Asks for a new mapping. -/
structure CreateMapping where
  connection : Id
  dataset : Dataset
  name : String
  mainTable : String
  joins : List Join
  fields : List FieldMapping
  filters : List Filter
  rawQuery : Option String
  isActive : Bool

/-- Asks for changes of a mapping; what is not given stays. -/
structure UpdateMapping where
  name : Option String
  mainTable : Option String
  joins : Option (List Join)
  fields : Option (List FieldMapping)
  filters : Option (List Filter)
  /-- The inner want of a query removes the one that is there. -/
  rawQuery : Option (Option String)

/-- The faults of a request. -/
def CreateMapping.faults (r : CreateMapping) : List FieldFault :=
  faultUnless (lengthWithin 1 128 r.name) ⟨"name", "Name required"⟩ ++
  faultUnless (lengthWithin 1 256 r.mainTable) ⟨"main_table", "Main table required"⟩ ++
  faultUnless (!r.fields.isEmpty) ⟨"field_mappings", "At least one field mapping required"⟩

/-- The faults of a request. -/
def UpdateMapping.faults (r : UpdateMapping) : List FieldFault :=
  faultUnless (r.name.all (lengthWithin 1 128)) (.ofCode "name" "length") ++
  faultUnless (r.mainTable.all (lengthWithin 1 256)) (.ofCode "main_table" "length")

namespace Mapping

/-- A query that is nothing but blanks is none. -/
def givenQuery (query : Option String) : Option String := query.filter (!Text.isBlankText ·)

/-- The mapping that a request creates. -/
def ofRequest (r : CreateMapping) (tenant actor id : Id) (time : Time) : Mapping where
  id := id
  tenant := tenant
  connection := r.connection
  dataset := r.dataset
  name := r.name
  mainTable := r.mainTable
  joins := r.joins
  fields := r.fields
  filters := r.filters
  rawQuery := givenQuery r.rawQuery
  version := 1
  isActive := r.isActive
  createdBy := actor
  createdAt := time
  updatedAt := time

/-- The mapping with the changes of a request, in its next version. -/
def withChanges (m : Mapping) (r : UpdateMapping) (time : Time) : Mapping :=
  { m with
    name := r.name.getD m.name
    mainTable := r.mainTable.getD m.mainTable
    joins := r.joins.getD m.joins
    fields := r.fields.getD m.fields
    filters := r.filters.getD m.filters
    rawQuery := (r.rawQuery.map givenQuery).getD m.rawQuery
    version := m.version + 1
    updatedAt := time }

/-- A mapping has targets, a connection, and a query that can be written for it. -/
def checkStorable (connections : Erp.Connections) (m : Mapping) : Except Error Unit := do
  if m.fields.any fun f => Text.isBlankText f.target then .error (.invalid .emptyTarget)
  else
    let dialect ← Erp.dialectOf connections m.connection
    let _ ← Error.ofQuery (Sql.Compiler.compileMapping ⟨dialect, none⟩ m none)

/-- Creates a mapping. -/
def create (connections : Erp.Connections) (tenant : Id) (r : CreateMapping) (actor : Id) :
    Action Mapping := do
  Action.checkFields r.faults
  let time ← Action.now
  let mapping := ofRequest r tenant actor (← Action.freshId) time
  Action.check (mapping.checkStorable connections)
  Action.mappings (.create mapping)

/-- The mappings of a tenant. -/
def list (tenant : Id) (dataset : Option Dataset) : Action (List Mapping) :=
  Action.mappings (.list tenant dataset)

/-- The mapping of a tenant. -/
def get (tenant id : Id) : Action Mapping := do
  Action.require (.mapping id) (← Action.mappings (.get tenant id))

/-- The mapping with an identifier, if one is given. -/
def getGiven (tenant : Id) : Option Id → Action (Option Mapping)
  | some id => some <$> get tenant id
  | none => return none

/-- Changes a mapping. -/
def update (connections : Erp.Connections) (tenant id : Id) (r : UpdateMapping) :
    Action Mapping := do
  Action.checkFields r.faults
  let stored ← get tenant id
  if r.fields.any List.isEmpty then Action.fail (.invalid .noFieldMappings)
  else
    let changed := stored.withChanges r (← Action.now)
    Action.check (changed.checkStorable connections)
    Action.mappings (.update changed)

/-- Makes a mapping active or inactive. -/
def setActive (tenant id : Id) (active : Bool) : Action Mapping :=
  Action.mappings (.setActive tenant id active)

end Mapping

section Codec

open Json Json.Decode

/-- Decodes a request. -/
def CreateMapping.decode : Decoder CreateMapping :=
  record (CreateMapping.mk <$> field "erp_connection_id" Id.decode
    <*> field "dataset_type" Dataset.naming.decode <*> field "name" text
    <*> field "main_table" text <*> fieldWithDefault [] "joins" (list Join.decode)
    <*> field "field_mappings" (list FieldMapping.decode)
    <*> fieldWithDefault [] "filters" (list Filter.decode)
    <*> fieldWithDefault none "raw_query" (optional text)
    <*> fieldWithDefault false "is_active" bool)

/-- Decodes a request. -/
def UpdateMapping.decode : Decoder UpdateMapping :=
  record (UpdateMapping.mk <$> optField "name" text <*> optField "main_table" text
    <*> optField "joins" (list Join.decode) <*> optField "field_mappings" (list FieldMapping.decode)
    <*> optField "filters" (list Filter.decode)
    <*> fieldWithDefault none "raw_query" fun draft => (optional text draft).map some)

end Codec
end Recount
