import Recount.Mapping.Manage

/-!
# Previews

The first rows that a stored mapping, a specification or a template would read.
-/

namespace Recount.Erp

/-- The most rows that a preview shows. -/
def previewLimit : Nat := 100

/-- Asks for a preview. -/
structure PreviewRequest where
  connection : Option Id
  mapping : Option Id
  spec : Option Sql.QuerySpec
  template : Option Sql.TemplateQuery
  limit : Option Nat
  /-- Tables are checked against those that the connection has. -/
  usesCatalog : Bool

/-- The rows that a query reads. -/
structure Preview where
  sql : String
  columns : List String
  rows : List Row

/-- The query of what is to be previewed: the mapping, or else the specification, or else the
template. -/
def previewQuery (compiler : Sql.Compiler) (mapping : Option Mapping) (r : PreviewRequest)
    (limit : Nat) : Except Error Sql.Query :=
  match mapping, r.spec, r.template with
  | some m, _, _ => Error.ofQuery (compiler.compileMapping m (some limit))
  | none, some spec, _ => Error.ofQuery (compiler.compile { spec with limit := some limit })
  | none, none, some template => Error.ofQuery (compiler.compileTemplate template (some limit))
  | none, none, none => .error (.invalid .noPreviewSource)

/-- Shows the first rows of a query. -/
def preview (connections : Connections) (tenant : Id) (r : PreviewRequest) : Action Preview := do
  let limit := min (r.limit.getD previewLimit) previewLimit
  let mapping ← Mapping.getGiven tenant r.mapping
  let some connection := r.connection.or (mapping.map (·.connection))
    | Action.fail (.invalid .noPreviewConnection)
  let dialect ← Action.check (dialectOf connections connection)
  let catalog ←
    if r.usesCatalog then some <$> fetchCatalog connections connection else pure none
  let query ← Action.check (previewQuery ⟨dialect, catalog⟩ mapping r limit)
  let rows := (← runQuery connection query).take limit
  return ⟨query.sql, (rows.head?.getD []).map (·.1), rows⟩

open Json Json.Decode

/-- Decodes a request. -/
def PreviewRequest.decode : Decoder PreviewRequest :=
  record (PreviewRequest.mk <$> fieldWithDefault none "erp_connection_id" (optional Id.decode)
    <*> fieldWithDefault none "mapping_id" (optional Id.decode)
    <*> fieldWithDefault none "spec" (optional Sql.QuerySpec.decode)
    <*> fieldWithDefault none "template" (optional Sql.TemplateQuery.decode)
    <*> fieldWithDefault none "limit" Sql.decodeLimit
    <*> fieldWithDefault false "use_catalog" bool)

/-- A preview as JSON. -/
def Preview.toJson (p : Preview) : Json :=
  ofMembers [("sql", .str p.sql), ("columns", ofList .str p.columns),
    ("rows", ofList ofMembers p.rows), ("row_count", .nat p.rows.length)]

end Recount.Erp
