import Recount.Action

/-!
# Sessions with planning systems

All work on a connection is done inside a session, which is ended whatever becomes of the work. A
failure to end it changes nothing.
-/

namespace Recount.Erp

/-- The connections that there are, with the dialects that they speak. -/
abbrev Connections := List (Id × Sql.Dialect)

/-- The dialect of a connection. -/
def dialectOf (connections : Connections) (connection : Id) : Except Error Sql.Dialect :=
  match connections.find? (·.1 = connection) with
  | some (_, dialect) => .ok dialect
  | none => .error (.missing (.connection connection))

/-- Works inside a session. -/
def withSession (connection : Id) (work : Action α) : Action α := do
  let opened ← Action.attempt (Action.erp connection .connect)
  let result ← match opened with
    | .ok () => Action.attempt work
    | .error e => pure (.error e)
  let _ ← Action.attempt (Action.erp connection .disconnect)
  Action.check result

/-- Runs one query in a session of its own. -/
def runQuery (connection : Id) (query : Sql.Query) : Action (List Row) :=
  withSession connection (Action.erp connection (.query query))

/-- What came of a test. -/
structure TestResult where
  success : Bool
  message : String

/-- The report of a test. -/
def TestResult.ofAnswer : Except Error Bool → TestResult
  | .ok true => ⟨true, "Successfully connected to ERP database"⟩
  | .ok false => ⟨false, "Connection failed - ERP database did not answer the test query"⟩
  | .error e => ⟨false, "Connection test failed: " ++ e.message⟩

/-- Tests a connection. -/
def testConnection (connections : Connections) (connection : Id) : Action TestResult := do
  let _ ← Action.check (dialectOf connections connection)
  return .ofAnswer
    (← Action.attempt (withSession connection (Action.erp connection .test)))

/-- Asks a connection for its tables. -/
def fetchCatalog (connections : Connections) (connection : Id) : Action Sql.Catalog := do
  let dialect ← Action.check (dialectOf connections connection)
  return .ofRows (← runQuery connection ⟨Sql.Catalog.introspection dialect, []⟩)

open Json

/-- The result of a test as JSON. -/
def TestResult.toJson (r : TestResult) : Json :=
  ofMembers [("success", .bool r.success), ("message", .str r.message)]

/-- The tables of a connection as JSON. -/
def catalogJson (connection : Id) (c : Sql.Catalog) : Json :=
  ofMembers [("erp_connection_id", connection.toJson), ("table_count", .nat c.tables.length),
    ("tables", ofList .str c.tables)]

end Recount.Erp
