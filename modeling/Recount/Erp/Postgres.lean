import Recount.Action

/-!
# Planning systems on PostgreSQL servers

A connection to a planning system that keeps its data on a PostgreSQL server. The calls on it are
carried out by calls on the server. What a query answers is turned into rows of JSON, in which a
cell whose type is not known is null.
-/

namespace Recount.Erp.Postgres

/-- A call on a server. -/
inductive Call where
  | start
  | query (query : Sql.Query)

/-- What a query answers: the names and types of the columns, and the rows. -/
structure Result where
  columns : List (String × String)
  rows : List (List Json)

/-- The answers to calls. -/
abbrev Call.Answer : Call → Type
  | start => Except DatabaseFault Unit
  | query _ => Except DatabaseFault Result

/-- A parameter as it is sent. Integers beyond 64 bits with sign are sent as doubles, and arrays and
objects as texts. -/
def parameter : Json → Json
  | .num (.int n) => if n < 2 ^ 63 then .int n else .num (.double (.ofNat n.toNat))
  | .arr items => .str (Json.arr items).print
  | .obj members => .str (Json.obj members).print
  | value => value

/-- A double, unless JSON has no number for it. -/
def doubleCell (cell : Json) : Json :=
  match Json.Decode.ofJson? Json.Decode.double cell with
  | some x => .num (.double x)
  | none => .null

/-- A quantity as the shortest text of its value. -/
def quantityCell (cell : Json) : Json :=
  match Json.Decode.ofJson? Json.Decode.decimal cell with
  | some d => d.normalize.toJson
  | none => .null

/-- The value of a cell in a column of a type. -/
def cell (type : String) (cell : Json) : Json :=
  match type with
  | "text" | "varchar" | "bpchar" | "name" | "int4" | "int8" | "bool" => cell
  | "numeric" => quantityCell cell
  | "float8" => doubleCell cell
  | "uuid" => Json.ofOption Id.toJson (Json.Decode.ofJson? Id.decode cell)
  | _ => .null

/-- A row keyed by the names of its columns; of columns with one name the last one counts. -/
def row (columns : List (String × String)) (cells : List Json) : Row :=
  (columns.zip cells).foldl (fun row ((name, type), value) =>
    Json.insertMember name (cell type value) row) []

/-- The rows of a result. -/
def Result.toRows (r : Result) : List Row := r.rows.map (row r.columns)

/-- A program that carries out a call. Its result says as well whether there is a session then. -/
abbrev Performing (α : Type) := Program Call Call.Answer (Except ErpFault α × Bool)

/-- Starts a session, unless there is one. -/
def connect (isOpen : Bool) : Performing Unit :=
  if isOpen then .done (.ok (), true)
  else .ask .start fun
    | .ok () => .done (.ok (), true)
    | .error fault => .done (.error (.connecting fault.message), false)

/-- Runs a query in the session. -/
def runQuery (isOpen : Bool) (q : Sql.Query) : Performing (List Row) :=
  if isOpen then .ask (.query ⟨q.sql, q.parameters.map parameter⟩) fun
    | .ok result => .done (.ok result.toRows, true)
    | .error fault => .done (.error (.querying fault.message), true)
  else .done (.error .notOpen, false)

/-- The query that tests a session. -/
def testQuery : Sql.Query := ⟨"SELECT 1 AS ok", []⟩

/-- Tests the session; a query that fails is a test that fails. -/
def test (isOpen : Bool) : Performing Bool :=
  (runQuery isOpen testQuery).bind fun (answer, isOpen) => .done (.ok answer.toBool, isOpen)

/-- Carries out a call. -/
def perform (isOpen : Bool) : (call : ErpCall) → Performing call.Result
  | .connect => connect isOpen
  | .disconnect => .done (.ok (), false)
  | .test => test isOpen
  | .query q => runQuery isOpen q

end Recount.Erp.Postgres
