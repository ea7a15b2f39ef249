import Recount.Erp.Postgres
import Recount.Rehearsal.Script

/-!
# Stand-ins for planning systems

A stand-in answers for a planning system by a script, and notes what it is asked. A system on a
PostgreSQL server is asked by way of a connection to such a server, and its script holds what the
server answers.
-/

namespace Recount.Rehearsal

/-- What stands in for a planning system. -/
structure StandIn where
  id : Id
  dialect : Sql.Dialect := .postgres
  /-- The script is that of a PostgreSQL server. -/
  isServer : Bool := false
  script : Script := []
  connectFault : Option String := none
  disconnectFault : Option String := none
  testFault : Option String := none
  testResult : Bool := true
  /-- There is a session with the server. -/
  isOpen : Bool := false
  /-- What the system was asked, the latest first. -/
  calls : List ErpCall := []

namespace StandIn

/-- Notes a call. -/
def note (s : StandIn) (call : ErpCall) : StandIn := { s with calls := call :: s.calls }

/-- An answer, unless there is a fault to report in its place. -/
def orFault (fault : Option String) (a : α) : Except ErpFault α :=
  fault.elim (.ok a) fun message => .error (.reported message)

/-- The entry for a query, and the system after its use. -/
def take (s : StandIn) (q : Sql.Query) : Option Entry × StandIn :=
  let fits (e : Entry) := e.matchesText q.sql &&
    e.parameter.all fun value => q.parameters.any (·.print == value.print)
  let (entry, script) := s.script.take fits
  (entry, { s.note (.query q) with script })

/-- Answers a call by the script. -/
def answer (s : StandIn) : (call : ErpCall) → Except ErpFault call.Result × StandIn
  | .connect => (orFault s.connectFault (), s.note .connect)
  | .disconnect => (orFault s.disconnectFault (), s.note .disconnect)
  | .test => (orFault s.testFault s.testResult, s.note .test)
  | .query q =>
    match s.take q with
    | (none, s) => (.ok [], s)
    | (some e, s) => (orFault e.refusal (e.rows.map Json.members), s)

open Erp.Postgres in
/-- Answers a call on the server by the script. -/
def serve : (call : Call) → StandIn → Except Overflow call.Answer × StandIn
  | .start, s =>
    (.ok (s.connectFault.elim (.ok ()) fun message => .error (.server "XX000" message)),
      s.note .connect)
  | .query q, s =>
    match s.take q with
    | (none, s) => (.ok (.ok ⟨[], []⟩), s)
    | (some e, s) =>
      match e.refusal with
      | some message => (.ok (.error (.server e.code message)), s)
      | none => (.ok (.ok ⟨e.columns, e.rows.map Json.elements⟩), s)

/-- Carries out a call. -/
def perform (s : StandIn) (call : ErpCall) : Except ErpFault call.Result × StandIn :=
  if s.isServer then
    match (Erp.Postgres.perform s.isOpen call).run serve s with
    | (.ok (answer, isOpen), s) => (answer, { s with isOpen })
    | (.error _, s) => (.error .notOpen, s)
  else s.answer call

open Json Json.Decode

/-- A stand-in by the fields in which it is written. -/
def ofFields (id : Id) (dialect : Option Sql.Dialect) (isServer : Option Bool) (script : Script)
    (connectFault disconnectFault testFault : Option String) (testResult : Option Bool) :
    StandIn where
  id := id
  dialect := dialect.getD .postgres
  isServer := isServer.getD false
  script := script
  connectFault := connectFault
  disconnectFault := disconnectFault
  testFault := testFault
  testResult := testResult.getD true

/-- Decodes the name of a dialect. -/
def dialectDecode : Decoder Sql.Dialect := textAs fun name => (Sql.Dialect.parse name).toOption

/-- Decodes a stand-in. -/
def decode : Decoder StandIn :=
  record (ofFields <$> field "id" Id.decode <*> optField "dialect" dialectDecode
    <*> optField "pg" bool <*> Script.field "script" <*> optField "fail_connect" text
    <*> optField "fail_disconnect" text <*> optField "fail_test" text <*> optField "test" bool)

/-- A call as JSON. -/
def callJson (id : Id) (call : ErpCall) : Json :=
  let members (action : String) := [("on", id.toJson), ("do", .str action)]
  ofMembers (match call with
    | .connect => members "connect"
    | .disconnect => members "disconnect"
    | .test => members "test"
    | .query q => members "query" ++ [("sql", .str q.sql), ("params", .arr q.parameters)])

end StandIn
end Recount.Rehearsal
