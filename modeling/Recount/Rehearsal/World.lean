import Recount.Rehearsal.Server
import Recount.Rehearsal.StandIn
import Recount.Store.Mappings

/-!
# Rehearsals

The service is rehearsed in a world without systems: counts are kept in memory or asked of a
scripted database, planning systems follow scripts, identifiers are numbered, and the clock goes
on by a second with each look at it.
-/

namespace Recount.Rehearsal

/-- Where counts and mappings are kept. -/
inductive Keeping where
  | memory (store : Store)
  /-- A database whose answers are scripted. -/
  | server (server : Server)
  /-- A database that cannot be reached. -/
  | closed

/-- The state of a rehearsal. -/
structure World where
  keeping : Keeping
  standIns : List StandIn := []
  /-- The second that the clock shows at first. -/
  start : Nat
  /-- How often identifiers or times were drawn. -/
  tick : Nat := 0
  /-- What planning systems were asked, the latest first. -/
  calls : List (Id × ErpCall) := []

namespace World

/-- The identifier before the first one that is drawn. -/
def firstId : Nat := 0x7a11000000004000a000000000000000

/-- The identifiers and times that are drawn at a tick. A reading of the clock is not a whole
number of microseconds, which tells it from a time that was stored before. -/
def supply (start tick : Nat) : Supply where
  id k := .ofNat (firstId + tick * 2 ^ 20 + k)
  time k := ⟨start + tick, k * 1000 + 1⟩

/-- The time is a reading of the clock. -/
def isReading (t : Time) : Bool := t.nanos % 1000 ≠ 0

/-- Answers a call on the store. -/
def answerStore (w : World) (call : StoreCall) :
    Except Overflow (Except Error call.Result) × World :=
  match w.keeping with
  | .closed => (.ok (.error (.database .closed)), w)
  | .memory store =>
    let (answer, store) := store.step (supply w.start w.tick) call
    (answer, { w with keeping := .memory store, tick := w.tick + 1 })
  | .server server =>
    let (answer, server) := (Database.answer call).run.run (Server.serve (supply w.start))
      { server with tick := w.tick }
    (answer, { w with keeping := .server server, tick := server.tick })

/-- Answers a call on a planning system. -/
def answerErp (w : World) (id : Id) (call : ErpCall) : Except ErpFault call.Result × World :=
  match w.standIns.find? (·.id = id) with
  | none => (.error .notOpen, w)
  | some s =>
    let (answer, s) := s.perform call
    (answer, { w with
      calls := s.calls.map (fun call => (id, call)) ++ w.calls
      standIns := putBy StandIn.id { s with calls := [] } w.standIns })

/-- Answers a request. -/
def handle : (request : Request) → World → Except Overflow request.Answer × World
  | .store call, w => w.answerStore call
  | .erp id call, w =>
    let (answer, w) := w.answerErp id call
    (.ok answer, w)
  | .freshId, w => (.ok ((supply w.start w.tick).id 0), { w with tick := w.tick + 1 })
  | .now, w => (.ok ((supply w.start w.tick).time 0), { w with tick := w.tick + 1 })

/-- What the database was asked, in order. -/
def databaseCalls (w : World) : List Database.Call :=
  match w.keeping with
  | .server server => server.calls.reverse
  | _ => []

/-- The world with nothing noted. -/
def unnoted (w : World) : World :=
  { w with
    calls := []
    keeping := match w.keeping with
      | .server server => .server { server with calls := [] }
      | keeping => keeping }

/-- The connections to the systems. -/
def connections (w : World) : List (Id × Sql.Dialect) := w.standIns.map fun s => (s.id, s.dialect)

end World
end Recount.Rehearsal
