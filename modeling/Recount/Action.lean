import Recount.Program
import Recount.Store.Call

/-!
# Actions

What the service does is written as actions: programs that call a store and connections to
planning systems, draw fresh identifiers, read the clock, and succeed or fail with an error.
-/

namespace Recount

/-- A call on a connection to a planning system. A connection has at most one session. -/
inductive ErpCall where
  | connect
  /-- Ends the session, if there is one. -/
  | disconnect
  | test
  | query (query : Sql.Query)

/-- What a call answers when it does not fail. -/
abbrev ErpCall.Result : ErpCall → Type
  | connect => Unit
  | disconnect => Unit
  | test => Bool
  | query _ => List Row

/-- What an action asks for. -/
inductive Request where
  | store (call : StoreCall)
  | erp (connection : Id) (call : ErpCall)
  | freshId
  | now

/-- The answers to requests. -/
abbrev Request.Answer : Request → Type
  | store call => Except Error call.Result
  | erp _ call => Except ErpFault call.Result
  | freshId => Id
  | now => Time

/-- A program that asks for things of some kind, and succeeds or fails with an error. -/
abbrev ActionOver (Q : Type) (A : Q → Type) (α : Type) := ExceptT Error (Program Q A) α

/-- An action with a result. -/
abbrev Action (α : Type) := ActionOver Request Request.Answer α

namespace Action

/-- Makes a call about counts. -/
def counts (call : CountCall) : Action call.Result :=
  ExceptT.mk (.ask (.store (.counts call)) fun answer => .done answer)

/-- Makes a call about mappings. -/
def mappings (call : MappingCall) : Action call.Result :=
  ExceptT.mk (.ask (.store (.mappings call)) fun answer => .done answer)

/-- Makes a call on a connection. -/
def erp (connection : Id) (call : ErpCall) : Action call.Result :=
  ExceptT.mk (.ask (.erp connection call) fun answer => .done (Except.mapError .erp answer))

/-- Draws a fresh identifier. -/
def freshId : Action Id := ExceptT.mk (.ask .freshId fun id => .done (.ok id))

/-- Reads the clock. -/
def now : Action Time := ExceptT.mk (.ask .now fun time => .done (.ok time))

variable {Q : Type} {A : Q → Type} {α : Type}

/-- The result of a check. -/
def check (result : Except Error α) : ActionOver Q A α := ExceptT.mk (.done result)

/-- The result of an arithmetic operation. -/
def arithmetic (result : Except Overflow α) : ActionOver Q A α :=
  ExceptT.mk ((Program.ofArithmetic result).bind fun a => .done (.ok a))

/-- Fails. -/
def fail (e : Error) : ActionOver Q A α := check (.error e)

/-- Takes the result of an action, or its error, without failing. -/
def attempt (action : ActionOver Q A α) : ActionOver Q A (Except Error α) :=
  ExceptT.mk (action.run.bind fun result => .done (.ok result))

/-- A value that has to be there. -/
def require (missing : Missing) : Option α → ActionOver Q A α
  | some a => check (.ok a)
  | none => fail (.missing missing)

/-- A request without faults. -/
def checkFields (faults : List FieldFault) : ActionOver Q A Unit :=
  if faults.isEmpty then check (.ok ()) else fail (.fields faults)

end Action
end Recount
