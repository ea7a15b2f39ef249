import Recount.Action
import Recount.Database.Tables

/-!
# Calls on a database

A database is asked to start a transaction, to commit it, or to carry out a statement. A
transaction that is not committed comes to nothing.
-/

namespace Recount.Database

/-- A statement with the values of its placeholders. -/
structure Statement where
  text : String
  parameters : List Parameter

/-- What a statement that is carried out answers. -/
structure Reply where
  rows : List Row
  /-- The number of rows that it wrote. -/
  affected : Nat

/-- What a client of a database asks for. -/
inductive Call where
  | start
  | commit
  | send (statement : Statement)
  | freshId
  | now

/-- The answers to calls. -/
abbrev Call.Answer : Call → Type
  | start => Except DatabaseFault Unit
  | commit => Except DatabaseFault Unit
  | send _ => Except DatabaseFault Reply
  | freshId => Id
  | now => Time

/-- An action of a client. -/
abbrev Client (α : Type) := ActionOver Call Call.Answer α

namespace Client

/-- Carries out a statement. -/
def send (text : String) (parameters : List Parameter) : Client Reply :=
  ExceptT.mk (.ask (.send ⟨text, parameters⟩) fun answer => .done (answer.mapError .database))

/-- Draws a fresh identifier. -/
def freshId : Client Id := ExceptT.mk (.ask .freshId fun id => .done (.ok id))

/-- Reads the clock. -/
def now : Client Time := ExceptT.mk (.ask .now fun time => .done (.ok time))

/-- Does work that takes effect as a whole or, if it fails, not at all. -/
def transaction (work : Client α) : Client α := do
  ExceptT.mk (.ask .start fun answer => .done (answer.mapError .database))
  let result ← work
  ExceptT.mk (.ask .commit fun answer => .done (answer.mapError .database))
  return result

/-- All records that a statement answers. -/
def all (columns : Columns ρ α) (text : String) (parameters : List Parameter) :
    Client (List α) := do
  let reply ← send text parameters
  Action.check (reply.rows.mapM columns.read)

/-- The first row that a statement answers, if there is one. -/
def firstRow? (text : String) (parameters : List Parameter) : Client (Option Row) := do
  return (← send text parameters).rows.head?

/-- The first row that a statement answers. -/
def firstRow (text : String) (parameters : List Parameter) : Client Row := do
  match ← firstRow? text parameters with
  | some row => return row
  | none => Action.fail (.database .noRow)

/-- The record that a statement answers, if there is one. -/
def first? (columns : Columns ρ α) (text : String) (parameters : List Parameter) :
    Client (Option α) := do
  match ← firstRow? text parameters with
  | some row => some <$> Action.check (columns.read row)
  | none => return none

/-- The record that a statement answers. -/
def first (columns : Columns ρ α) (text : String) (parameters : List Parameter) : Client α := do
  Action.check (columns.read (← firstRow text parameters))

/-- Takes the refusal of a second row with a unique key for a clash. -/
def orClash (clash : Clash) (work : Client α) : Client α := do
  match ← Action.attempt work with
  | .error (.database (.server code message)) =>
    if code = DatabaseFault.uniqueViolation then Action.fail (.clash clash)
    else Action.fail (.database (.server code message))
  | result => Action.check result

end Client

/-- The placeholder of the parameter at a place, counted from one. -/
def placeholder (index : Nat) : String := "$" ++ toString index

/-- The placeholders of so many parameters. -/
def placeholders (count : Nat) : String :=
  Text.join ", " ((List.range count).map fun i => placeholder (i + 1))

/-- Sets columns to the parameters at the places from the first one on. -/
def assignments (columns : List String) : String :=
  Text.join ", " ((columns.zipIdx 1).map fun (name, index) => name ++ " = " ++ placeholder index)

/-- Sets columns to what a row that is already there would have been given. -/
def refreshments (columns : List String) : String :=
  Text.join ", " (columns.map fun name => name ++ " = EXCLUDED." ++ name)

/-- The text that selects rows of a table. -/
def selection (columns : Columns ρ α) (table condition : String) : String :=
  "SELECT " ++ columns.list ++ " FROM " ++ table ++ " WHERE " ++ condition

/-- The text that inserts a whole row. -/
def insertion (columns : Columns ρ α) (table : String) : String :=
  "INSERT INTO " ++ table ++ " (" ++ columns.list ++ ") VALUES (" ++
    placeholders columns.names.length ++ ")"

/-- The text that lets a statement answer the rows that it wrote. -/
def returning (columns : Columns ρ α) : String := " RETURNING " ++ columns.list

end Recount.Database
