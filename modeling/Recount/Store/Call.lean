import Recount.Count.Transition
import Recount.Count.Variance
import Recount.Mapping.Basic
import Recount.WriteBack.Basic

/-!
# Calls on a store

Counts with all that belongs to them, and mappings, are kept in a store. A store answers calls,
one at a time, and each call is answered as a whole or refused.
-/

namespace Recount

/-- A count that is to be created. -/
structure NewCount where
  tenant : Id
  warehouse : Id
  name : Option String
  notes : Option String
  createdBy : Id

/-- What becomes of the report of an item when a quantity is recorded. -/
inductive ReportChange where
  | put (report : Report)
  /-- A report that is still pending is removed. -/
  | clear

/-- The change that a report, or the want of one, makes. -/
def ReportChange.ofReport? : Option Report → ReportChange
  | some report => put report
  | none => clear

/-- Whether an item was new to the store. -/
inductive UpsertOutcome where
  | inserted
  | updated
deriving DecidableEq, Repr

/-- A call about counts. -/
inductive CountCall where
  | create (new : NewCount)
  | get (tenant count : Id)
  | list (tenant : Id) (status : Option Status)
  | change (tenant count : Id) (transition : Transition)
  | delete (tenant count : Id) (allowed : List Status)
  /-- Inserts an item, or refreshes what the system knows of the one with its key. -/
  | upsertItem (item : Item)
  | insertItem (item : Item)
  | getItem (count item : Id)
  | listItems (count : Id) (version : Option Int)
  /-- Stores what was counted of an item, with its report. -/
  | recordItem (item : Item) (report : ReportChange)
  | listReports (count : Id) (version : Option Int)
  | getReport (count report : Id)
  | saveReport (report : Report)
  | addAttempt (attempt : Attempt)
  | listAttempts (count : Id)

/-- What a call about counts answers when it is not refused. -/
abbrev CountCall.Result : CountCall → Type
  | create _ => Count
  | get _ _ => Option Count
  | list _ _ => List Count
  | change _ _ _ => Count
  | delete _ _ _ => Unit
  | upsertItem _ => Item × UpsertOutcome
  | insertItem _ => Item
  | getItem _ _ => Option Item
  | listItems _ _ => List Item
  | recordItem _ _ => Item
  | listReports _ _ => List Report
  | getReport _ _ => Option Report
  | saveReport _ => Report
  | addAttempt _ => Unit
  | listAttempts _ => List Attempt

/-- A call about mappings. -/
inductive MappingCall where
  /-- An active mapping takes the place of the one that was active for its data set. -/
  | create (mapping : Mapping)
  | get (tenant mapping : Id)
  | list (tenant : Id) (dataset : Option Dataset)
  | update (mapping : Mapping)
  | setActive (tenant mapping : Id) (active : Bool)
  | findActive (tenant : Id) (dataset : Dataset)

/-- What a call about mappings answers when it is not refused. -/
abbrev MappingCall.Result : MappingCall → Type
  | create _ => Mapping
  | get _ _ => Option Mapping
  | list _ _ => List Mapping
  | update _ => Mapping
  | setActive _ _ _ => Mapping
  | findActive _ _ => Option Mapping

/-- A call on a store. -/
inductive StoreCall where
  | counts (call : CountCall)
  | mappings (call : MappingCall)

/-- What a call answers when it is not refused. -/
abbrev StoreCall.Result : StoreCall → Type
  | counts call => call.Result
  | mappings call => call.Result

/-- Fresh identifiers and readings of the clock, each later than the one before. -/
structure Supply where
  id : Nat → Id
  time : Nat → Time

/-- Why a call changes nothing. -/
inductive Halt where
  | refused (error : Error)
  | overflow (overflow : Overflow)

namespace Halt

/-- The result of an arithmetic operation. -/
def ofArithmetic (result : Except Overflow α) : Except Halt α := result.mapError overflow

/-- The result of a check. -/
def ofCheck (result : Except Error α) : Except Halt α := result.mapError refused

end Halt
end Recount
