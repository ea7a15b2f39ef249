import Recount.Store.Counts

/-!
# Mappings in a store

The calls about mappings. Before a mapping becomes active, the others of its tenant and data set
are made inactive.
-/

namespace Recount.Store

/-- Makes the other mappings of a tenant and data set inactive. -/
def deactivateSiblings (s : Store) (m : Mapping) (now : Time) : Store :=
  { s with
    mappings := s.mappings.map fun other =>
      if other.id ≠ m.id && other.tenant = m.tenant && other.dataset = m.dataset && other.isActive
      then { other with isActive := false, updatedAt := now }
      else other }

/-- Stores a mapping, alone active if it is active. -/
def enterMapping (s : Store) (m : Mapping) (now : Time) : Store :=
  (if m.isActive then s.deactivateSiblings m now else s).putMapping m

/-- The mappings of a tenant, the latest change first. -/
def listMappings (s : Store) (tenant : Id) (dataset : Option Dataset) : List Mapping :=
  (s.mappings.filter fun m => m.tenant = tenant && dataset.all (m.dataset = ·)).mergeSort
    fun m n => n.updatedAt.le m.updatedAt

/-- Stores a mapping in the place of the one with its identifier. -/
def updateMapping (s : Store) (m : Mapping) (now : Time) : Except Halt (Mapping × Store) :=
  if (s.mapping? m.tenant m.id).isSome then .ok (m, s.enterMapping m now)
  else .error (.refused (.missing (.mapping m.id)))

/-- Makes a mapping active or inactive. -/
def setActive (s : Store) (tenant id : Id) (active : Bool) (supply : Supply) :
    Except Halt (Mapping × Store) :=
  match s.mapping? tenant id with
  | none => .error (.refused (.missing (.mapping id)))
  | some m =>
    let store := if active then s.deactivateSiblings m (supply.time 0) else s
    let changed := { m with isActive := active, updatedAt := supply.time 1 }
    .ok (changed, store.putMapping changed)

/-- The active mapping of a data set. -/
def activeMapping? (s : Store) (tenant : Id) (dataset : Dataset) : Option Mapping :=
  s.mappings.find? fun m => m.tenant = tenant && m.dataset = dataset && m.isActive

/-- Answers a call about mappings. -/
def answerMappings (s : Store) (supply : Supply) :
    (call : MappingCall) → Except Halt (call.Result × Store)
  | .create mapping => .ok (mapping, s.enterMapping mapping (supply.time 0))
  | .get tenant mapping => .ok (s.mapping? tenant mapping, s)
  | .list tenant dataset => .ok (s.listMappings tenant dataset, s)
  | .update mapping => s.updateMapping mapping (supply.time 0)
  | .setActive tenant mapping active => s.setActive tenant mapping active supply
  | .findActive tenant dataset => .ok (s.activeMapping? tenant dataset, s)

/-- Answers a call. -/
def answer (s : Store) (supply : Supply) : (call : StoreCall) → Except Halt (call.Result × Store)
  | .counts call => s.answerCounts supply call
  | .mappings call => s.answerMappings supply call

/-- Answers a call as the caller sees it. A call that halts leaves the store as it is. -/
def step (s : Store) (supply : Supply) (call : StoreCall) :
    Except Overflow (Except Error call.Result) × Store :=
  match s.answer supply call with
  | .ok (result, store) => (.ok (.ok result), store)
  | .error (.refused error) => (.ok (.error error), s)
  | .error (.overflow overflow) => (.error overflow, s)

end Recount.Store
