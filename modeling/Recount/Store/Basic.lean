import Recount.Store.Call

/-!
# Stores

A store in memory: counts, their items, reports and attempts, and mappings, each in a list with
one entry for every identifier.
-/

namespace Recount

/-- Puts an entry in the place of the one with its identifier, or at the end. -/
def putBy (id : α → Id) (entry : α) : List α → List α
  | [] => [entry]
  | e :: rest => if id e = id entry then entry :: rest else e :: putBy id entry rest

/-- A store. -/
structure Store where
  counts : List Count := []
  items : List Item := []
  reports : List Report := []
  attempts : List Attempt := []
  mappings : List Mapping := []
  /-- The number of the count that was created last. -/
  sequence : Int := 0

namespace Store

/-- A store that holds nothing. -/
def empty : Store := {}

/-- The count with an identifier, whoever it belongs to. -/
def anyCount? (s : Store) (id : Id) : Option Count := s.counts.find? (·.id = id)

/-- The count of a tenant. -/
def count? (s : Store) (tenant id : Id) : Option Count :=
  (s.anyCount? id).filter (·.tenant = tenant)

/-- The item of a count. -/
def item? (s : Store) (count id : Id) : Option Item :=
  (s.items.find? (·.id = id)).filter (·.count = count)

/-- The item with a key. -/
def itemByKey? (s : Store) (key : Item.Key) : Option Item := s.items.find? (·.key = key)

/-- The items of a count, or of one version of it. -/
def itemsOf (s : Store) (count : Id) (version : Option Int) : List Item :=
  s.items.filter fun i => i.count = count && version.all (i.version = ·)

/-- The report of a count. -/
def report? (s : Store) (count id : Id) : Option Report :=
  (s.reports.find? (·.id = id)).filter (·.count = count)

/-- The reports of a count, or of one version of it. -/
def reportsOf (s : Store) (count : Id) (version : Option Int) : List Report :=
  s.reports.filter fun r => r.count = count && version.all (r.version = ·)

/-- The mapping of a tenant. -/
def mapping? (s : Store) (tenant id : Id) : Option Mapping :=
  (s.mappings.find? (·.id = id)).filter (·.tenant = tenant)

/-- Stores a count. -/
def putCount (s : Store) (c : Count) : Store := { s with counts := putBy Count.id c s.counts }

/-- Stores an item. -/
def putItem (s : Store) (i : Item) : Store := { s with items := putBy Item.id i s.items }

/-- Stores a mapping. -/
def putMapping (s : Store) (m : Mapping) : Store :=
  { s with mappings := putBy Mapping.id m s.mappings }

/-- Stores a report. The report of the item and version that is there already gives its identity
to the new one. -/
def putReport (s : Store) (r : Report) : Store :=
  let r := match s.reports.find? fun old => old.item = r.item && old.version = r.version with
    | some old => { r with id := old.id, createdAt := old.createdAt }
    | none => r
  { s with reports := putBy Report.id r s.reports }

/-- Makes the change to the report of an item. -/
def changeReport (s : Store) (i : Item) : ReportChange → Store
  | .put r => s.putReport r
  | .clear => { s with
    reports := s.reports.filter fun r =>
      !(r.item = i.id && r.version = i.version && r.status = .pending) }

/-- Another open count of the tenant occupies the warehouse. -/
def isBusy (s : Store) (c : Count) : Bool :=
  s.counts.any fun other => other.id ≠ c.id && other.tenant = c.tenant &&
    other.warehouse = c.warehouse && other.status.isOpen

end Store
end Recount
