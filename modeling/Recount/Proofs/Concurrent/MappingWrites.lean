import Recount.Proofs.Concurrent.Asking
import Recount.Proofs.Concurrent.World

/-!
# Tasks that write mappings, enter items or record attempts

Two tasks write a mapping as a whole: the one that creates it and the one that changes it. Three
tasks enter items, and one records attempts. Every other task keeps any rule that is about such
writes alone.
-/

namespace Recount

/-- The call enters an item. -/
def CountCall.entersItem : CountCall → Bool
  | upsertItem _ | insertItem _ => true
  | _ => false

/-- The call records an attempt to write a count back. -/
def CountCall.recordsAttempt : CountCall → Bool
  | addAttempt _ => true
  | _ => false

namespace Concurrent

open Recount.Action Recount.Counting
open Program (Rule)

variable {rule : Rule Request Request.Answer}

/-- All is allowed but entering an item, recording an attempt and writing a mapping as a whole. -/
structure AboutEntries (rule : Rule Request Request.Answer) : Prop extends AboutStore rule where
  counts : ∀ h call, call.entersItem = false → call.recordsAttempt = false →
    rule h (.store (.counts call))
  get : ∀ h tenant mapping, rule h (.store (.mappings (.get tenant mapping)))
  list : ∀ h tenant dataset, rule h (.store (.mappings (.list tenant dataset)))
  setActive : ∀ h tenant mapping active,
    rule h (.store (.mappings (.setActive tenant mapping active)))
  findActive : ∀ h tenant dataset, rule h (.store (.mappings (.findActive tenant dataset)))

/-- All is allowed but recording an attempt and writing a mapping as a whole. -/
structure AboutRecords (rule : Rule Request Request.Answer) : Prop extends AboutEntries rule where
  enters : ∀ h call, call.entersItem = true → rule h (.store (.counts call))

/-- All is allowed but writing a mapping as a whole. -/
structure AboutMappings (rule : Rule Request Request.Answer) : Prop extends AboutRecords rule where
  addAttempt : ∀ h a, rule h (.store (.counts (.addAttempt a)))

/-- The task writes a mapping as a whole. -/
def Task.writesMapping : Task → Prop
  | createMapping .. | updateMapping .. => True
  | _ => False

/-- The task enters items. -/
def Task.entersItems : Task → Bool
  | addItem .. | loadItems .. | importItems .. => true
  | _ => false

/-- The task records an attempt to write a count back. -/
def Task.recordsAttempt : Task → Bool
  | send .. => true
  | _ => false

namespace AboutEntries

variable (hrule : AboutEntries rule) {tenant count actor item : Id} {sources : Loading.Sources}
  {connections : Erp.Connections}

include hrule

theorem lookups (tenant : Id) : AllowsLookups tenant rule where
  toAboutStore := hrule.toAboutStore
  count h _ := hrule.counts h _ rfl rfl
  mapping h _ := hrule.get h _ _
  active h _ := hrule.findActive h _ _

theorem counts_follows {call : CountCall} (henters : call.entersItem = false)
    (hrecords : call.recordsAttempt = false) : Follows rule (Action.counts call) :=
  Concurrent.counts_follows fun h => hrule.counts h call henters hrecords

theorem getCount_follows : Follows rule (getCount tenant count) :=
  (hrule.lookups tenant).getCount_follows

theorem editableCount_follows : Follows rule (editableCount tenant count) :=
  hrule.getCount_follows.bind fun _ => check_follows.bind fun _ => pure_follows

section Recording

theorem recordQuantity_follows {i : Item} {qty : Decimal} :
    Follows rule (recordQuantity i qty actor) := by
  unfold recordQuantity
  split
  · exact check_follows
  · exact arithmetic_follows.bind fun _ => hrule.now_follows.bind fun _ =>
      hrule.freshId_follows.bind fun _ => hrule.now_follows.bind fun _ =>
      arithmetic_follows.bind fun _ => hrule.counts_follows rfl rfl

theorem recordInVersion_follows {seen : Count} {qty : Decimal} :
    Follows rule (recordInVersion seen item qty actor) := by
  refine (hrule.counts_follows rfl rfl).bind fun _ => require_follows fun stored _ => ?_
  split
  · exact check_follows
  · exact hrule.recordQuantity_follows

theorem submitEntries_follows {seen : Count} {summary : SubmitSummary} {entries : List CountEntry} :
    Follows rule (submitEntries seen actor summary entries) := by
  induction entries generalizing summary with
  | nil => exact pure_follows
  | cons entry entries ih => exact hrule.recordInVersion_follows.attempt.bind fun _ => ih

theorem submit_follows {version : Int} {r : SubmitEntries} :
    Follows rule (submit tenant count version r actor) := by
  refine checkFields_follows.bind fun _ => hrule.editableCount_follows.bind fun seen => ?_
  split
  · exact check_follows
  · exact hrule.submitEntries_follows

end Recording

section Review

theorem nextItems_follows {version : Int} {time : Time} {items : List Item} :
    Follows rule (nextItems version time items) := by
  induction items with
  | nil => exact pure_follows
  | cons i items ih => exact hrule.freshId_follows.bind fun _ => ih.bind fun _ => pure_follows

theorem openRecount_follows : Follows rule (openRecount tenant count actor) := by
  refine hrule.getCount_follows.bind fun seen => ?_
  dsimp only
  split
  · exact check_follows
  · refine (hrule.counts_follows rfl rfl).bind fun items => ?_
    split
    · exact pure_follows
    · exact hrule.now_follows.bind fun _ => hrule.nextItems_follows.bind fun _ =>
        (hrule.counts_follows rfl rfl).bind fun _ => pure_follows

theorem resolveReport_follows {report : Id} {r : ResolveReport} :
    Follows rule (resolveReport tenant count report r actor) := by
  refine checkFields_follows.bind fun _ => hrule.getCount_follows.bind fun seen => ?_
  split
  · exact check_follows
  · refine (hrule.counts_follows rfl rfl).bind fun _ => require_follows fun stored _ => ?_
    dsimp only
    split
    · exact check_follows
    · exact hrule.now_follows.bind fun _ => hrule.counts_follows rfl rfl

end Review

section Mappings

theorem createMapping_follows {r : CreateMapping}
    (hcreate : ∀ h m, rule h (.store (.mappings (.create m)))) :
    Follows rule (Mapping.create connections tenant r actor) :=
  checkFields_follows.bind fun _ => hrule.now_follows.bind fun _ =>
    hrule.freshId_follows.bind fun _ => check_follows.bind fun _ =>
    mappings_follows fun h => hcreate h _

theorem updateMapping_follows {id : Id} {r : UpdateMapping}
    (hupdate : ∀ h m, rule h (.store (.mappings (.update m)))) :
    Follows rule (Mapping.update connections tenant id r) := by
  refine checkFields_follows.bind fun _ =>
    (hrule.lookups tenant).getMapping_follows.bind fun stored => ?_
  dsimp only
  split
  · exact check_follows
  · exact hrule.now_follows.bind fun _ => check_follows.bind fun _ =>
      mappings_follows fun h => hupdate h _

end Mappings

section WritingBack

theorem send_follows {default : Option Id} {r : WriteBack.SendRequest}
    (hadd : ∀ h a, rule h (.store (.counts (.addAttempt a)))) :
    Follows rule (WriteBack.send connections default tenant count r actor) := by
  rw [WriteBack.send_eq_seen]
  refine hrule.getCount_follows.bind fun seen => ?_
  split
  · exact check_follows
  · exact (hrule.lookups tenant).sendSeen_follows (fun h => hrule.counts h _ rfl rfl)
      (fun h => hrule.counts h _ rfl rfl) (fun h _ _ _ _ => hadd h _)
      fun h => hrule.counts h _ rfl rfl

end WritingBack

/-- A task that neither writes a mapping as a whole, nor records an attempt, nor enters items does
what is allowed. -/
theorem action_follows {t : Task} (ht : ¬ t.writesMapping) (hsend : t.recordsAttempt = false)
    (henters : t.entersItems = false) : Follows rule (t.action sources) := by
  cases t with
  | createCount => exact checkFields_follows.bind fun _ => hrule.counts_follows rfl rfl
  | listCounts => exact hrule.counts_follows rfl rfl
  | getCount => exact hrule.getCount_follows
  | deleteCount => exact hrule.getCount_follows.bind fun _ => hrule.counts_follows rfl rfl
  | changeStage => exact hrule.getCount_follows.bind fun _ => hrule.counts_follows rfl rfl
  | completeCount =>
    exact hrule.getCount_follows.bind fun _ => (hrule.counts_follows rfl rfl).bind fun _ =>
      (hrule.counts_follows rfl rfl).bind fun _ => pure_follows
  | openRecount => exact hrule.openRecount_follows
  | versionHistory =>
    exact hrule.getCount_follows.bind fun _ => (hrule.counts_follows rfl rfl).bind fun _ =>
      (hrule.counts_follows rfl rfl).bind fun _ => arithmetic_follows.bind fun _ => pure_follows
  | listItems => exact hrule.getCount_follows.bind fun _ => hrule.counts_follows rfl rfl
  | addItem => cases henters
  | updateItem =>
    exact checkFields_follows.bind fun _ => hrule.editableCount_follows.bind fun _ =>
      hrule.recordInVersion_follows
  | submit => exact hrule.submit_follows
  | listReports => exact hrule.getCount_follows.bind fun _ => hrule.counts_follows rfl rfl
  | resolveReport => exact hrule.resolveReport_follows
  | loadItems => cases henters
  | importItems => cases henters
  | exportItems tenant =>
    exact hrule.getCount_follows.bind fun _ => (hrule.lookups tenant).getGiven_follows.bind fun _ =>
      (hrule.counts_follows rfl rfl).bind fun _ => pure_follows
  | send => cases hsend
  | listAttempts => exact hrule.getCount_follows.bind fun _ => hrule.counts_follows rfl rfl
  | createMapping => exact absurd trivial ht
  | listMappings => exact mappings_follows fun h => hrule.list h _ _
  | getMapping tenant => exact (hrule.lookups tenant).getMapping_follows
  | updateMapping => exact absurd trivial ht
  | setActive => exact mappings_follows fun h => hrule.setActive h _ _ _
  | testConnection => exact hrule.testConnection_follows
  | fetchCatalog => exact hrule.fetchCatalog_follows
  | preview tenant => exact (hrule.lookups tenant).preview_follows

end AboutEntries

namespace AboutRecords

variable (hrule : AboutRecords rule) {tenant count actor : Id} {sources : Loading.Sources}

include hrule

theorem enters_follows {call : CountCall} (henters : call.entersItem = true) :
    Follows rule (Action.counts call) :=
  Concurrent.counts_follows fun h => hrule.enters h call henters

theorem addItem_follows {r : AddItem} : Follows rule (addItem tenant count r actor) := by
  refine checkFields_follows.bind fun _ => hrule.editableCount_follows.bind fun seen =>
    hrule.now_follows.bind fun time => hrule.freshId_follows.bind fun id =>
    (hrule.enters_follows rfl).bind fun item => ?_
  split
  · exact hrule.recordQuantity_follows
  · exact pure_follows

section Loading

theorem storeAll_follows {seen : Count} {location : Id} {summary : Loading.Summary}
    {records : List ItemRecord} :
    Follows rule (Loading.storeAll seen location summary records) := by
  induction records generalizing summary with
  | nil => exact pure_follows
  | cons r records ih =>
    exact hrule.now_follows.bind fun _ => hrule.freshId_follows.bind fun _ =>
      (hrule.enters_follows rfl).attempt.bind fun _ => ih

theorem storeRecords_follows {seen : Count} {location : Id} {summary : Loading.Summary}
    {records : List ItemRecord} :
    Follows rule (Loading.storeRecords seen location summary records) :=
  arithmetic_follows.bind fun _ => hrule.storeAll_follows

theorem loadItems_follows {r : Loading.LoadRequest} :
    Follows rule (Loading.loadItems sources tenant count r) :=
  hrule.editableCount_follows.bind fun _ => (hrule.lookups tenant).loadSeen_follows fun _ _ _ =>
    hrule.storeRecords_follows

end Loading

/-- A task that neither writes a mapping as a whole nor records an attempt does what is allowed. -/
theorem action_follows {t : Task} (ht : ¬ t.writesMapping) (hsend : t.recordsAttempt = false) :
    Follows rule (t.action sources) := by
  cases henters : t.entersItems with
  | true =>
    cases t with
    | addItem => exact hrule.addItem_follows
    | loadItems => exact hrule.loadItems_follows
    | importItems tenant =>
      exact hrule.editableCount_follows.bind fun _ =>
        (hrule.lookups tenant).getGiven_follows.bind fun _ =>
        check_follows.bind fun _ => hrule.storeRecords_follows.bind fun _ => pure_follows
    | _ => cases henters
  | false => exact hrule.toAboutEntries.action_follows ht hsend henters

end AboutRecords

namespace AboutMappings

/-- A task that writes no mapping as a whole does what is allowed. -/
theorem action_follows (hrule : AboutMappings rule) {sources : Loading.Sources} {t : Task}
    (ht : ¬ t.writesMapping) : Follows rule (t.action sources) := by
  cases hsend : t.recordsAttempt with
  | true =>
    cases t with
    | send => exact hrule.send_follows hrule.addAttempt
    | _ => cases hsend
  | false => exact hrule.toAboutRecords.action_follows ht hsend

end AboutMappings
end Concurrent
end Recount
