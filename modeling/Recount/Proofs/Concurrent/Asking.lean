import Recount.Counting.Lifecycle
import Recount.Erp.Preview
import Recount.Loading.Load
import Recount.Proofs.Program.Keeps
import Recount.WriteBack.Send

/-!
# Rules about the store

A rule may be about the calls on the store alone. Then whatever is done with planning systems, the
clock and fresh identifiers keeps it. It may also let a tenant look up its counts and mappings, with
which most tasks begin.
-/

namespace Recount.Concurrent

open Recount.Action Recount.Counting
open Program (Rule)

variable {rule : Rule Request Request.Answer} {α : Type}

/-- All that is not a call on the store is allowed. -/
structure AboutStore (rule : Rule Request Request.Answer) : Prop where
  erp : ∀ h connection call, rule h (.erp connection call)
  freshId : ∀ h, rule h .freshId
  now : ∀ h, rule h .now

theorem counts_follows {call : CountCall} (hcall : ∀ h, rule h (.store (.counts call))) :
    Follows rule (counts call) :=
  fun h => keeps_counts.mpr ⟨hcall h, fun _ => trivial⟩

theorem mappings_follows {call : MappingCall} (hcall : ∀ h, rule h (.store (.mappings call))) :
    Follows rule (mappings call) :=
  fun h => keeps_mappings.mpr ⟨hcall h, fun _ => trivial⟩

namespace AboutStore

variable (hrule : AboutStore rule) {connection : Id} {connections : Erp.Connections}
  {sources : Loading.Sources} {limit : Nat}

include hrule

theorem erp_follows {call : ErpCall} : Follows rule (Action.erp connection call) :=
  fun h => keeps_erp.mpr ⟨hrule.erp h _ _, fun _ => trivial⟩

theorem freshId_follows : Follows rule Action.freshId :=
  fun h => keeps_freshId.mpr ⟨hrule.freshId h, fun _ => trivial⟩

theorem now_follows : Follows rule Action.now :=
  fun h => keeps_now.mpr ⟨hrule.now h, fun _ => trivial⟩

theorem withSession_follows {session : Action α} (hsession : Follows rule session) :
    Follows rule (Erp.withSession connection session) := by
  have hclose : ∀ result : Except Error α, Follows rule (do
      let _ ← attempt (Action.erp connection .disconnect)
      check result) := fun result => hrule.erp_follows.attempt.bind fun _ => check_follows
  refine hrule.erp_follows.attempt.bind fun opened => ?_
  cases opened with
  | ok _ => exact hsession.attempt.bind hclose
  | error e => exact pure_follows.bind hclose

theorem runQuery_follows {query : Sql.Query} : Follows rule (Erp.runQuery connection query) :=
  hrule.withSession_follows hrule.erp_follows

theorem testConnection_follows : Follows rule (Erp.testConnection connections connection) :=
  check_follows.bind fun _ =>
    (hrule.withSession_follows hrule.erp_follows).attempt.bind fun _ => pure_follows

theorem fetchCatalog_follows : Follows rule (Erp.fetchCatalog connections connection) :=
  check_follows.bind fun _ => hrule.runQuery_follows.bind fun _ => pure_follows

theorem loadMapping_follows {m : Mapping} : Follows rule (Loading.loadMapping sources m limit) :=
  check_follows.bind fun _ => check_follows.bind fun _ => hrule.runQuery_follows.bind fun _ =>
    pure_follows

theorem loadLegacy_follows : Follows rule (Loading.loadLegacy sources limit) := by
  unfold Loading.loadLegacy
  split
  · exact check_follows.bind fun _ => check_follows.bind fun _ =>
      hrule.runQuery_follows.bind fun _ => pure_follows
  · exact pure_follows

theorem writeItems_follows {dialect : Sql.Dialect} {target : Target} {strategy : Strategy}
    {items : List Item} :
    Follows rule (WriteBack.writeItems connection dialect target strategy items) := by
  induction items with
  | nil => exact pure_follows
  | cons i items ih =>
    refine arithmetic_follows.bind fun value => ?_
    cases value with
    | none => exact ih
    | some value => exact hrule.erp_follows.attempt.bind fun _ => ih.bind fun _ => pure_follows

end AboutStore

/-- A tenant may look up its counts and mappings at any time. -/
structure AllowsLookups (tenant : Id) (rule : Rule Request Request.Answer) : Prop
    extends AboutStore rule where
  count : ∀ h count, rule h (.store (.counts (.get tenant count)))
  mapping : ∀ h mapping, rule h (.store (.mappings (.get tenant mapping)))
  active : ∀ h dataset, rule h (.store (.mappings (.findActive tenant dataset)))

namespace AllowsLookups

variable {tenant : Id} (hrule : AllowsLookups tenant rule) {count : Id}
  {h : List (Program.Exchange Request Request.Answer)} {sources : Loading.Sources} {limit : Nat}

include hrule

theorem keeps_getCount {post} :
    Keeps rule post (getCount tenant count) h ↔
      ∀ c, post c (⟨.store (.counts (.get tenant count)), .ok (some c)⟩ :: h) := by
  simp only [getCount, keeps_bind, keeps_counts, keeps_require]
  constructor
  · exact fun hp c => hp.2 (some c) c rfl
  · rintro hp
    refine ⟨hrule.count h count, ?_⟩
    rintro _ c rfl
    exact hp c

theorem keeps_editableCount {post} :
    Keeps rule post (editableCount tenant count) h ↔ ∀ c, c.checkEditable = .ok () →
      post c (⟨.store (.counts (.get tenant count)), .ok (some c)⟩ :: h) := by
  simp only [editableCount, keeps_bind, hrule.keeps_getCount, keeps_check, keeps_pure]
  exact forall_congr' fun c => ⟨fun hp hc => hp () hc, fun hp _ hc => hp hc⟩

theorem getCount_follows : Follows rule (getCount tenant count) :=
  fun _ => hrule.keeps_getCount.mpr fun _ => trivial

theorem getMapping_follows {mapping : Id} : Follows rule (Mapping.get tenant mapping) := by
  intro h
  simp only [Mapping.get, keeps_bind, keeps_mappings, keeps_require]
  exact ⟨hrule.mapping h mapping, fun _ _ _ => trivial⟩

theorem getGiven_follows {mapping : Option Id} : Follows rule (Mapping.getGiven tenant mapping) := by
  cases mapping with
  | none => exact pure_follows
  | some id => exact hrule.getMapping_follows.map

theorem preview_follows {connections : Erp.Connections} {r : Erp.PreviewRequest} :
    Follows rule (Erp.preview connections tenant r) := by
  refine hrule.getGiven_follows.bind fun mapping => ?_
  dsimp only
  split
  · next connection _ =>
    refine check_follows.bind fun dialect => ?_
    have hread : ∀ catalog : Option Sql.Catalog, Follows rule (do
        let query ← check (Erp.previewQuery ⟨dialect, catalog⟩ mapping r
          (min (r.limit.getD Erp.previewLimit) Erp.previewLimit))
        let rows := (← Erp.runQuery connection query).take
          (min (r.limit.getD Erp.previewLimit) Erp.previewLimit)
        return (⟨query.sql, (rows.head?.getD []).map (·.1), rows⟩ : Erp.Preview)) := fun catalog =>
      check_follows.bind fun _ => hrule.runQuery_follows.bind fun _ => pure_follows
    split
    · exact hrule.fetchCatalog_follows.map.bind hread
    · exact pure_follows.bind hread
  · exact check_follows

theorem loadExtra_follows {dataset : Dataset} :
    Follows rule (Loading.loadExtra sources tenant limit dataset) := by
  refine (mappings_follows fun h => hrule.active h dataset).bind fun m => ?_
  cases m with
  | none => exact pure_follows
  | some m => exact hrule.loadMapping_follows.bind fun _ => pure_follows

theorem loadConfigured_follows : Follows rule (Loading.loadConfigured sources tenant limit) := by
  refine (mappings_follows fun h => hrule.active h .items).bind fun items =>
    (mappings_follows fun h => hrule.active h .stock).bind fun stock => ?_
  cases items with
  | none => exact pure_follows
  | some items =>
    cases stock with
    | none => exact pure_follows
    | some stock =>
      exact hrule.loadMapping_follows.bind fun _ => hrule.loadMapping_follows.bind fun _ =>
        hrule.loadExtra_follows.bind fun _ => hrule.loadExtra_follows.bind fun _ => pure_follows

theorem resolveTarget_follows {default : Option Id} {r : WriteBack.SendRequest} :
    Follows rule (WriteBack.resolveTarget tenant default r) := by
  refine (mappings_follows fun h => hrule.active h .stock).bind fun stock =>
    check_follows.bind fun target => check_follows.bind fun _ => ?_
  split
  · exact pure_follows
  · exact check_follows

end AllowsLookups
end Recount.Concurrent

/-! ## Loads

A load looks up its count and reads one source after the other. A rule that allows lookups need only
allow that what was read is stored. -/

namespace Recount.Loading

/-- What is left of a load when its count was seen and accepts items. -/
def loadSeen (sources : Sources) (tenant : Id) (r : LoadRequest) (c : Count) : Action Summary := do
  let limit ← Action.check (rowLimit sources r.limit)
  match r.mapping with
  | some id =>
    let m ← Mapping.get tenant id
    let batch ← loadMapping sources m limit
    let attempted : Attempted :=
      ⟨.mapping, true, "Loaded with mapping '" ++ Text.harmless m.name ++ "'"⟩
    storeBatch c (r.location.getD c.warehouse) .mapping [attempted] batch
  | none => loadFirst c (r.location.getD c.warehouse) [] (sourcesInOrder sources tenant limit)

theorem loadItems_eq_seen {sources : Sources} {tenant count : Id} {r : LoadRequest} :
    loadItems sources tenant count r =
      Counting.editableCount tenant count >>= loadSeen sources tenant r := rfl

end Recount.Loading

namespace Recount.Concurrent

open Recount.Action Recount.Loading
open Program (Rule)

variable {rule : Rule Request Request.Answer} {tenant location : Id} {c : Count}

theorem loadFirst_follows {attempts : List Attempted}
    {candidates : List (Source × String × Action (Option Batch))}
    (hstore : ∀ summary records, Follows rule (storeRecords c location summary records))
    (hall : ∀ candidate ∈ candidates, Follows rule candidate.2.2) :
    Follows rule (loadFirst c location attempts candidates) := by
  induction candidates generalizing attempts with
  | nil => exact pure_follows
  | cons candidate candidates ih =>
    obtain ⟨source, absent, load⟩ := candidate
    have hload : Follows rule load := hall _ List.mem_cons_self
    refine hload.attempt.bind fun result => ?_
    split
    · exact hstore _ _
    · exact ih fun candidate hcandidate => hall candidate (List.mem_cons_of_mem _ hcandidate)

/-- The rest of a load keeps to a rule that lets it store records in its count. -/
theorem AllowsLookups.loadSeen_follows (hrule : AllowsLookups tenant rule) {sources : Sources}
    {r : LoadRequest}
    (hstore : ∀ location summary records, Follows rule (storeRecords c location summary records)) :
    Follows rule (loadSeen sources tenant r c) := by
  refine check_follows.bind fun limit => ?_
  split
  · exact hrule.getMapping_follows.bind fun m => hrule.loadMapping_follows.bind fun batch =>
      hstore _ _ _
  · refine loadFirst_follows (hstore _) fun candidate hcandidate => ?_
    rcases List.mem_cons.mp hcandidate with rfl | hcandidate
    · exact hrule.loadConfigured_follows
    · rw [List.mem_singleton.mp hcandidate]
      exact hrule.loadLegacy_follows

end Recount.Concurrent

/-! ## Attempts to write back

An attempt looks up its count and goes on if it is completed. A rule that allows lookups need only
allow what an attempt asks the store about its count. -/

namespace Recount.WriteBack

/-- The end of an attempt: what became of the session is recorded, and if every statement was
accepted, the count is closed. -/
def finish (c : Count) (tenant count : Id) (strategy : Strategy) (actor : Id) (started : Time)
    (session : Except Error (List WriteDetail)) (details : List WriteDetail) :
    Action SendOutcome := do
  let id ← Action.freshId
  let attempt := attemptOf c strategy details actor id started (← Action.now)
  Action.counts (.addAttempt attempt)
  let _ ← Action.check session
  if attempt.failed = 0 then
    let change := StatusChange.ofCount c [.completed] .closed actor
    let closed ← Action.counts (.change tenant count
      { change := { change with milestone := some .closed } })
    return ⟨attempt, closed⟩
  else return ⟨attempt, c⟩

/-- The session of an attempt, with what comes after it. -/
def holdSession (target : Target) (connection : Id) (dialect : Sql.Dialect) (c : Count)
    (tenant count : Id) (strategy : Strategy) (actor : Id) (started : Time) (items : List Item) :
    Action SendOutcome := do
  let session ← Action.attempt
    (Erp.withSession connection (writeItems connection dialect target strategy items))
  let details ← match session with
    | .ok details => pure details
    | .error e => Action.arithmetic (failedDetails strategy e items)
  finish c tenant count strategy actor started session details

/-- What is left of an attempt when its count was seen and is completed. -/
def sendSeen (connections : Erp.Connections) (default : Option Id) (tenant count : Id)
    (r : SendRequest) (actor : Id) (c : Count) : Action SendOutcome := do
  let (target, connection) ← resolveTarget tenant default r
  let reports ← Action.counts (.listReports count (some c.currentVersion))
  let stored ← Action.counts (.listItems count (some c.currentVersion))
  let started ← Action.now
  let dialect ← Action.check (Erp.dialectOf connections connection)
  holdSession target connection dialect c tenant count r.strategy actor started
    (itemsToWrite stored reports)

theorem send_eq_seen {connections : Erp.Connections} {default : Option Id} {tenant count : Id}
    {r : SendRequest} {actor : Id} : send connections default tenant count r actor =
      Counting.getCount tenant count >>= fun c => if c.status ≠ .completed then
        Action.fail (.wrongState Status.completed.name c.status.name)
      else sendSeen connections default tenant count r actor c := rfl

end Recount.WriteBack

namespace Recount.Concurrent

open Recount.Action Recount.WriteBack
open Program (Rule)

variable {rule : Rule Request Request.Answer} {tenant count actor connection : Id} {c : Count}
  {strategy : Strategy}

/-- The rest of an attempt keeps to a rule that lets it list what belongs to the count, record the
attempt and close the count. -/
theorem AllowsLookups.sendSeen_follows (hrule : AllowsLookups tenant rule)
    {connections : Erp.Connections} {default : Option Id} {r : SendRequest}
    (hreports : ∀ h, rule h (.store (.counts (.listReports count (some c.currentVersion)))))
    (hitems : ∀ h, rule h (.store (.counts (.listItems count (some c.currentVersion)))))
    (hadd : ∀ h details id started completed, rule h (.store (.counts
      (.addAttempt (attemptOf c r.strategy details actor id started completed)))))
    (hclose : ∀ h, rule h (.store (.counts (.change tenant count { change :=
      { StatusChange.ofCount c [.completed] .closed actor with milestone := some .closed } })))) :
    Follows rule (sendSeen connections default tenant count r actor c) := by
  have hfinish : ∀ started session details,
      Follows rule (finish c tenant count r.strategy actor started session details) := by
    intro started session details
    refine hrule.freshId_follows.bind fun id => hrule.now_follows.bind fun completed => ?_
    refine Follows.bind (counts_follows fun h => hadd h _ _ _ _) fun _ => check_follows.bind fun _ => ?_
    split
    · exact Follows.bind (counts_follows hclose) fun _ => pure_follows
    · exact pure_follows
  refine hrule.resolveTarget_follows.bind fun (target, connection) => ?_
  refine Follows.bind (counts_follows hreports) fun reports => ?_
  refine Follows.bind (counts_follows hitems) fun stored => ?_
  refine hrule.now_follows.bind fun started => check_follows.bind fun dialect => ?_
  refine (hrule.withSession_follows hrule.writeItems_follows).attempt.bind fun session => ?_
  cases session with
  | ok details => exact pure_follows.bind fun _ => hfinish _ _ _
  | error e => exact arithmetic_follows.bind fun _ => hfinish _ _ _

end Recount.Concurrent
