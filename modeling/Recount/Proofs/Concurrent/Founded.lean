import Recount.Proofs.Concurrent.Asking
import Recount.Proofs.Concurrent.World
import Recount.Proofs.Store.Fitting

/-!
# What tasks base their writes on

A task writes only what it has reasons for: an item that it enters has an identifier
that it has just drawn, a quantity is recorded of an item that it was shown, and a
recount takes up the items that it was listed. This holds of a task by itself, from
its own history, so no other task can disturb it.
-/

namespace Recount

namespace Concurrent

open Recount.Action Recount.Counting

/-- The identifiers that a task has drawn since it last called the store or a planning system. -/
def recentIds : List Exchange → List Id
  | ⟨.freshId, id⟩ :: h => id :: recentIds h
  | ⟨.now, _⟩ :: h => recentIds h
  | _ => []

/-- A task was shown an item: it read it, or it inserted it. -/
inductive Shown (h : List Exchange) (i : Item) : Prop
  | read {count id} (he : ⟨.store (.counts (.getItem count id)), .ok (some i)⟩ ∈ h)
  | inserted {new} (he : ⟨.store (.counts (.insertItem new)), .ok i⟩ ∈ h)

theorem Shown.mono {h h' : List Exchange} {i : Item} (hi : Shown h i) (hsub : h ⊆ h') :
    Shown h' i := by
  cases hi with
  | read he => exact .read (hsub he)
  | inserted he => exact .inserted (hsub he)

theorem Shown.cons_cases {h : List Exchange} {e : Exchange} {i : Item} (hi : Shown (e :: h) i) :
    Shown [e] i ∨ Shown h i := by
  cases hi with
  | read he =>
    rcases List.mem_cons.mp he with he | he
    · exact .inl (.read (List.mem_singleton.mpr he))
    · exact .inr (.read he)
  | inserted he =>
    rcases List.mem_cons.mp he with he | he
    · exact .inl (.inserted (List.mem_singleton.mpr he))
    · exact .inr (.inserted he)

/-- The transitions that tasks make: a change of stage alone, the completion of a version, and a
recount with the items that follow those of the version. -/
inductive FoundedChange (h : List Exchange) (count : Id) : Transition → Prop
  | stage (change : StageChange) (version : Int) (actor : Id) (hchange : change ∈ stageChanges) :
      FoundedChange h count
        { change :=
            { expected := change.expected, expectedVersion := version, target := change.target
              actor, milestone := change.milestone } }
  | completion (version : Int) (actor : Id) :
      FoundedChange h count
        { change :=
            { expected := [.active, .draft], expectedVersion := version, target := .submitted
              actor, milestone := some .completed }
          settles := true }
  | recount (version : Int) (actor : Id) (items : List Item) (ids : List Id) (time : Time)
      (hitems : ⟨.store (.counts (.listItems count (some version))), .ok items⟩ ∈ h)
      (hids : recentIds h = ids.reverse) (hlength : ids.length = items.length) :
      FoundedChange h count
        { change :=
            { expected := recountable, expectedVersion := version, target := .active, actor
              opensVersion := true }
          newItems := Item.nextAll (version + 1) time items ids }

/-- The items of the next version have the identifiers that were just drawn. -/
theorem FoundedChange.newItems_ids {h : List Exchange} {count : Id} {t : Transition}
    (ht : FoundedChange h count t) :
    t.newItems = [] ∨ t.newItems.map Item.id = (recentIds h).reverse := by
  cases ht with
  | stage => exact .inl rfl
  | completion => exact .inl rfl
  | recount version actor items ids time hitems hids hlength =>
    refine .inr ((Item.map_id_nextAll hlength).trans ?_)
    rw [hids, List.reverse_reverse]

/-- The quantities that tasks record: of an item that was shown, with the report that belongs to
it. -/
inductive FoundedRecord (h : List Exchange) : Item → ReportChange → Prop
  | mk {i counted : Item} {qty : Decimal} {report : Option Report} (actor : Id) (time : Time)
      (id : Id) (created : Time) (hshown : Shown h i) (hcounted : i.withCounted qty = .ok counted)
      (hid : id ∈ recentIds h)
      (hreport : Item.report? { counted with
        status := .counted, countedBy := some actor, countedAt := some time } id created =
          .ok report) :
      FoundedRecord h
        { counted with status := .counted, countedBy := some actor, countedAt := some time }
        (.ofReport? report)

/-- What a task other than a resolution may ask, by its history. -/
def Founded (h : List Exchange) : Request → Prop
  | .store (.counts (.change _ count t)) => FoundedChange h count t
  | .store (.counts (.delete _ _ allowed)) => allowed = deletable
  | .store (.counts (.upsertItem new)) => new.Uncounted ∧ new.id ∈ recentIds h
  | .store (.counts (.insertItem new)) => new.Uncounted ∧ new.id ∈ recentIds h
  | .store (.counts (.recordItem new report)) => FoundedRecord h new report
  | .store (.counts (.saveReport _)) => False
  | _ => True

/-- The request only looks at the store, if at all. -/
def IsQuery : Request → Prop
  | .store (.counts (.get ..)) | .store (.counts (.list ..)) | .store (.counts (.getItem ..))
  | .store (.counts (.listItems ..)) | .store (.counts (.listReports ..))
  | .store (.counts (.getReport ..)) | .store (.counts (.listAttempts ..)) => True
  | .store _ => False
  | _ => True

/-- A request that only looks leaves the store as it is. -/
theorem IsQuery.store_eq {q : Request} (hquery : IsQuery q) {s s' : Store} {drawn drawn' : List Id}
    {answer : q.Answer} (h : Answers s drawn q answer s' drawn') : s' = s := by
  cases h with
  | @store call answer s' supply hfresh hstep =>
    cases call with
    | mappings => exact hquery.elim
    | counts call => cases call <;> first | exact hquery.elim | exact (Prod.mk.inj hstep).2.symm
  | _ => rfl

/-- The report that a resolution may save: one that it was shown while it was pending, of a count
that it saw settled, with nothing written in between. -/
inductive FoundedSave (h : List Exchange) : Report → Prop
  | mk {tenant count id : Id} {seen : Count} {stored : Report} (status : ReportStatus)
      (resolution : Option String) (actor : Option Id) (time : Option Time)
      (hseen : ⟨.store (.counts (.get tenant count)), .ok (some seen)⟩ ∈ h)
      (hstatus : seen.status ∈ recountable)
      (hstored : ⟨.store (.counts (.getReport count id)), .ok (some stored)⟩ ∈ h)
      (hqueries : ∀ e ∈ h, IsQuery e.request) :
      FoundedSave h
        { stored with status, resolution, resolvedBy := actor, resolvedAt := time }

/-- What a task may ask, by its history. -/
def Allowed (t : Task) (h : List Exchange) (q : Request) : Prop :=
  Founded h q ∨ t.isResolution ∧ ∃ r, q = .store (.counts (.saveReport r)) ∧ FoundedSave h r

variable {h : List Exchange}

/-- Nothing that a task asks besides the store needs reasons. -/
theorem founded_aboutStore : AboutStore Founded where
  erp _ _ _ := trivial
  freshId _ := trivial
  now _ := trivial

/-- Nothing that a task looks up needs reasons. -/
theorem founded_lookups (tenant : Id) : AllowsLookups tenant Founded where
  toAboutStore := founded_aboutStore
  count _ _ := trivial
  mapping _ _ := trivial
  active _ _ := trivial

section Lifecycle

variable {tenant count actor : Id}

theorem keeps_getCount {post} :
    Keeps Founded post (getCount tenant count) h ↔
      ∀ c, post c (⟨.store (.counts (.get tenant count)), .ok (some c)⟩ :: h) :=
  (founded_lookups tenant).keeps_getCount

theorem keeps_editableCount {post} :
    Keeps Founded post (editableCount tenant count) h ↔ ∀ c, c.status.acceptsItems = true →
      post c (⟨.store (.counts (.get tenant count)), .ok (some c)⟩ :: h) := by
  simp only [(founded_lookups tenant).keeps_editableCount, Count.checkEditable_eq_ok_iff]

theorem createCount_follows {r : CreateCount} :
    Follows Founded (Counting.createCount tenant r actor) := by
  intro h
  simp only [Counting.createCount, keeps_bind, keeps_checkFields]
  exact fun _ => keeps_counts.mpr ⟨trivial, fun _ => trivial⟩

theorem changeStage_follows {change : StageChange} (hchange : change ∈ stageChanges) :
    Follows Founded (Counting.changeStage tenant count change actor) := by
  intro h
  simp only [Counting.changeStage, keeps_bind, keeps_getCount]
  exact fun seen => keeps_counts.mpr
    ⟨.stage change seen.currentVersion actor hchange, fun _ => trivial⟩

theorem completeCount_follows : Follows Founded (Counting.completeCount tenant count actor) := by
  intro h
  simp only [Counting.completeCount, keeps_bind, keeps_getCount, keeps_counts, keeps_pure]
  exact fun seen => ⟨.completion seen.currentVersion actor, fun _ => ⟨trivial, fun _ => trivial⟩⟩

theorem deleteCount_follows : Follows Founded (Counting.deleteCount tenant count) := by
  intro h
  simp only [Counting.deleteCount, keeps_bind, keeps_getCount]
  exact fun _ => keeps_counts.mpr ⟨rfl, fun _ => trivial⟩

end Lifecycle

section Recording

variable {tenant count actor : Id} {i : Item}

theorem keeps_recordQuantity {qty : Decimal} (hi : Shown h i) :
    Keeps Founded (fun _ _ => True) (recordQuantity i qty actor) h := by
  simp only [recordQuantity, keeps_ite, keeps_fail, keeps_bind, keeps_arithmetic, keeps_now,
    keeps_freshId]
  refine ⟨fun _ => trivial, fun _ counted hcounted => ⟨trivial, fun time => ⟨trivial, fun id =>
    ⟨trivial, fun created report hreport => keeps_counts.mpr ⟨?_, fun _ => trivial⟩⟩⟩⟩⟩
  have hlater : Shown (⟨.now, created⟩ :: ⟨.freshId, id⟩ :: ⟨.now, time⟩ :: h) i :=
    hi.mono (List.subset_append_right [_, _, _] h)
  exact .mk actor time id created hlater hcounted List.mem_cons_self hreport

theorem addItem_follows {r : AddItem} : Follows Founded (Counting.addItem tenant count r actor) := by
  intro h
  simp only [Counting.addItem, keeps_bind, keeps_checkFields, keeps_editableCount, keeps_now,
    keeps_freshId, keeps_counts]
  refine fun _ seen _ => ⟨trivial, fun time => ⟨trivial, fun id => ⟨?_, fun item => ?_⟩⟩⟩
  · exact ⟨⟨rfl, rfl, rfl, rfl⟩, List.mem_cons_self⟩
  · split
    · exact keeps_recordQuantity (.inserted List.mem_cons_self)
    · exact keeps_pure.mpr trivial

theorem recordInVersion_follows {seen : Count} {item : Id} {qty : Decimal} :
    Follows Founded (recordInVersion seen item qty actor) := by
  intro h
  simp only [recordInVersion, keeps_bind, keeps_counts, keeps_require, keeps_ite, keeps_fail]
  refine ⟨trivial, ?_⟩
  rintro _ stored rfl
  exact ⟨fun _ => trivial, fun _ => keeps_recordQuantity (.read List.mem_cons_self)⟩

theorem updateItem_follows {item : Id} {r : RecordQuantity} :
    Follows Founded (Counting.updateItem tenant count item r actor) := by
  intro h
  simp only [Counting.updateItem, keeps_bind, keeps_checkFields, keeps_editableCount]
  exact fun _ seen _ => recordInVersion_follows _

theorem submitEntries_follows {seen : Count} {summary : SubmitSummary} {entries : List CountEntry} :
    Follows Founded (submitEntries seen actor summary entries) := by
  induction entries generalizing summary with
  | nil => exact fun h => keeps_pure.mpr trivial
  | cons entry entries ih => exact recordInVersion_follows.attempt.bind fun _ => ih

theorem submit_follows {version : Int} {r : SubmitEntries} :
    Follows Founded (Counting.submit tenant count version r actor) := by
  intro h
  simp only [Counting.submit, keeps_bind, keeps_checkFields, keeps_editableCount, keeps_ite,
    keeps_fail]
  exact fun _ seen _ => ⟨fun _ => trivial, fun _ => submitEntries_follows _⟩

end Recording

section Review

variable {tenant count actor : Id}

/-- The items of the next version have the identifiers that were just drawn for them. -/
theorem keeps_nextItems {version : Int} {time : Time} {items : List Item} :
    Keeps Founded
      (fun new h' => h <:+ h' ∧ ∃ ids : List Id, ids.length = items.length ∧
        recentIds h' = ids.reverse ++ recentIds h ∧
        new = Item.nextAll version time items ids)
      (nextItems version time items) h := by
  induction items generalizing h with
  | nil => exact keeps_pure.mpr ⟨List.suffix_refl h, [], rfl, rfl, rfl⟩
  | cons i items ih =>
    simp only [nextItems, keeps_bind, keeps_freshId, keeps_pure]
    refine ⟨trivial, fun id => ih.mono (fun _ _ hq => hq) ?_⟩
    rintro new h' - ⟨hsuffix, ids, hlength, hids, rfl⟩
    refine ⟨(List.suffix_cons _ h).trans hsuffix, id :: ids, ?_, ?_, rfl⟩
    · rw [List.length_cons, List.length_cons, hlength]
    · rw [hids, List.reverse_cons, List.append_assoc]
      rfl

theorem openRecount_follows : Follows Founded (Counting.openRecount tenant count actor) := by
  intro h
  simp only [Counting.openRecount, keeps_bind, keeps_getCount, keeps_ite, keeps_fail, keeps_counts,
    keeps_pure, keeps_now]
  refine fun seen => ⟨fun _ => trivial, fun _ => ⟨trivial, fun items => ⟨fun _ => trivial, fun _ =>
    ⟨trivial, fun time => keeps_nextItems.mono (fun _ _ hq => hq) ?_⟩⟩⟩⟩
  rintro new h' - ⟨hsuffix, ids, hlength, hids, rfl⟩
  refine ⟨?_, fun _ => trivial⟩
  refine .recount seen.currentVersion actor items ids time ?_ ?_ hlength
  · exact hsuffix.subset (List.mem_cons_of_mem _ List.mem_cons_self)
  · exact hids.trans (List.append_nil _)

theorem resolveReport_keeps {report : Id} {r : ResolveReport} :
    Keeps (Allowed (.resolveReport tenant count report r actor)) (fun _ _ => True)
      (Counting.resolveReport tenant count report r actor) [] := by
  simp only [Counting.resolveReport, getCount, keeps_bind, keeps_checkFields, keeps_ite, keeps_fail,
    keeps_counts, keeps_require, keeps_now]
  refine fun _ => ⟨.inl trivial, ?_⟩
  rintro _ seen rfl
  refine ⟨fun _ => trivial, fun hstatus => ⟨.inl trivial, ?_⟩⟩
  rintro _ stored rfl
  refine ⟨fun _ => trivial, fun _ => ⟨.inl trivial, fun time => keeps_counts.mpr
    ⟨.inr ⟨trivial, _, rfl, ?_⟩, fun _ => trivial⟩⟩⟩
  refine @FoundedSave.mk _ tenant count report seen stored _ _ _ _ ?_ ?_ ?_ ?_
  · exact .tail _ (.tail _ (.head _))
  · simpa using hstatus
  · exact .tail _ (.head _)
  · intro e he
    rcases List.mem_cons.mp he with rfl | he
    · trivial
    · rcases List.mem_cons.mp he with rfl | he
      · trivial
      · rw [List.mem_singleton.mp he]
        trivial

end Review

section Reading

variable {tenant count : Id}

theorem listCounts_follows {status : Option Status} :
    Follows Founded (Counting.listCounts tenant status) :=
  fun _ => keeps_counts.mpr ⟨trivial, fun _ => trivial⟩

theorem getCount_follows : Follows Founded (Counting.getCount tenant count) :=
  (founded_lookups tenant).getCount_follows

theorem editableCount_follows : Follows Founded (Counting.editableCount tenant count) :=
  fun _ => keeps_editableCount.mpr fun _ _ => trivial

theorem listItems_follows {version : Option Int} :
    Follows Founded (Counting.listItems tenant count version) :=
  getCount_follows.bind fun _ _ => keeps_counts.mpr ⟨trivial, fun _ => trivial⟩

theorem versionHistory_follows : Follows Founded (Counting.versionHistory tenant count) := by
  refine getCount_follows.bind fun seen h => ?_
  simp only [keeps_bind, keeps_counts, keeps_arithmetic, keeps_pure]
  exact ⟨trivial, fun _ => ⟨trivial, fun _ _ _ => trivial⟩⟩

theorem listReports_follows {version : Option Int} :
    Follows Founded (Counting.listReports tenant count version) :=
  getCount_follows.bind fun _ _ => keeps_counts.mpr ⟨trivial, fun _ => trivial⟩

theorem listAttempts_follows : Follows Founded (WriteBack.listAttempts tenant count) :=
  getCount_follows.bind fun _ _ => keeps_counts.mpr ⟨trivial, fun _ => trivial⟩

end Reading

section Loading

variable {tenant count : Id} {sources : Loading.Sources} {limit : Nat}

theorem storeAll_follows {seen : Count} {location : Id} {summary : Loading.Summary}
    {records : List ItemRecord} : Follows Founded (Loading.storeAll seen location summary records) := by
  induction records generalizing summary with
  | nil => exact pure_follows
  | cons r records ih =>
    intro h
    simp only [Loading.storeAll, keeps_bind, keeps_now, keeps_freshId]
    refine ⟨trivial, fun time => ⟨trivial, fun id => ?_⟩⟩
    refine Keeps.attempt (keeps_counts.mpr ⟨?_, fun _ => ih _⟩) fun _ _ _ => ih _
    exact ⟨⟨rfl, rfl, rfl, rfl⟩, List.mem_cons_self⟩

theorem storeRecords_follows {seen : Count} {location : Id} {summary : Loading.Summary}
    {records : List ItemRecord} :
    Follows Founded (Loading.storeRecords seen location summary records) :=
  arithmetic_follows.bind fun _ => storeAll_follows

theorem loadItems_follows {r : Loading.LoadRequest} :
    Follows Founded (Loading.loadItems sources tenant count r) :=
  editableCount_follows.bind fun _ => (founded_lookups tenant).loadSeen_follows fun _ _ _ =>
    storeRecords_follows

theorem importItems_follows {content : File.Content} {filename : String}
    {location mapping : Option Id} :
    Follows Founded (Loading.importItems tenant count content filename location mapping) :=
  editableCount_follows.bind fun _ => (founded_lookups tenant).getGiven_follows.bind fun _ =>
    check_follows.bind fun _ => storeRecords_follows.bind fun _ => pure_follows

theorem exportItems_follows {version : Option Int} {mapping : Option Id} :
    Follows Founded (Loading.exportItems tenant count version mapping) := by
  refine getCount_follows.bind fun seen =>
    (founded_lookups tenant).getGiven_follows.bind fun mapping h => ?_
  simp only [keeps_bind, keeps_counts, keeps_pure]
  exact ⟨trivial, fun _ => trivial⟩

end Loading

section Mappings

variable {tenant : Id} {connections : Erp.Connections}

theorem createMapping_follows {r : CreateMapping} {actor : Id} :
    Follows Founded (Mapping.create connections tenant r actor) := by
  intro h
  simp only [Mapping.create, keeps_bind, keeps_checkFields, keeps_now, keeps_freshId, keeps_check]
  exact fun _ => ⟨trivial, fun _ => ⟨trivial, fun _ _ _ => mappings_follows (fun _ => trivial) _⟩⟩

theorem updateMapping_follows {id : Id} {r : UpdateMapping} :
    Follows Founded (Mapping.update connections tenant id r) := by
  refine checkFields_follows.bind fun _ => ?_
  refine (founded_lookups tenant).getMapping_follows.bind fun stored h => ?_
  simp only [keeps_ite, keeps_fail, keeps_bind, keeps_now, keeps_check]
  exact ⟨fun _ => trivial, fun _ => ⟨trivial, fun _ _ _ => mappings_follows (fun _ => trivial) _⟩⟩

end Mappings

section WritingBack

variable {tenant count actor connection : Id} {connections : Erp.Connections} {default : Option Id}

theorem send_follows {r : WriteBack.SendRequest} :
    Follows Founded (WriteBack.send connections default tenant count r actor) := by
  rw [WriteBack.send_eq_seen]
  refine getCount_follows.bind fun seen => ?_
  split
  · exact check_follows
  · exact (founded_lookups tenant).sendSeen_follows (fun _ => trivial) (fun _ => trivial)
      (fun _ _ _ _ _ => trivial)
      fun _ => .stage .close seen.currentVersion actor (by simp [stageChanges])

end WritingBack

/-- Whatever a task is answered, it asks only what it may ask. -/
theorem Task.program_keeps (sources : Loading.Sources) (t : Task) :
    (t.program sources).Keeps (Allowed t) (fun _ _ => True) [] := by
  have hwork : ∀ {α : Type} {x : Action α}, Follows Founded x →
      (work x).Keeps (Allowed t) (fun _ _ => True) [] := by
    intro α x hx
    refine Program.keeps_bind.mpr (Program.Keeps.mono (hx []) (fun _ _ => .inl) ?_)
    exact fun _ _ _ _ => trivial
  cases t with
  | createCount => exact hwork createCount_follows
  | listCounts => exact hwork listCounts_follows
  | getCount => exact hwork getCount_follows
  | deleteCount => exact hwork deleteCount_follows
  | changeStage tenant count change actor => exact hwork (changeStage_follows change.property)
  | completeCount => exact hwork completeCount_follows
  | openRecount => exact hwork openRecount_follows
  | versionHistory => exact hwork versionHistory_follows
  | listItems => exact hwork listItems_follows
  | addItem => exact hwork addItem_follows
  | updateItem => exact hwork updateItem_follows
  | submit => exact hwork submit_follows
  | listReports => exact hwork listReports_follows
  | resolveReport =>
    refine Program.keeps_bind.mpr (Program.Keeps.mono resolveReport_keeps (fun _ _ hq => hq) ?_)
    exact fun _ _ _ _ => trivial
  | loadItems => exact hwork loadItems_follows
  | importItems => exact hwork importItems_follows
  | exportItems => exact hwork exportItems_follows
  | send => exact hwork send_follows
  | listAttempts => exact hwork listAttempts_follows
  | createMapping => exact hwork createMapping_follows
  | listMappings => exact hwork (mappings_follows fun _ => trivial)
  | getMapping tenant => exact hwork (founded_lookups tenant).getMapping_follows
  | updateMapping => exact hwork updateMapping_follows
  | setActive => exact hwork (mappings_follows fun _ => trivial)
  | testConnection => exact hwork founded_aboutStore.testConnection_follows
  | fetchCatalog => exact hwork founded_aboutStore.fetchCatalog_follows
  | preview tenant => exact hwork (founded_lookups tenant).preview_follows
end Concurrent
end Recount
