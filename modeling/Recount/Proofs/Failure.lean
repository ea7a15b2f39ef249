import Recount.Proofs.ActiveMapping
import Recount.Proofs.Loading.Reading
import Recount.Proofs.Tenant.Performing

/-!
# Failed tasks

Nearly every task checks before it writes: it reads, it checks what it has read, and only then it
makes one call that writes, which is refused as a whole or not at all. After a call that was granted
nothing can fail any more. Two tasks are not of this form: an item is added before its quantity is
recorded, and a transfer leaves an attempt behind.
-/

namespace Recount

open Concurrent (Scene Ending Task)

variable {α β : Type}

namespace Action

/-- An action that fails leaves the store as it was. -/
def Whole (x : Action α) : Prop :=
  ∀ σ, x.Leads (fun ending σ' => ∀ e, ending = .failure e → σ'.store = σ.store) σ

/-- An action that cannot fail. -/
def Unfailing (x : Action α) : Prop := ∀ σ, x.Leads (fun ending _ => ∀ e, ending ≠ .failure e) σ

section Rules

variable {x : Action α} {f : α → Action β}

theorem Unfailing.whole (hx : x.Unfailing) : x.Whole :=
  fun σ => (hx σ).mono fun _ _ hnot e he => absurd he (hnot e)

theorem Reads.whole (hx : x.Reads) : x.Whole :=
  fun _ => hx.leads.mono fun _ _ h _ _ => h.2.store

/-- What is read first does not matter to what is left behind. -/
theorem Whole.after (hf : ∀ a, (f a).Whole) (hx : x.Reads) : (x >>= f).Whole := by
  refine fun σ => leads_bind.mpr (hx.leads.mono fun ending σ₁ ⟨_, hidle⟩ => ?_)
  cases ending with
  | success a => exact (hf a σ₁).mono fun _ _ h e he => (h e he).trans hidle.store
  | failure e => exact fun _ _ => hidle.store
  | overflow o => rintro _ ⟨⟩

/-- After an action that leaves nothing behind when it fails, only work is safe that cannot fail. -/
theorem Whole.bind (hx : x.Whole) (hf : ∀ a, (f a).Unfailing) : (x >>= f).Whole := by
  refine fun σ => leads_bind.mpr ((hx σ).mono fun ending σ₁ h => ?_)
  cases ending with
  | success a =>
    rw [andThen_success]
    exact (hf a σ₁).mono fun _ _ hnot e he => absurd he (hnot e)
  | failure e => exact fun _ _ => h e rfl
  | overflow o => rintro _ ⟨⟩

theorem Unfailing.bind (hx : x.Unfailing) (hf : ∀ a, (f a).Unfailing) : (x >>= f).Unfailing := by
  refine fun σ => leads_bind.mpr ((hx σ).mono fun ending σ₁ h => ?_)
  cases ending with
  | success a => exact hf a σ₁
  | failure e => exact absurd rfl (h e)
  | overflow o => rintro _ ⟨⟩

theorem pure_unfailing {a : α} : (pure a : Action α).Unfailing := by
  rintro σ _ ⟨⟩

theorem attempt_unfailing : Unfailing (attempt x) := by
  refine fun σ => leads_attempt.mpr (leads_iff_runs.mpr fun ending σ' _ => ?_)
  cases ending <;> rintro _ ⟨⟩

theorem now_unfailing : now.Unfailing := fun _ => leads_now.mpr (by rintro _ _ ⟨⟩)

theorem freshId_unfailing : freshId.Unfailing := fun _ => leads_freshId.mpr (by rintro _ _ _ ⟨⟩)

/-- Arithmetic stops a program or goes on, but it is no failure. -/
theorem arithmetic_unfailing {result : Except Overflow α} : Unfailing (arithmetic result) := by
  cases result <;> rintro σ _ ⟨⟩

theorem Whole.after_arithmetic {result : Except Overflow α} (hf : ∀ a, (f a).Whole) :
    Whole (arithmetic result >>= f) := by
  cases result with
  | ok a => exact hf a
  | error o => rintro σ _ ⟨⟩

theorem fail_whole {e : Error} : Whole (fail e : Action α) := fun _ _ _ => rfl

theorem whole_ite {c : Prop} [Decidable c] {y : Action α} (hx : x.Whole) (hy : y.Whole) :
    Whole (if c then x else y) := by
  split
  · exact hx
  · exact hy

/-- A call that only reads is granted. -/
theorem counts_unfailing {call : CountCall} (h : (StoreCall.counts call).Reads) :
    (counts call).Unfailing := by
  refine fun σ => leads_counts.mpr fun supply _ => ?_
  obtain ⟨result, hanswer⟩ := h σ.store supply
  change Answered (.counts call) _ σ supply (σ.store.answer supply (.counts call))
  rw [hanswer]
  rintro _ ⟨⟩

/-- One call on the store is answered as a whole. -/
theorem counts_whole {call : CountCall} : (counts call).Whole := by
  refine fun σ => leads_counts.mpr fun supply _ => ?_
  rcases σ.store.answerCounts supply call with (e | o) | ⟨result, s⟩
  · exact fun _ _ => rfl
  · rintro _ ⟨⟩
  · rintro _ ⟨⟩

theorem mappings_whole {call : MappingCall} : (mappings call).Whole := by
  refine fun σ => leads_mappings.mpr fun supply _ => ?_
  rcases σ.store.answerMappings supply call with (e | o) | ⟨result, s⟩
  · exact fun _ _ => rfl
  · rintro _ ⟨⟩
  · rintro _ ⟨⟩

theorem now_reads : now.Reads := ⟨trivial, fun _ => trivial⟩

theorem freshId_reads : freshId.Reads := ⟨trivial, fun _ => trivial⟩

theorem checkFields_reads {faults : List FieldFault} :
    (checkFields faults : Action Unit).Reads := by
  unfold checkFields
  split <;> exact check_reads

end Rules
end Action

open Recount.Action

namespace Counting

variable {tenant count actor : Id}

theorem getCount_reads : (getCount tenant count).Reads :=
  (counts_reads fun s _ => ⟨s.count? tenant count, rfl⟩).bind fun _ => require_reads

theorem editableCount_reads : (editableCount tenant count).Reads :=
  getCount_reads.bind fun _ => check_reads.bind fun _ => pure_reads

theorem listItems_reads {version : Option Int} : (counts (.listItems count version)).Reads :=
  counts_reads fun s _ => ⟨s.listItems count version, rfl⟩

theorem listReports_reads {version : Option Int} :
    (StoreCall.counts (.listReports count version)).Reads :=
  fun s _ => ⟨s.listReports count version, rfl⟩

theorem nextItems_reads {version : Int} {time : Time} {items : List Item} :
    (nextItems version time items).Reads := by
  induction items with
  | nil => exact pure_reads
  | cons i items ih => exact freshId_reads.bind fun _ => ih.bind fun _ => pure_reads

/-- The one call that may be refused after a count was submitted only reads. -/
theorem completeCount_whole : (completeCount tenant count actor).Whole :=
  .after (fun _ => counts_whole.bind fun _ =>
    (counts_unfailing listReports_reads).bind fun _ => pure_unfailing) getCount_reads

theorem openRecount_whole : (openRecount tenant count actor).Whole := by
  refine .after (fun seen => whole_ite fail_whole ?_) getCount_reads
  refine .after (fun items => whole_ite pure_unfailing.whole ?_) listItems_reads
  refine .after (fun time => .after (fun new => ?_) nextItems_reads) now_reads
  exact counts_whole.bind fun _ => pure_unfailing

theorem recordQuantity_whole {i : Item} {counted : Decimal} :
    (recordQuantity i counted actor).Whole := by
  refine whole_ite fail_whole (.after_arithmetic fun _ => ?_)
  refine .after (fun _ => .after (fun _ => .after (fun _ => ?_) now_reads) freshId_reads) now_reads
  exact .after_arithmetic fun _ => counts_whole

theorem recordInVersion_whole {seen : Count} {item : Id} {counted : Decimal} :
    (recordInVersion seen item counted actor).Whole := by
  refine .after (fun found => .after (fun stored => ?_) require_reads)
    (counts_reads fun s _ => ⟨s.item? seen.id item, rfl⟩)
  exact whole_ite fail_whole recordQuantity_whole

/-- A batch goes on after the entries that fail. -/
theorem submitEntries_unfailing {seen : Count} {s : SubmitSummary} {entries : List CountEntry} :
    (submitEntries seen actor s entries).Unfailing := by
  induction entries generalizing s with
  | nil => exact pure_unfailing
  | cons entry entries ih => exact attempt_unfailing.bind fun _ => ih

theorem submit_whole {version : Int} {r : SubmitEntries} :
    (submit tenant count version r actor).Whole := by
  refine .after (fun _ => .after (fun seen => ?_) editableCount_reads) checkFields_reads
  exact whole_ite fail_whole submitEntries_unfailing.whole

theorem resolveReport_whole {report : Id} {r : ResolveReport} :
    (resolveReport tenant count report r actor).Whole := by
  refine .after (fun _ => .after (fun seen => whole_ite fail_whole ?_) getCount_reads)
    checkFields_reads
  refine .after (fun found => .after (fun stored => whole_ite fail_whole ?_)
    require_reads) (counts_reads fun s _ => ⟨s.report? count report, rfl⟩)
  exact .after (fun _ => counts_whole) now_reads

end Counting

namespace Mapping

variable {connections : Erp.Connections} {tenant id actor : Id}

theorem create_whole {r : CreateMapping} : (create connections tenant r actor).Whole := by
  refine .after (fun _ => .after (fun time => .after (fun id => ?_) freshId_reads) now_reads)
    checkFields_reads
  exact .after (fun _ => mappings_whole) check_reads

theorem update_whole {r : UpdateMapping} : (update connections tenant id r).Whole := by
  refine .after (fun _ => .after (fun stored => whole_ite fail_whole ?_) get_reads)
    checkFields_reads
  exact .after (fun _ => .after (fun _ => mappings_whole) check_reads) now_reads

end Mapping

namespace Erp

variable {connections : Connections}

theorem testConnection_reads {connection : Id} : (testConnection connections connection).Reads :=
  check_reads.bind fun _ => (withSession_reads erp_reads).attempt.bind fun _ => pure_reads

theorem fetchCatalog_reads {connection : Id} : (fetchCatalog connections connection).Reads :=
  check_reads.bind fun _ => (withSession_reads erp_reads).bind fun _ => pure_reads

theorem preview_reads {tenant : Id} {r : PreviewRequest} :
    (preview connections tenant r).Reads := by
  refine Mapping.getGiven_reads.bind fun mapping => ?_
  cases r.connection.or (mapping.map (·.connection)) with
  | none => exact check_reads
  | some connection =>
    refine check_reads.bind fun dialect => ?_
    split
    · exact (fetchCatalog_reads.bind fun _ => pure_reads).bind fun _ => check_reads.bind fun _ =>
        (withSession_reads erp_reads).bind fun _ => pure_reads
    · exact pure_reads.bind fun _ => check_reads.bind fun _ =>
        (withSession_reads erp_reads).bind fun _ => pure_reads

end Erp

namespace Loading

variable {sources : Sources} {tenant count location : Id} {c : Count}

/-- An item that cannot be stored is reported, and the others are stored. -/
theorem storeAll_unfailing {s : Summary} {records : List ItemRecord} :
    (storeAll c location s records).Unfailing := by
  induction records generalizing s with
  | nil => exact pure_unfailing
  | cons r records ih =>
    exact now_unfailing.bind fun _ => freshId_unfailing.bind fun _ =>
      attempt_unfailing.bind fun _ => ih

theorem storeRecords_unfailing {s : Summary} {records : List ItemRecord} :
    (storeRecords c location s records).Unfailing :=
  arithmetic_unfailing.bind fun _ => storeAll_unfailing

theorem Fetched.store_unfailing {f : Fetched} : (f.store c location).Unfailing := by
  unfold Fetched.store
  split
  · exact storeRecords_unfailing
  · exact pure_unfailing

theorem loadItems_whole {r : LoadRequest} : (loadItems sources tenant count r).Whole := by
  rw [loadItems_eq]
  refine .after (fun _ => Fetched.store_unfailing.whole) ?_
  exact Counting.editableCount_reads.bind fun _ => fetch_reads.bind fun _ => pure_reads

theorem importItems_whole {content : File.Content} {filename : String}
    {location mapping : Option Id} :
    (importItems tenant count content filename location mapping).Whole := by
  refine .after (fun seen => .after (fun mapping => .after (fun items => ?_) check_reads)
    Mapping.getGiven_reads) Counting.editableCount_reads
  exact (storeRecords_unfailing.bind fun _ => pure_unfailing).whole

end Loading

namespace Concurrent

/-- The task may fail after it has written. -/
def Task.writesFirst : Task → Prop
  | addItem .. | send .. => True
  | _ => False

variable {sources : Loading.Sources} {t : Task}

theorem Task.whole (ht : ¬ t.writesFirst) : (t.action sources).Whole := by
  cases t with
  | createCount tenant r actor => exact .after (fun _ => counts_whole) checkFields_reads
  | listCounts tenant status => exact counts_whole
  | getCount tenant count => exact Counting.getCount_reads.whole
  | deleteCount tenant count => exact .after (fun _ => counts_whole) Counting.getCount_reads
  | changeStage tenant count change actor =>
    exact .after (fun _ => counts_whole) Counting.getCount_reads
  | completeCount tenant count actor => exact Counting.completeCount_whole
  | openRecount tenant count actor => exact Counting.openRecount_whole
  | versionHistory tenant count =>
    refine .after (fun _ => .after (fun _ => .after (fun _ => ?_) (counts_reads
      Counting.listReports_reads)) Counting.listItems_reads) Counting.getCount_reads
    exact .after_arithmetic fun _ => pure_unfailing.whole
  | listItems tenant count version =>
    exact .after (fun _ => counts_whole) Counting.getCount_reads
  | addItem tenant count r actor => exact absurd trivial ht
  | updateItem tenant count item r actor =>
    exact .after (fun _ => .after (fun _ => Counting.recordInVersion_whole)
      Counting.editableCount_reads) checkFields_reads
  | submit tenant count version r actor => exact Counting.submit_whole
  | listReports tenant count version =>
    exact .after (fun _ => counts_whole) Counting.getCount_reads
  | resolveReport tenant count report r actor => exact Counting.resolveReport_whole
  | loadItems tenant count r => exact Loading.loadItems_whole
  | importItems tenant count content filename location mapping => exact Loading.importItems_whole
  | exportItems tenant count version mapping =>
    exact (Counting.getCount_reads.bind fun _ => Mapping.getGiven_reads.bind fun _ =>
      Counting.listItems_reads.bind fun _ => pure_reads).whole
  | send tenant count r actor => exact absurd trivial ht
  | listAttempts tenant count => exact .after (fun _ => counts_whole) Counting.getCount_reads
  | createMapping tenant r actor => exact Mapping.create_whole
  | listMappings tenant dataset => exact mappings_whole
  | getMapping tenant mapping => exact Mapping.get_reads.whole
  | updateMapping tenant mapping r => exact Mapping.update_whole
  | setActive tenant mapping active => exact mappings_whole
  | testConnection connection => exact Erp.testConnection_reads.whole
  | fetchCatalog connection => exact Erp.fetchCatalog_reads.whole
  | preview tenant r => exact Erp.preview_reads.whole

/-- A task that runs alone and fails leaves the store as it was, whatever it is asked for, whatever
is stored and whatever planning systems answer, if only it does not write before it can fail. -/
theorem unchanged_of_failure (ht : ¬ t.writesFirst) {σ σ' : Scene} {e : Error}
    (hrun : (t.action sources).Runs σ (.failure e) σ') : σ'.store = σ.store :=
  Action.leads_iff_runs.mp (Task.whole ht σ) _ _ hrun e rfl

/-- A count is created, and a mapping that items can be loaded with. -/
def countWithMapping : World := played oneConnection
  (.begin newCount :: goIn 1 0 :: .begin (newMapping "A" true) :: goOn 2 1 3)

/-- Items are loaded with the mapping. -/
def namedLoad : Task := .loadItems (.ofNat 1) (.ofNat 1000) ⟨some (.ofNat 3000), none, none⟩

/-- A session can be opened, but no query is answered. -/
def unanswered : Surroundings where
  draw k := ⟨(roundSupply (30 + k)).id, fun item => item, (roundSupply (30 + k)).time⟩
  erp _ _
    | .query _ => .error .notOpen
    | call => calm call

theorem unchanged_of_failure_unanswered : ∃ σ,
    (namedLoad.action oneConnection).Runs ⟨countWithMapping.store, countWithMapping.drawn, []⟩
      (.failure (.erp .notOpen)) σ ∧ σ.store = countWithMapping.store := by
  have hfresh : unanswered.FreshFor (namedLoad.action oneConnection).run countWithMapping.store
      countWithMapping.drawn 0 := by
    decide +kernel
  have hresult : (unanswered.perform (namedLoad.action oneConnection) countWithMapping.store).1 =
      .ok (.error (.erp .notOpen)) := by
    rfl
  obtain ⟨σ, hruns, -⟩ := Surroundings.exists_runs_perform hfresh
  rw [hresult] at hruns
  exact ⟨σ, hruns, unchanged_of_failure (t := namedLoad) not_false hruns⟩

end Concurrent
end Recount
