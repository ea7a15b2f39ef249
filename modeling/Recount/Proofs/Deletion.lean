import Recount.Proofs.ActiveMapping
import Recount.Proofs.Concurrent.History
import Recount.Proofs.Concurrent.MappingWrites
import Recount.Proofs.Concurrent.Unfolding
import Recount.Proofs.Finality
import Recount.Proofs.Integrity
import Recount.Proofs.Tenant.Orderly
import Recount.Proofs.WriteBack.Sending

/-!
# Deletion

A count is deleted with all that belongs to it, and nothing else changes. Whatever is written of a
count later is refused when the count is gone, but for one kind of write: the record of an attempt is
stored without a look at the count. So a task that sends a count, and has looked it up before the
deletion, may leave an attempt of a count that is gone.
-/

/-! ## Who records attempts

An attempt to write a count back is recorded by a task that sends it, and only after the task has
looked the count up and seen it completed. -/

namespace Recount.Concurrent

open Recount.Action Recount.Counting
open Program (Rule)

/-- Attempts are recorded of one count only. -/
def RecordsOf (count : Id) : Rule Request Request.Answer := fun _ q =>
  match q with
  | .store (.counts (.addAttempt a)) => a.count = count
  | _ => True

/-- A task that sends a count has looked it up. -/
structure Sends (t : Task) (past : List Exchange) (tenant count : Id) (seen : Count) : Prop where
  task : ∃ r actor, t = .send tenant count r actor
  shown : ⟨.store (.counts (.get tenant count)), .ok (some seen)⟩ ∈ past
  completed : seen.status = .completed

/-- An attempt is recorded by a task that sends the count, after it has looked it up. -/
def RecordsSeen (t : Task) : Rule Request Request.Answer := fun h q =>
  match q with
  | .store (.counts (.addAttempt a)) =>
    ∃ tenant count seen, Sends t h tenant count seen ∧ a.count = seen.id
  | _ => True

variable {sources : Loading.Sources} {alone : Task → Prop} {w : World} {work : Work} {t : Task}
  {tenant count actor : Id} {connections : Erp.Connections}

theorem recordsOf_lookups (tenant count : Id) : AllowsLookups tenant (RecordsOf count) where
  erp _ _ _ := trivial
  freshId _ := trivial
  now _ := trivial
  count _ _ := trivial
  mapping _ _ := trivial
  active _ _ := trivial

theorem recordsSeen_aboutRecords : AboutRecords (RecordsSeen t) where
  erp _ _ _ := trivial
  freshId _ := trivial
  now _ := trivial
  counts _ call _ hcall := by
    cases call with
    | addAttempt a => cases hcall
    | _ => trivial
  enters _ call hcall := by
    cases call with
    | addAttempt a => cases hcall
    | _ => trivial
  get _ _ _ := trivial
  list _ _ _ := trivial
  setActive _ _ _ _ := trivial
  findActive _ _ _ := trivial

/-- A task that sends a count looks it up first, and goes on only if it is completed. -/
theorem send_recordsSeen {default : Option Id} {r : WriteBack.SendRequest}
    (ht : t = .send tenant count r actor) :
    Follows (RecordsSeen t) (WriteBack.send connections default tenant count r actor) := by
  rw [WriteBack.send_eq_seen]
  intro h
  refine keeps_bind.mpr ((recordsSeen_aboutRecords.lookups tenant).keeps_getCount.mpr fun seen => ?_)
  split
  · exact keeps_fail.mpr trivial
  · next hstatus =>
    -- From here on it is enough that attempts are recorded of the count that was seen.
    refine Program.Keeps.weaken ((?_ : Follows (RecordsOf seen.id) _) _) fun h' q hsuffix hq => ?_
    · exact (recordsOf_lookups tenant seen.id).sendSeen_follows (fun _ => trivial) (fun _ => trivial)
        (fun _ _ _ _ _ => rfl) fun _ => trivial
    · unfold RecordsSeen
      split
      · exact ⟨tenant, count, seen, ⟨⟨r, actor, ht⟩, hsuffix.subset List.mem_cons_self,
          not_not.mp hstatus⟩, hq⟩
      · trivial

/-- Whatever a task is answered, it records attempts of counts that it has seen completed. -/
theorem Task.program_recordsSeen (sources : Loading.Sources) (t : Task) :
    (t.program sources).Keeps (RecordsSeen t) (fun _ _ => True) [] := by
  have haction : Follows (RecordsSeen t) (t.action sources) := by
    cases ht : t with
    | createMapping => exact recordsSeen_aboutRecords.createMapping_follows fun _ _ => trivial
    | updateMapping => exact recordsSeen_aboutRecords.updateMapping_follows fun _ _ => trivial
    | send => exact send_recordsSeen rfl
    | _ => exact recordsSeen_aboutRecords.action_follows id rfl
  rw [t.program_eq_work]
  exact Program.keeps_bind.mpr (Program.Keeps.mono (haction []) (fun _ _ hq => hq)
    fun _ _ _ _ => trivial)

/-- A task that is about to record an attempt sends its count, which it has looked up before. -/
theorem Reachable.sends (hw : Reachable sources alone w) (hwork : work ∈ w.works) {a : Attempt} {next}
    (hrest : work.rest = .ask (.store (.counts (.addAttempt a))) next) :
    ∃ tenant count seen, Sends work.task work.past tenant count seen ∧ a.count = seen.id := by
  obtain ⟨rest, hreaches, hcame⟩ := hw.reaches hwork
  obtain ⟨hkeeps, -⟩ := hreaches.keeps (work.task.program_recordsSeen sources)
  rcases hcame with heq | ⟨o, hstop, -⟩
  · rw [← heq, hrest] at hkeeps
    exact hkeeps.1
  · cases hrest.symm.trans hstop

end Recount.Concurrent

/-! ## Deleted counts -/

namespace Recount

namespace Store

/-- The store without a count and all that belongs to it. -/
def without (s : Store) (id : Id) : Store :=
  { s with
    counts := s.counts.filter (·.id ≠ id)
    items := s.items.filter (·.count ≠ id)
    reports := s.reports.filter (·.count ≠ id)
    attempts := s.attempts.filter (·.count ≠ id) }

/-- Neither a count nor an item or a report of it is there. -/
structure Misses (s : Store) (id : Id) : Prop where
  counts : ∀ c ∈ s.counts, c.id ≠ id
  items : ∀ i ∈ s.items, i.count ≠ id
  reports : ∀ r ∈ s.reports, r.count ≠ id

variable {s s' : Store} {supply : Supply} {id : Id} {a : Attempt}

/-- In a sound store, a count that is not there has neither items nor reports. -/
theorem Sound.misses (h : s.Sound) (habsent : ∀ c ∈ s.counts, c.id ≠ id) : s.Misses id := by
  have hitems : ∀ i ∈ s.items, i.count ≠ id := by
    intro i hi hcount
    obtain ⟨c, hc, hid, -⟩ := h.item_stored i hi
    exact habsent c hc (hid.trans hcount)
  refine ⟨habsent, hitems, fun r hr hcount => ?_⟩
  obtain ⟨i, hi, hsubject⟩ := h.report_stored r hr
  exact hitems i hi ((congrArg Subject.count hsubject).trans hcount)

/-- An attempt stays recorded until its count is deleted. -/
theorem mem_attempts_answerCounts {call : CountCall} {result}
    (h : s.answerCounts supply call = .ok (result, s')) (hkept : call.deletes? ≠ some a.count)
    (ha : a ∈ s.attempts) : a ∈ s'.attempts := by
  cases call with
  | change tenant id t =>
    obtain ⟨_, -, -, -, -, -, -, -, _, _, -, -, rfl⟩ := change_eq_ok h
    rw [putReports_eq, putItems_eq]
    exact ha
  | delete tenant id allowed =>
    obtain ⟨_, -, -, -, -, rfl⟩ := deleteCount_eq_ok h
    refine List.mem_filter.mpr ⟨ha, decide_eq_true fun hcount => hkept ?_⟩
    exact congrArg some hcount.symm
  | upsertItem new =>
    obtain ⟨_, _, _, _, _, ⟨_, _, rfl⟩ | ⟨_, _, _, ⟨_, _, rfl⟩ | ⟨_, _, _, _, _, rfl⟩⟩⟩ :=
      upsertItem_eq_ok h
    · exact ha
    · exact ha
    · rw [changeReport_eq]
      exact ha
  | insertItem new =>
    obtain ⟨_, _, _, _, _, _, _, rfl⟩ := insertItem_eq_ok h
    exact ha
  | recordItem new report =>
    obtain ⟨_, _, _, _, _, _, _, _, _, _, rfl⟩ := recordItem_eq_ok h
    rw [changeReport_eq]
    exact ha
  | saveReport r =>
    obtain ⟨_, _, rfl⟩ := saveReport_eq_ok h
    exact ha
  | addAttempt b =>
    cases h
    exact List.mem_append_left _ ha
  | _ =>
    cases h
    exact ha

end Store

namespace Concurrent

open Store Counting

variable {sources : Loading.Sources} {w w' w'' : World} {n m : Nat} {tenant count : Id}
  {allowed : List Status} {a : Attempt} {e : Exchange}

/-- An attempt is recorded. -/
def recording (a : Attempt) : Exchange := ⟨.store (.counts (.addAttempt a)), .ok ()⟩

/-- A task deletes a count. -/
def Deletes (n : Nat) (w w' : World) (tenant count : Id) (allowed : List Status) : Prop :=
  Exchanges n w w' ⟨.store (.counts (.delete tenant count allowed)), .ok ()⟩

section Answers

variable {s s' : Store} {drawn drawn' : List Id} {q : Request} {answer : q.Answer}

/-- A count that is not there cannot be deleted. -/
theorem deletes?_ne_of_absent {call : CountCall} {result} {supply : Supply}
    (h : s.answerCounts supply call = .ok (result, s')) (habsent : ∀ c ∈ s.counts, c.id ≠ count) :
    call.deletes? ≠ some count := by
  cases call with
  | delete tenant id allowed =>
    obtain ⟨c, hc, hid, -⟩ := deleteCount_eq_ok h
    exact fun heq => habsent c hc (hid.trans (Option.some.inj heq))
  | _ => nofun

/-- The attempts of a count that is gone are those that were there, with the one that is recorded. -/
theorem Answers.mem_attempts_iff (h : Answers s drawn q answer s' drawn')
    (habsent : ∀ c ∈ s.counts, c.id ≠ a.count) :
    a ∈ s'.attempts ↔ a ∈ s.attempts ∨ ⟨q, answer⟩ = recording a := by
  constructor
  · intro ha
    refine (h.attempts ha).imp_right ?_
    rintro rfl
    cases h with
    | store supply hfresh hstep =>
      cases (Prod.mk.inj hstep).1
      rfl
  · rintro (ha | heq)
    · rcases h.store_cases with rfl | ⟨call, supply, result, rfl, -, hanswer⟩
      · exact ha
      · cases call with
        | counts call =>
          exact mem_attempts_answerCounts hanswer (deletes?_ne_of_absent hanswer habsent) ha
        | mappings call => exact (answerMappings_eq_ok hanswer).2.2.2 ▸ ha
    · cases heq
      cases h with
      | store supply hfresh hstep =>
        rw [← (Prod.mk.inj hstep).2]
        exact List.mem_append_right _ (List.mem_singleton_self a)

theorem Answers.delete
    (h : Answers s drawn (.store (.counts (.delete tenant count allowed))) (.ok ()) s' drawn') :
    s' = s.without count := by
  obtain ⟨supply, hanswer⟩ := h.exists_answer
  obtain ⟨c, -, -, -, -, hstore⟩ := deleteCount_eq_ok hanswer
  exact hstore

theorem Answers.shown_count {id : Id} {seen : Count}
    (h : Answers s drawn (.store (.counts (.get tenant id))) (.ok (some seen)) s' drawn') :
    seen ∈ s.counts ∧ seen.id = id := by
  obtain ⟨hseen, hid, -⟩ := count?_eq_some (Except.ok.inj h.get).symm
  exact ⟨hseen, hid⟩

end Answers

section Gone

/-- A count that is gone stays so. -/
theorem World.Gone.later (h : w.Gone count) (hw : Reachable sources nobody w)
    (hlater : Relation.ReflTransGen (Step sources nobody) w w') : w'.Gone count := by
  induction hlater with
  | refl => exact h
  | tail hbefore hstep ih =>
    have hbetween : Reachable sources nobody _ := hw.trans hbefore
    exact ih.step hbetween.sound hstep

/-- Of a count that is gone, only what is recorded just then is added to the attempts, and none is
removed. -/
theorem World.Gone.mem_attempts_iff (h : w.Gone a.count) (hstep : Step sources nobody w w') :
    a ∈ w'.store.attempts ↔ a ∈ w.store.attempts ∨ ∃ m, Exchanges m w w' (recording a) := by
  cases hstep with
  | begin t ht =>
    refine ⟨.inl, fun hmem => hmem.resolve_right ?_⟩
    rintro ⟨m, hexchange⟩
    exact List.cons_ne_self _ _ hexchange.log.symm
  | @advance k w' hadvance =>
    cases hadvance with
    | answered hwork hrest hanswer =>
      refine (hanswer.mem_attempts_iff h.absent).trans (or_congr_right ?_)
      constructor
      · intro heq
        exact ⟨k, .answered hwork hrest hanswer, congrArg (· :: w.log) heq, heq ▸ hanswer⟩
      · rintro ⟨m, hexchange⟩
        exact (List.cons.inj hexchange.log).1
    | stopped =>
      refine ⟨.inl, fun hmem => hmem.resolve_right ?_⟩
      rintro ⟨m, hexchange⟩
      exact List.cons_ne_self _ _ hexchange.log.symm
  | whole t ht => exact ht.elim

end Gone

section Deleted

variable (hw : Reachable sources nobody w) (hdeletes : Deletes n w w' tenant count allowed)
include hw hdeletes

theorem Deletes.reachable : Reachable sources nobody w' := hw.tail (.advance hdeletes.advance)

theorem Deletes.gone : w'.Gone count := hw.sound.gone_of_deleted hdeletes.advance hdeletes.log rfl

/-- From its deletion on, the attempts of a count are those that are recorded since. -/
theorem Deletes.mem_attempts_iff (hlater : Relation.ReflTransGen (Step sources nobody) w' w'')
    (hcount : a.count = count) :
    a ∈ w''.store.attempts ↔ ∃ m, Happens sources w' w'' m (recording a) := by
  subst hcount
  have hgone : w'.Gone a.count := hdeletes.gone hw
  have hw' : Reachable sources nobody w' := hdeletes.reachable hw
  constructor
  · intro ha
    induction hlater with
    | refl =>
      rw [hdeletes.answers.delete] at ha
      exact absurd rfl (of_decide_eq_true (List.mem_filter.mp ha).2)
    | @tail w₁ w₂ hbefore hstep ih =>
      rcases ((hgone.later hw' hbefore).mem_attempts_iff hstep).mp ha with ha | ⟨m, hexchange⟩
      · obtain ⟨m, hhappens⟩ := ih ha
        exact ⟨m, hhappens.tail hstep⟩
      · exact ⟨m, w₁, w₂, hbefore, hexchange, .refl⟩
  · rintro ⟨m, x, y, hx, hexchange, hy⟩
    have hstep : Step sources nobody x y := .advance hexchange.advance
    have hy' : Relation.ReflTransGen (Step sources nobody) w' y := hx.tail hstep
    have ha : a ∈ y.store.attempts :=
      ((hgone.later hw' hx).mem_attempts_iff hstep).mpr (.inr ⟨m, hexchange⟩)
    clear hlater
    induction hy with
    | refl => exact ha
    | @tail w₁ w₂ hbefore hstep ih =>
      exact ((hgone.later hw' (hy'.trans hbefore)).mem_attempts_iff hstep).mpr (.inl ih)

/-- A task that records an attempt of a count after its deletion had looked it up before. -/
theorem Deletes.sends_before (hhappens : Happens sources w' w'' m (recording a))
    (hcount : a.count = count) : ∃ work tenant' seen, w.works[m]? = some work ∧
      Sends work.task work.past tenant' count seen := by
  subst hcount
  have hw' : Reachable sources nobody w' := hdeletes.reachable hw
  obtain ⟨x, y, hx, hexchange, -⟩ := hhappens
  have hx' : Reachable sources nobody x := hw'.trans hx
  obtain ⟨work, next, hwork, hrest⟩ := hexchange.exists_work
  obtain ⟨tenant', id, seen, hsends, hseen⟩ := hx'.sends (List.mem_of_getElem? hwork) hrest
  obtain ⟨_, _, -, hlooks, -⟩ := hx'.exchanged hwork hsends.shown
  obtain rfl : id = a.count := hlooks.answers.shown_count.2.symm.trans hseen.symm
  rcases asked_since hx hwork hsends.shown with ⟨before, hbefore, htask, hshown⟩ | hhappens
  · have hstep : Step sources nobody w w' := .advance hdeletes.advance
    rcases hstep.past_cases hbefore with hnil | ⟨first, hfirst, htask', hpast⟩
    · rw [hnil] at hshown
      exact absurd hshown List.not_mem_nil
    · refine ⟨first, tenant', seen, hfirst, ?task, ?shown, hsends.completed⟩
      case task => exact htask'.trans htask ▸ hsends.task
      case shown =>
        rcases hpast with heq | ⟨e, heq, hexchange⟩
        · exact heq ▸ hshown
        · rw [heq] at hshown
          rcases List.mem_cons.mp hshown with rfl | hshown
          · cases hdeletes.unique hexchange
          · exact hshown
  · -- It would have been shown a count that is gone.
    obtain ⟨_, _, hsince, hlooks, -⟩ := hhappens
    obtain ⟨hmem, hid⟩ := hlooks.answers.shown_count
    exact absurd hid (((hdeletes.gone hw).later hw' hsince).absent seen hmem)

end Deleted

/-- However the tasks of all users interleave, a deletion removes the count with all that belongs to
it and nothing else, and there never is such a count, an item or a report of it again. What is left
of it later is the attempts that are recorded after the deletion, each by a task that sends the count
and had seen it completed before. So the deletion is complete just if none is recorded. -/
theorem deletion_complete_iff (hw : Reachable sources nobody w)
    (hdeletes : Deletes n w w' tenant count allowed)
    (hlater : Relation.ReflTransGen (Step sources nobody) w' w'') :
    w'.store = w.store.without count ∧ w''.store.Misses count ∧
      (∀ a ∈ w''.store.attempts, a.count = count → ∃ m work tenant' seen,
        w.works[m]? = some work ∧ Sends work.task work.past tenant' count seen ∧
          Happens sources w' w'' m (recording a)) ∧
      ((∀ a ∈ w''.store.attempts, a.count ≠ count) ↔
        ∀ m a, a.count = count → ¬ Happens sources w' w'' m (recording a)) := by
  have hw' : Reachable sources nobody w' := hdeletes.reachable hw
  have hw'' : Reachable sources nobody w'' := hw'.trans hlater
  have hgone : w''.Gone count := (hdeletes.gone hw).later hw' hlater
  refine ⟨hdeletes.answers.delete, hw''.sound.store.misses hgone.absent, fun a ha hcount => ?_, ?_⟩
  · obtain ⟨m, hhappens⟩ := (hdeletes.mem_attempts_iff hw hlater hcount).mp ha
    obtain ⟨work, tenant', seen, hwork, hsends⟩ := hdeletes.sends_before hw hhappens hcount
    exact ⟨m, work, tenant', seen, hwork, hsends, hhappens⟩
  · constructor
    · exact fun hnone m a hcount hhappens =>
        hnone a ((hdeletes.mem_attempts_iff hw hlater hcount).mpr ⟨m, hhappens⟩) hcount
    · intro hnone a ha hcount
      obtain ⟨m, hhappens⟩ := (hdeletes.mem_attempts_iff hw hlater hcount).mp ha
      exact hnone m a hcount hhappens

section Replay

/-- The count that an exchange deleted, as it was asked for. -/
def deletion? : Exchange → Option (Id × Id × List Status)
  | ⟨.store (.counts (.delete tenant count allowed)), .ok ()⟩ => some (tenant, count, allowed)
  | _ => none

theorem deletion?_eq_some (h : deletion? e = some (tenant, count, allowed)) :
    e = ⟨.store (.counts (.delete tenant count allowed)), .ok ()⟩ := by
  unfold deletion? at h
  split at h
  · cases h
    rfl
  · cases h

/-- The first move that is played deletes a count, and the others follow. -/
theorem exists_deletes {moves : List Move} {worlds : List World} {supply : Supply}
    {erp : (call : ErpCall) → Except ErpFault call.Result} (hw : Reachable sources nobody w)
    (hworlds : w.worlds? sources (.go n supply erp :: moves) = some worlds)
    (hlogged : lastLogged? worlds 0 deletion? = some (tenant, count, allowed)) :
    Deletes n w (worldAt worlds 1) tenant count allowed ∧
      Relation.ReflTransGen (Step sources nobody) (worldAt worlds 1)
        (worldAt worlds (moves.length + 1)) := by
  obtain ⟨e, hexchange, he⟩ := exists_of_lastLogged? hworlds (t := 0) rfl hlogged
  rw [deletion?_eq_some he, World.worlds?_zero hworlds] at hexchange
  exact ⟨hexchange, (World.worlds?_unfolds hw (fun _ _ h => h) hworlds).later
    (Nat.le_add_left 1 _) (Nat.le_refl _)⟩

/-- A quantity of the only item of a draft is to be recorded, and the draft is to be deleted. -/
def draftInUse : List Move :=
  .begin newCount :: goOn 1 0 1 ++ .begin (newItem "A" none) :: goOn 2 1 4 ++
    .begin (newQuantity 4000 5) :: goOn 6 2 5 ++
    [.begin (.deleteCount (.ofNat 1) (.ofNat 1000)), goIn 11 3]

theorem deletion_complete_iff_draftInUse :
    ∃ w' w'', Deletes 3 (played noSources draftInUse) w' (.ofNat 1) (.ofNat 1000) deletable ∧
      Relation.ReflTransGen (Step noSources nobody) w' w'' ∧ w''.log.length = w'.log.length + 1 ∧
      w''.store.Misses (.ofNat 1000) ∧ ∀ a ∈ w''.store.attempts, a.count ≠ .ofNat 1000 := by
  have hw : Reachable noSources nobody (played noSources draftInUse) :=
    played_reachable fun _ _ h => h
  have hplayed : ((played noSources draftInUse).worlds? noSources [goIn 12 3, goIn 13 2]).any
      fun worlds => lastLogged? worlds 0 deletion? = some (.ofNat 1, .ofNat 1000, deletable) ∧
        (worldAt worlds 2).log.length = (worldAt worlds 1).log.length + 1 ∧
        ∀ work ∈ (played noSources draftInUse).works, work.task.recordsAttempt = false := by
    decide +kernel
  obtain ⟨worlds, hworlds, hplayed⟩ := (Option.any_eq_true _ _).mp hplayed
  obtain ⟨hlogged, hlength, hnone⟩ := of_decide_eq_true hplayed
  obtain ⟨hdeletes, hlater⟩ := exists_deletes hw hworlds hlogged
  obtain ⟨-, hmisses, hsends, -⟩ := deletion_complete_iff hw hdeletes hlater
  refine ⟨_, _, hdeletes, hlater, hlength, hmisses, fun a ha hcount => ?_⟩
  obtain ⟨m, work, tenant', seen, hwork, ⟨⟨r, actor, htask⟩, -, -⟩, -⟩ := hsends a ha hcount
  have hother := hnone work (List.mem_of_getElem? hwork)
  rw [htask] at hother
  cases hother

/-- A completed count is sent, and is cancelled and deleted in the meantime. -/
def deletedWhileSent : List Move :=
  .begin newCount :: goOn 1 0 1 ++
    .begin (.completeCount (.ofNat 1) (.ofNat 1000) (.ofNat 3)) :: goOn 2 1 3 ++
    .begin (.changeStage (.ofNat 1) (.ofNat 1000) ⟨.finalize, finalize_mem_stageChanges⟩ (.ofNat 3)) ::
      goOn 5 2 2 ++
    .begin (.send (.ofNat 1) (.ofNat 1000)
      ⟨.replace, some ⟨"stock", "qty", "code"⟩, some (.ofNat 9)⟩ (.ofNat 3)) :: goOn 7 3 1 ++
    .begin (.changeStage (.ofNat 1) (.ofNat 1000) ⟨.cancel, cancel_mem_stageChanges⟩ (.ofNat 3)) ::
      goOn 8 4 2 ++
    [.begin (.deleteCount (.ofNat 1) (.ofNat 1000)), goIn 10 5]

/-- A task that had seen the count completed records its attempt after the count is deleted. -/
theorem not_deletion_complete : ¬ ∀ (sources : Loading.Sources) (w w' w'' : World) (n : Nat)
    (tenant count : Id) (allowed : List Status), Reachable sources nobody w →
      Deletes n w w' tenant count allowed → Relation.ReflTransGen (Step sources nobody) w' w'' →
      ∀ a ∈ w''.store.attempts, a.count ≠ count := by
  intro h
  have hw : Reachable oneConnection nobody (played oneConnection deletedWhileSent) :=
    played_reachable fun _ _ h => h
  have hplayed : ((played oneConnection deletedWhileSent).worlds? oneConnection
      (goIn 11 5 :: goOn 12 3 9)).any fun worlds =>
        lastLogged? worlds 0 deletion? = some (.ofNat 1, .ofNat 1000, deletable) ∧
          ∃ a ∈ (worldAt worlds 10).store.attempts, a.count = .ofNat 1000 := by decide +kernel
  obtain ⟨worlds, hworlds, hplayed⟩ := (Option.any_eq_true _ _).mp hplayed
  obtain ⟨hlogged, a, ha, hcount⟩ := of_decide_eq_true hplayed
  obtain ⟨hdeletes, hlater⟩ := exists_deletes hw hworlds hlogged
  exact h _ _ _ _ _ _ _ _ hw hdeletes hlater a ha hcount

end Replay

end Concurrent
end Recount
