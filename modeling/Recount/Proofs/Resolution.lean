import Recount.Proofs.Concurrent.Unfolding
import Recount.Proofs.Counting.Resolving

/-!
# Resolving a report

A call that resolves a report looks whether it is pending, and saves it at a later moment without
looking again. So of the calls that come one after the other only the first one succeeds, but as
many calls succeed as have looked before one of them has saved, and the one that saves last decides.
-/

namespace Recount.Concurrent

open Store Counting

variable {sources : Loading.Sources} {world : Nat → World} {last n m t : Nat} {id count actor : Id}
  {r : ResolveReport} {new saved stored : Report} {w w' : World}

/-- The report with an identifier. -/
def World.report (w : World) (id : Id) : Option Report := w.store.reports.find? (·.id = id)

/-- A task is shown a report of a count. -/
def Shows (n : Nat) (w w' : World) (count id : Id) (stored : Report) : Prop :=
  Exchanges n w w' ⟨.store (.counts (.getReport count id)), .ok (some stored)⟩

/-- A task saves a report. -/
def Saves (n : Nat) (w w' : World) (new saved : Report) : Prop :=
  Exchanges n w w' ⟨.store (.counts (.saveReport new)), .ok saved⟩

/-- A call to resolve a report has succeeded. -/
def World.Resolved (w : World) (n : Nat) (id : Id) (r : ResolveReport) (actor : Id)
    (saved : Report) : Prop :=
  ∃ tenant count, (∃ work, w.works[n]? = some work ∧
      work.task = .resolveReport tenant count id r actor) ∧
    w.Returned n (resolveReport tenant count id r actor) (.ok saved)

/-- From the first to the last world, a report changes only when it is saved, unless it goes. At
first no task was shown it. -/
structure Watched (sources : Loading.Sources) (world : Nat → World) (last : Nat) (id : Id) : Prop where
  unfolds : Unfolds sources nobody last world
  unseen : ∀ work ∈ (world 0).works, ∀ count id' stored,
    ⟨.store (.counts (.getReport count id')), .ok (some stored)⟩ ∈ work.past → stored.id ≠ id
  kept : ∀ t < last, (world (t + 1)).report id = (world t).report id ∨
    (world (t + 1)).report id = none ∨
      ∃ n new saved, new.id = id ∧ Saves n (world t) (world (t + 1)) new saved

/-- A decision about a report: the call that made it, and the moments at which it was shown the
report and saved it. -/
structure Decision where
  task : Nat
  r : ResolveReport
  actor : Id
  look : Nat
  save : Nat
  stored : Report
  saved : Report

/-- A decision was made about a report that was pending, and it is what was asked for. -/
structure Decision.Made (d : Decision) (world : Nat → World) (last : Nat) (id : Id) : Prop where
  look_lt : d.look < d.save
  save_lt : d.save < last
  asked : ∃ tenant count work, (world d.save).works[d.task]? = some work ∧
    work.task = .resolveReport tenant count id d.r d.actor
  shows : ∃ count, Shows d.task (world d.look) (world (d.look + 1)) count id d.stored
  pending : d.stored.status = .pending
  saves : ∃ time now, d.saved = { d.stored.decided d.r d.actor time with updatedAt := now } ∧
    Saves d.task (world d.save) (world (d.save + 1)) (d.stored.decided d.r d.actor time) d.saved

/-- Another decision was saved after the report had been shown for this one, and before this one was
saved. -/
def Decision.Overlooks (d d' : Decision) : Prop := d.look < d'.save ∧ d'.save < d.save

section Exchanges

variable {s s' : Store} {drawn drawn' : List Id}

theorem Answers.getReport {answer}
    (h : Answers s drawn (.store (.counts (.getReport count id))) answer s' drawn') :
    answer = .ok (s.report? count id) := h.eq_of_step fun _ => rfl

theorem Answers.saveReport
    (h : Answers s drawn (.store (.counts (.saveReport new))) (.ok saved) s' drawn') :
    (∃ now, saved = { new with updatedAt := now }) ∧
      s'.reports = putBy Report.id saved s.reports := by
  obtain ⟨supply, hanswer⟩ := h.exists_answer
  obtain ⟨-, hsaved, rfl⟩ := saveReport_eq_ok hanswer
  exact ⟨⟨_, hsaved⟩, rfl⟩

/-- A report that is shown is stored. -/
theorem Shows.report (h : Shows n w w' count id stored) :
    w.report id = some stored ∧ stored.id = id := by
  have hfound : w.store.report? count id = some stored :=
    (Except.ok.inj (Answers.getReport h.answers)).symm
  exact ⟨(Option.filter_eq_some_iff.mp hfound).1, (report?_eq_some hfound).2.1⟩

/-- A report that is saved is stored then. -/
theorem Saves.report (h : Saves n w w' new saved) :
    w'.report new.id = some saved ∧ ∃ now, saved = { new with updatedAt := now } := by
  obtain ⟨⟨now, hsaved⟩, hreports⟩ := Answers.saveReport h.answers
  have hid : saved.id = new.id := by rw [hsaved]
  refine ⟨?_, now, hsaved⟩
  rw [World.report, hreports, ← hid]
  exact find?_putBy_self

/-- The task that saves a report was asked to resolve it, has decided about it before, and has
succeeded then. -/
theorem Saves.exists_decides (hw : Reachable sources nobody w) (h : Saves n w w' new saved) :
    ∃ tenant count id r actor work stored, w.works[n]? = some work ∧
      work.task = .resolveReport tenant count id r actor ∧
      Decides tenant count id r actor work.past stored new ∧ w'.Resolved n id r actor saved := by
  obtain ⟨work, next, hwork, hrest, hafter⟩ := Exchanges.exists_works h
  rcases hw.sound.allowed hwork hrest with hfounded | ⟨hresolves, -⟩
  · exact hfounded.elim
  · obtain ⟨p, hp, hcame⟩ := hw.action_reaches (List.mem_of_getElem? hwork)
    obtain ⟨next', rfl, -⟩ := hcame _ _ hrest
    obtain ⟨task, past, rest⟩ := work
    cases task with
    | resolveReport tenant count id r actor =>
      obtain ⟨rfl, stored, hdecides⟩ := (resolveReport_reaches hp).decides rfl
      exact ⟨tenant, count, id, r, actor, _, stored, hwork, rfl, hdecides, tenant, count,
        ⟨_, hafter, rfl⟩, _, hafter, hp.ask (.ok saved)⟩
    | _ => exact hresolves.elim

/-- A report that was shown was the one that was asked for. -/
theorem Reachable.shown_id (hw : Reachable sources nobody w) {work : Work}
    (hwork : w.works[n]? = some work)
    (he : ⟨.store (.counts (.getReport count id)), .ok (some stored)⟩ ∈ work.past) :
    stored.id = id := by
  obtain ⟨_, _, -, hshows, -⟩ := hw.exchanged hwork he
  exact (Shows.report hshows).2

/-- A task was shown what it has saved. -/
theorem Reachable.shown_of_saved (hw : Reachable sources nobody w) {work : Work}
    (hwork : w.works[n]? = some work)
    (he : ⟨.store (.counts (.saveReport new)), .ok saved⟩ ∈ work.past) :
    ∃ count id stored, ⟨.store (.counts (.getReport count id)), .ok (some stored)⟩ ∈ work.past ∧
      stored.id = new.id := by
  obtain ⟨a, b, ha, hsaves, hlater⟩ := hw.exchanged hwork he
  obtain ⟨tenant, count, id, r, actor, before, stored, hbefore, -, ⟨-, seen, time, -, rfl, hpast⟩, -⟩ :=
    Saves.exists_decides ha hsaves
  obtain ⟨after, hafter, -, hsuffix, -⟩ :=
    exchanged_since (.head (.advance hsaves.advance) hlater) hbefore
  cases hwork.symm.trans hafter
  refine ⟨count, id, stored, hsuffix.mem ?_, rfl⟩
  rw [hpast]
  exact .tail _ (.head _)

end Exchanges

theorem Decision.Made.saved_status_ne {d : Decision} (hd : d.Made world last id) :
    d.saved.status ≠ .pending := by
  obtain ⟨time, now, hsaved, -⟩ := hd.saves
  have hne : (d.stored.decided d.r d.actor time).status ≠ .pending := Report.decided_status_ne
  rw [hsaved]
  exact hne

namespace Unfolds

variable (h : Unfolds sources nobody last world)
include h

/-- A call that has succeeded has succeeded from then on. -/
theorem resolved_later {s : Nat} (hst : s ≤ t) (ht : t ≤ last)
    (hresolved : (world s).Resolved n id r actor saved) :
    (world t).Resolved n id r actor saved := by
  obtain ⟨tenant, count, ⟨work, hwork, htask⟩, between, hbetween, hdone⟩ := hresolved
  cases hbetween.symm.trans hwork
  obtain ⟨after, hafter, htask', hpast⟩ := h.past_of_done hst ht hwork htask hdone
  exact ⟨tenant, count, ⟨after, hafter, htask'⟩, after, hafter, hpast ▸ hdone⟩

/-- A task saves a report only once. -/
theorem save_unique {s : Nat} {new' saved' : Report} (hs : s < last) (ht : t < last)
    (hsaves : Saves n (world s) (world (s + 1)) new saved)
    (hsaves' : Saves n (world t) (world (t + 1)) new' saved') : s = t := by
  wlog hle : s ≤ t generalizing s t new saved new' saved'
  · exact (this ht hs hsaves' hsaves (by omega)).symm
  by_contra hne
  have hlt : s + 1 ≤ t := by omega
  obtain ⟨_, _, _, _, _, _, _, _, _, _, tenant, count, ⟨work, hwork, htask⟩, done, hdone, hreaches⟩ :=
    hsaves.exists_decides (h.reachable (Nat.le_of_lt hs))
  cases hdone.symm.trans hwork
  exact h.not_exchanges_of_done hlt ht hwork htask hreaches hsaves'

end Unfolds

namespace Watched

variable (h : Watched sources world last id) {d d' : Decision}
include h

/-- Who saves the report in the course was shown it in the course, too, and succeeds. -/
theorem exists_made (ht : t < last) (hsaves : Saves n (world t) (world (t + 1)) new saved)
    (hid : new.id = id) : ∃ d : Decision, d.Made world last id ∧ d.task = n ∧ d.save = t ∧
      d.saved = saved := by
  have hw : Reachable sources nobody (world t) := h.unfolds.reachable (Nat.le_of_lt ht)
  obtain ⟨tenant, count, id', r, actor, work, stored, hwork, htask, ⟨hpending, seen, time, -, rfl,
    hpast⟩, -⟩ := hsaves.exists_decides hw
  have hmem : ⟨.store (.counts (.getReport count id')), .ok (some stored)⟩ ∈ work.past := by
    rw [hpast]
    exact .tail _ (.head _)
  obtain rfl : id' = id := (hw.shown_id hwork hmem).symm.trans hid
  rcases h.unfolds.asked (Nat.le_of_lt ht) hwork hmem with ⟨before, hbefore, hmem⟩ |
    ⟨look, hlook, hshows⟩
  · exact absurd hid (h.unseen before (List.mem_of_getElem? hbefore) count id' stored hmem)
  · obtain ⟨-, now, hsaved⟩ := hsaves.report
    exact ⟨⟨n, r, actor, look, t, stored, saved⟩, ⟨hlook, ht, ⟨tenant, count, work, hwork, htask⟩,
      ⟨count, hshows⟩, hpending, time, now, hsaved, hsaves⟩, rfl, rfl, rfl⟩

/-- Who decides succeeds. -/
theorem resolved (hd : d.Made world last id) :
    (world last).Resolved d.task id d.r d.actor d.saved := by
  obtain ⟨time, now, hsaved, hsaves⟩ := hd.saves
  obtain ⟨tenant, count, asked, hasked, hasks⟩ := hd.asked
  obtain ⟨tenant', count', id', r, actor, work, stored, hwork, htask, -, hresolved⟩ :=
    hsaves.exists_decides (h.unfolds.reachable (Nat.le_of_lt hd.save_lt))
  cases hasked.symm.trans hwork
  cases hasks.symm.trans htask
  exact h.unfolds.resolved_later hd.save_lt (Nat.le_refl last) hresolved

/-- The calls that succeed are those that decide. -/
theorem resolved_iff : (world last).Resolved n id r actor saved ↔
    ∃ d : Decision, d.Made world last id ∧ d.task = n ∧ d.r = r ∧ d.actor = actor ∧
      d.saved = saved := by
  constructor
  · rintro ⟨tenant, count, ⟨work, hwork, htask⟩, done, hdone, hreaches⟩
    have hw : Reachable sources nobody (world last) := h.unfolds.reachable (Nat.le_refl last)
    cases hdone.symm.trans hwork
    obtain ⟨stored, new, before, hpast, -, seen, time, -, rfl, hbefore⟩ :=
      (resolveReport_reaches hreaches).saved_last rfl
    have hshown : ⟨.store (.counts (.getReport count id)), .ok (some stored)⟩ ∈ work.past := by
      rw [hpast, hbefore]
      exact .tail _ (.tail _ (.head _))
    have hid : stored.id = id := hw.shown_id hwork hshown
    rcases h.unfolds.asked (Nat.le_refl last) hwork (hpast ▸ List.mem_cons_self) with
      ⟨first, hfirst, hmem⟩ | ⟨s, hs, hsaves⟩
    · obtain ⟨count', id', stored', hmem', hid'⟩ := h.unfolds.start.shown_of_saved hfirst hmem
      exact absurd (hid'.trans hid) (h.unseen first (List.mem_of_getElem? hfirst) _ _ _ hmem')
    · obtain ⟨d, hd, rfl, -, rfl⟩ := h.exists_made hs hsaves hid
      obtain ⟨tenant', count', ⟨work', hwork', htask'⟩, -⟩ := h.resolved hd
      cases hwork.symm.trans hwork'
      cases htask.symm.trans htask'
      exact ⟨d, hd, rfl, rfl, rfl, rfl⟩
  · rintro ⟨d, hd, rfl, rfl, rfl, rfl⟩
    exact h.resolved hd

/-- Each moment leaves the report as it is, or it goes, or someone decides about it. -/
theorem report_cases (ht : t < last) : (world (t + 1)).report id = (world t).report id ∨
    (world (t + 1)).report id = none ∨
      ∃ d : Decision, d.Made world last id ∧ d.save = t ∧ (world (t + 1)).report id = some d.saved := by
  rcases h.kept t ht with hsame | hnone | ⟨n, new, saved, hid, hsaves⟩
  · exact .inl hsame
  · exact .inr (.inl hnone)
  · obtain ⟨d, hd, -, hsave, rfl⟩ := h.exists_made ht hsaves hid
    exact .inr (.inr ⟨d, hd, hsave, hid ▸ hsaves.report.1⟩)

/-- A decision stands from the moment at which it is saved until the next one is, if the report does
not go. -/
theorem report_of_made (hd : d.Made world last id) (ht : d.save < t) (hlast : t ≤ last)
    (hnext : ∀ d' : Decision, d'.Made world last id → d.save < d'.save → t ≤ d'.save) :
    (world t).report id = some d.saved ∨ (world t).report id = none := by
  induction ht with
  | refl =>
    obtain ⟨time, now, -, hsaves⟩ := hd.saves
    obtain ⟨count, hshows⟩ := hd.shows
    have hid : d.stored.id = id := hshows.report.2
    exact .inl (hid ▸ hsaves.report.1)
  | @step t ht ih =>
    rcases h.report_cases hlast with hsame | hnone | ⟨d', hd', rfl, -⟩
    · rw [hsame]
      exact ih (Nat.le_of_succ_le hlast) fun d' hd' hlt => Nat.le_of_succ_le (hnext d' hd' hlt)
    · exact .inr hnone
    · exact absurd (hnext d' hd' ht) (Nat.not_succ_le_self _)

/-- A report that was decided about is not pending any more. -/
theorem not_pending (hd : d.Made world last id) (ht : d.save < t) (hlast : t ≤ last)
    (hreport : (world t).report id = some stored) : stored.status ≠ .pending := by
  induction ht with
  | refl =>
    rcases h.report_of_made hd (Nat.lt_succ_self _) hlast fun d' _ hlt => hlt with hsome | hnone
    · cases hreport.symm.trans hsome
      exact hd.saved_status_ne
    · cases hreport.symm.trans hnone
  | @step t ht ih =>
    rcases h.report_cases hlast with hsame | hnone | ⟨d', hd', -, hsome⟩
    · exact ih (Nat.le_of_succ_le hlast) (hsame.symm.trans hreport)
    · cases hreport.symm.trans hnone
    · cases hreport.symm.trans hsome
      exact hd'.saved_status_ne

/-- A decision overlooks each one that is saved before it. -/
theorem overlooks (hd : d.Made world last id) (hd' : d'.Made world last id) (hlt : d'.save < d.save) :
    d.Overlooks d' := by
  refine ⟨?_, hlt⟩
  by_contra hle
  obtain ⟨count, hshows⟩ := hd.shows
  obtain ⟨_, _, -, hsaves'⟩ := hd'.saves
  rcases Nat.lt_or_eq_of_le (Nat.le_of_not_lt hle) with hbefore | heq
  · exact h.not_pending hd' hbefore (Nat.le_of_lt (Nat.lt_trans hd.look_lt hd.save_lt))
      hshows.report.1 hd.pending
  · rw [heq] at hsaves'
    cases Exchanges.unique hshows hsaves'

/-- At most one call succeeds just if no decision overlooks another one. -/
theorem once_iff : (∀ n m r r' actor actor' saved saved', (world last).Resolved n id r actor saved →
      (world last).Resolved m id r' actor' saved' → n = m) ↔
    ∀ d d' : Decision, d.Made world last id → d'.Made world last id → ¬ d.Overlooks d' := by
  constructor
  · rintro honce d d' hd hd' ⟨-, hlt⟩
    obtain ⟨_, _, -, hsaves⟩ := hd.saves
    obtain ⟨_, _, -, hsaves'⟩ := hd'.saves
    have htask : d.task = d'.task := honce _ _ _ _ _ _ _ _ (h.resolved hd) (h.resolved hd')
    rw [← htask] at hsaves'
    exact absurd (h.unfolds.save_unique hd'.save_lt hd.save_lt hsaves' hsaves) (Nat.ne_of_lt hlt)
  · intro hnone n m r r' actor actor' saved saved' hn hm
    obtain ⟨d, hd, rfl, -⟩ := h.resolved_iff.mp hn
    obtain ⟨d', hd', rfl, -⟩ := h.resolved_iff.mp hm
    rcases Nat.lt_trichotomy d.save d'.save with hlt | heq | hlt
    · exact absurd (h.overlooks hd' hd hlt) (hnone d' d hd' hd)
    · obtain ⟨_, _, -, hsaves⟩ := hd.saves
      obtain ⟨_, _, -, hsaves'⟩ := hd'.saves
      rw [heq] at hsaves
      exact Exchanges.task_unique hsaves hsaves'
    · exact absurd (h.overlooks hd hd' hlt) (hnone d d' hd hd')

end Watched

/-- However the tasks of all users interleave while a report is not replaced, the calls to resolve it
that succeed are those that decide about it, each having been shown it pending before. What the last
one of them has saved is stored from then on, unless the report goes. And at most one call succeeds
just if none of them is shown the report before another one saves it and saves it itself after that. -/
theorem resolved_once_iff (h : Watched sources world last id) :
    (∀ n r actor saved, (world last).Resolved n id r actor saved ↔
      ∃ d : Decision, d.Made world last id ∧ d.task = n ∧ d.r = r ∧ d.actor = actor ∧
        d.saved = saved) ∧
    (∀ d : Decision, d.Made world last id → ∀ t, d.save < t → t ≤ last →
      (∀ d' : Decision, d'.Made world last id → d.save < d'.save → t ≤ d'.save) →
      (world t).report id = some d.saved ∨ (world t).report id = none) ∧
    ((∀ n m r r' actor actor' saved saved', (world last).Resolved n id r actor saved →
        (world last).Resolved m id r' actor' saved' → n = m) ↔
      ∀ d d' : Decision, d.Made world last id → d'.Made world last id → ¬ d.Overlooks d') :=
  ⟨fun _ _ _ _ => h.resolved_iff, fun _ hd _ => h.report_of_made hd, h.once_iff⟩

section Replay

/-- The report that an exchange showed. -/
def reportShown? : Exchange → Option Report
  | ⟨.store (.counts (.getReport _ _)), .ok stored⟩ => stored
  | _ => none

/-- The report that an exchange saved. -/
def reportSaved? : Exchange → Option Id
  | ⟨.store (.counts (.saveReport new)), .ok _⟩ => some new.id
  | _ => none

theorem reportSaved?_eq_some {e : Exchange} (h : reportSaved? e = some id) :
    ∃ new saved, new.id = id ∧ e = ⟨.store (.counts (.saveReport new)), .ok saved⟩ := by
  unfold reportSaved? at h
  split at h
  · cases h
    exact ⟨_, _, rfl, rfl⟩
  · cases h

/-- In a course that was played, a report changes only when it is saved, and at first no task was
shown it. -/
def Watches (w : World) (worlds : List World) (last : Nat) (id : Id) : Prop :=
  (∀ work ∈ w.works, ∀ e ∈ work.past, (reportShown? e).map (·.id) ≠ some id) ∧
    ∀ t < last, (worldAt worlds (t + 1)).report id = (worldAt worlds t).report id ∨
      lastLogged? worlds t reportSaved? = some id

instance (w : World) (worlds : List World) (last : Nat) (id : Id) :
    Decidable (Watches w worlds last id) :=
  inferInstanceAs (Decidable (_ ∧ _))

variable {moves : List Move} {worlds : List World}

theorem Watches.watched (h : Watches w worlds moves.length id) (hw : Reachable sources nobody w)
    (hworlds : w.worlds? sources moves = some worlds) :
    Watched sources (worldAt worlds) moves.length id where
  unfolds := World.worlds?_unfolds hw (fun _ _ h => h) hworlds
  unseen work hwork count id' stored hmem hid := by
    rw [World.worlds?_zero hworlds] at hwork
    exact h.1 work hwork _ hmem (congrArg some hid)
  kept t ht := by
    refine (h.2 t ht).imp_right fun hlogged => .inr ?_
    obtain ⟨n, e, hexchange, he⟩ := World.worlds?_logged hworlds ht hlogged
    obtain ⟨new, saved, hid, rfl⟩ := reportSaved?_eq_some he
    exact ⟨n, new, saved, hid, hexchange⟩

/-- A count is completed with a difference of five of its only item, which is reported. -/
def oneReported : World := played noSources <|
  .begin newCount :: goOn 1 0 1 ++ .begin (newItem "A" (some (oneDigit 5))) :: goOn 2 1 8 ++
    .begin (.completeCount (.ofNat 1) (.ofNat 1000) (.ofNat 3)) :: goOn 10 2 3

/-- The only report is to be approved by one user and to be rejected by another one. -/
def bothResolving : List Move :=
  [.begin (.resolveReport (.ofNat 1) (.ofNat 1000) (.ofNat 7000) ⟨true, "found"⟩ (.ofNat 3)),
    .begin (.resolveReport (.ofNat 1) (.ofNat 1000) (.ofNat 7000) ⟨false, "lost"⟩ (.ofNat 4))]

/-- The second user looks the report up after the first one has saved it. -/
def resolvedBefore : List Move := bothResolving ++ goOn 20 3 4 ++ goOn 30 4 2

theorem resolved_once_iff_resolvedBefore :
    ∃ world, ∃ d : Decision, Watched noSources world 8 (.ofNat 7000) ∧ d.Made world 8 (.ofNat 7000) ∧
      (world 8).report (.ofNat 7000) = some d.saved ∧ d.saved.status = .approved ∧
      ∀ n r actor saved, (world 8).Resolved n (.ofNat 7000) r actor saved → n = d.task := by
  have hplayed : (oneReported.worlds? noSources resolvedBefore).any fun worlds =>
      Watches oneReported worlds 8 (.ofNat 7000) ∧
        lastLogged? worlds 5 reportSaved? = some (.ofNat 7000) ∧
        (∀ t < (8 : Nat), t ≠ 5 → lastLogged? worlds t reportSaved? = none) ∧
        ((worldAt worlds 8).report (.ofNat 7000)).map Report.status = some .approved := by
    decide +kernel
  obtain ⟨worlds, hworlds, hplayed⟩ := (Option.any_eq_true _ _).mp hplayed
  obtain ⟨hwatches, hlogged, hnone, hreport⟩ := of_decide_eq_true hplayed
  obtain ⟨stored, hstored, happroved⟩ := Option.map_eq_some_iff.mp hreport
  have hwatched : Watched noSources (worldAt worlds) 8 (.ofNat 7000) :=
    hwatches.watched (played_reachable fun _ _ h => h) hworlds
  have hsave : ∀ d : Decision, d.Made (worldAt worlds) 8 (.ofNat 7000) → d.save = 5 := by
    intro d hd
    obtain ⟨_, _, -, hsaves⟩ := hd.saves
    by_contra hne
    have hlast := hnone _ hd.save_lt hne
    rw [lastLogged?_of_exchanges hsaves] at hlast
    cases hlast
  obtain ⟨n, e, hexchange, he⟩ := World.worlds?_logged hworlds (by decide) hlogged
  obtain ⟨new, saved, hid, rfl⟩ := reportSaved?_eq_some he
  obtain ⟨d, hd, -⟩ := hwatched.exists_made (by decide) hexchange hid
  obtain ⟨hresolved, hkept, honce⟩ := resolved_once_iff hwatched
  have hsaved : (worldAt worlds 8).report (.ofNat 7000) = some d.saved := by
    refine (hkept d hd 8 hd.save_lt (Nat.le_refl 8) fun d' hd' hlt => ?_).resolve_right fun hgone => ?_
    · exact absurd (hsave d hd) (hsave d' hd' ▸ Nat.ne_of_lt hlt)
    · cases hgone.symm.trans hstored
  refine ⟨_, d, hwatched, hd, hsaved, ?_, fun n r actor saved' hn => ?_⟩
  · cases hstored.symm.trans hsaved
    exact happroved
  · refine honce.mpr (fun a b ha hb hover => ?_) _ _ _ _ _ _ _ _ hn
      ((hresolved _ _ _ _).mpr ⟨d, hd, rfl, rfl, rfl, rfl⟩)
    exact absurd (hsave b hb) (hsave a ha ▸ Nat.ne_of_lt hover.2)

/-- Both users look the report up before either of them saves it. -/
def resolvedBetween : List Move :=
  bothResolving ++ goOn 20 3 3 ++ goOn 30 4 3 ++ goOn 40 3 1 ++ goOn 50 4 1

/-- Two calls succeed that were shown the report before either of them saved it. -/
theorem not_resolved_once : ¬ ∀ (sources : Loading.Sources) (world : Nat → World) (last : Nat)
    (id : Id), Watched sources world last id → ∀ n m r r' actor actor' saved saved',
      (world last).Resolved n id r actor saved → (world last).Resolved m id r' actor' saved' →
        n = m := by
  intro h
  have hplayed : (oneReported.worlds? noSources resolvedBetween).any fun worlds =>
      Watches oneReported worlds 10 (.ofNat 7000) ∧
        lastLogged? worlds 8 reportSaved? = some (.ofNat 7000) ∧
        lastLogged? worlds 9 reportSaved? = some (.ofNat 7000) := by decide +kernel
  obtain ⟨worlds, hworlds, hplayed⟩ := (Option.any_eq_true _ _).mp hplayed
  obtain ⟨hwatches, hfirst, hsecond⟩ := of_decide_eq_true hplayed
  have hwatched : Watched noSources (worldAt worlds) 10 (.ofNat 7000) :=
    hwatches.watched (played_reachable fun _ _ h => h) hworlds
  have hsaved : ∀ {n t : Nat} {supply erp}, t < 10 → resolvedBetween[t]? = some (.go n supply erp) →
      lastLogged? worlds t reportSaved? = some (.ofNat 7000) →
      ∃ r actor saved, (worldAt worlds 10).Resolved n (.ofNat 7000) r actor saved := by
    intro n t supply erp ht hm hlogged
    obtain ⟨e, hexchange, he⟩ := exists_of_lastLogged? hworlds hm hlogged
    obtain ⟨new, saved, hid, rfl⟩ := reportSaved?_eq_some he
    obtain ⟨d, hd, rfl, -⟩ := hwatched.exists_made ht hexchange hid
    exact ⟨_, _, _, hwatched.resolved hd⟩
  obtain ⟨r, actor, saved, hresolved⟩ := hsaved (n := 3) (by decide) rfl hfirst
  obtain ⟨r', actor', saved', hresolved'⟩ := hsaved (n := 4) (by decide) rfl hsecond
  exact absurd (h _ _ _ _ hwatched _ _ _ _ _ _ _ _ hresolved hresolved') (by decide)

end Replay

end Recount.Concurrent
