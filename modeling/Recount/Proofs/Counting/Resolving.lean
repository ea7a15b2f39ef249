import Recount.Proofs.Concurrent.History
import Recount.Proofs.Concurrent.Founded

/-!
# Deciding about a report

A call that decides about a report looks its count up, looks the report up, reads the clock and
saves the report with the decision. It goes on only if it saw the count settled and the report
pending, and the save is the last that it asks.
-/

namespace Recount

/-- A report with a decision about it. -/
def Report.decided (stored : Report) (r : ResolveReport) (actor : Id) (time : Time) : Report :=
  { stored with
    status := if r.approve then .approved else .rejected
    resolution := some r.reason
    resolvedBy := some actor
    resolvedAt := some time }

theorem Report.decided_status_ne {stored : Report} {r : ResolveReport} {actor : Id} {time : Time} :
    (stored.decided r actor time).status ≠ .pending := by
  unfold decided
  dsimp only
  split <;> nofun

namespace Concurrent

open Recount.Counting

variable {tenant count id actor : Id} {r : ResolveReport} {past : List Exchange} {q : Request}
  {new saved : Report}

/-- Enters a decision. -/
def saveDecision (r : ResolveReport) (actor : Id) (stored : Report) :
    Program Request Request.Answer (Except Error Report) :=
  .ask .now fun time => .ask (.store (.counts (.saveReport (stored.decided r actor time)))) .done

/-- Looks the report up and decides about it. -/
def decideReport (count id : Id) (r : ResolveReport) (actor : Id) :
    Program Request Request.Answer (Except Error Report) :=
  .ask (.store (.counts (.getReport count id))) fun
    | .error e => .done (.error e)
    | .ok none => .done (.error (.missing (.report id)))
    | .ok (some stored) =>
      if stored.status = .pending then saveDecision r actor stored
      else .done (.error (.wrongState (ReportStatus.naming.name .pending)
        (ReportStatus.naming.name stored.status)))

/-- Looks the count up and then decides. -/
def decideInCount (tenant count id : Id) (r : ResolveReport) (actor : Id) :
    Program Request Request.Answer (Except Error Report) :=
  .ask (.store (.counts (.get tenant count))) fun
    | .error e => .done (.error e)
    | .ok none => .done (.error (.missing (.count count)))
    | .ok (some seen) =>
      if recountable.contains seen.status then decideReport count id r actor
      else .done (.error (.wrongState (Status.alternatives recountable) seen.status.name))

theorem resolveReport_run : (resolveReport tenant count id r actor).run =
    if r.faults.isEmpty then decideInCount tenant count id r actor
    else .done (.error (.fields r.faults)) := by
  unfold resolveReport Action.checkFields
  split
  swap
  · rfl
  refine congrArg (Program.ask _) (funext fun answer => ?_)
  rcases answer with e | _ | seen
  · rfl
  · rfl
  change (if !recountable.contains seen.status then _ else _ : Action Report).run = _
  cases hstatus : recountable.contains seen.status with
  | false =>
    dsimp only
    rw [hstatus]
    rfl
  | true =>
    dsimp only
    rw [hstatus]
    refine congrArg (Program.ask _) (funext fun answer => ?_)
    rcases answer with e | _ | stored
    · rfl
    · rfl
    change (if stored.status ≠ .pending then _ else _ : Action Report).run = _
    dsimp only
    rw [ite_not]
    split
    · rfl
    · rfl

/-- What a call has asked that saw its count and its report. -/
def shownPast (tenant count id : Id) (seen : Count) (stored : Report) : List Exchange :=
  [⟨.store (.counts (.getReport count id)), .ok (some stored)⟩,
    ⟨.store (.counts (.get tenant count)), .ok (some seen)⟩]

/-- How far a call has come, by its history. -/
inductive Deciding (tenant count id : Id) (r : ResolveReport) (actor : Id) :
    List Exchange → Program Request Request.Answer (Except Error Report) → Prop
  | failed {past : List Exchange} (error : Error) :
      Deciding tenant count id r actor past (.done (.error error))
  | begun : Deciding tenant count id r actor [] (decideInCount tenant count id r actor)
  | seen {seen : Count} (hstatus : seen.status ∈ recountable) :
      Deciding tenant count id r actor [⟨.store (.counts (.get tenant count)), .ok (some seen)⟩]
        (decideReport count id r actor)
  | shown {seen : Count} {stored : Report} (hstatus : seen.status ∈ recountable)
      (hpending : stored.status = .pending) :
      Deciding tenant count id r actor (shownPast tenant count id seen stored)
        (saveDecision r actor stored)
  | timed {seen : Count} {stored : Report} (hstatus : seen.status ∈ recountable)
      (hpending : stored.status = .pending) (time : Time) :
      Deciding tenant count id r actor (⟨.now, time⟩ :: shownPast tenant count id seen stored)
        (.ask (.store (.counts (.saveReport (stored.decided r actor time)))) .done)
  | saved {seen : Count} {stored : Report} (hstatus : seen.status ∈ recountable)
      (hpending : stored.status = .pending) (time : Time) (saved : Report) :
      Deciding tenant count id r actor
        (⟨.store (.counts (.saveReport (stored.decided r actor time))), .ok saved⟩ ::
          ⟨.now, time⟩ :: shownPast tenant count id seen stored)
        (.done (.ok saved))

/-- With each answer a call comes one step further. -/
theorem Deciding.answered {next} {p} (h : Deciding tenant count id r actor past p)
    (hp : p = .ask q next) (answer : q.Answer) :
    Deciding tenant count id r actor (⟨q, answer⟩ :: past) (next answer) := by
  cases h with
  | failed => cases hp
  | begun =>
    obtain ⟨rfl, hnext⟩ := Program.ask.inj hp
    cases hnext
    rcases answer with e | _ | seen
    · exact .failed e
    · exact .failed _
    · dsimp only
      split
      · next hstatus => exact .seen (by simpa using hstatus)
      · exact .failed _
  | seen hstatus =>
    obtain ⟨rfl, hnext⟩ := Program.ask.inj hp
    cases hnext
    rcases answer with e | _ | stored
    · exact .failed e
    · exact .failed _
    · dsimp only
      split
      · next hpending => exact .shown hstatus hpending
      · exact .failed _
  | shown hstatus hpending =>
    obtain ⟨rfl, hnext⟩ := Program.ask.inj hp
    cases hnext
    exact .timed hstatus hpending answer
  | timed hstatus hpending time =>
    obtain ⟨rfl, hnext⟩ := Program.ask.inj hp
    cases hnext
    rcases answer with e | saved
    · exact .failed e
    · exact .saved hstatus hpending time saved
  | saved => cases hp

theorem resolveReport_reaches {p}
    (h : (resolveReport tenant count id r actor).run.Reaches past p) :
    Deciding tenant count id r actor past p := by
  rw [resolveReport_run] at h
  induction h with
  | start =>
    split
    · exact .begun
    · exact .failed _
  | ask hp answer ih => exact ih.answered rfl answer

/-- What a call has done that saves a report: it saw the count settled and the report pending, and
read the clock. -/
structure Decides (tenant count id : Id) (r : ResolveReport) (actor : Id) (past : List Exchange)
    (stored new : Report) : Prop where
  pending : stored.status = .pending
  decided : ∃ seen time, seen.status ∈ recountable ∧ new = stored.decided r actor time ∧
    past = ⟨.now, time⟩ :: shownPast tenant count id seen stored

/-- A call that is about to save a report has decided about it, and will return what it saves. -/
theorem Deciding.decides {next} {p} (h : Deciding tenant count id r actor past p)
    (hp : p = .ask (.store (.counts (.saveReport new))) next) :
    next = .done ∧ ∃ stored, Decides tenant count id r actor past stored new := by
  cases h with
  | timed hstatus hpending time =>
    obtain ⟨hq, hnext⟩ := Program.ask.inj hp
    cases hq
    cases hnext
    exact ⟨rfl, _, hpending, _, time, hstatus, rfl, rfl⟩
  | begun | seen | shown =>
    obtain ⟨hq, -⟩ := Program.ask.inj hp
    cases hq
  | failed | saved => cases hp

/-- A call that has succeeded has saved the report last. -/
theorem Deciding.saved_last {p} (h : Deciding tenant count id r actor past p)
    (hp : p = .done (.ok saved)) : ∃ stored new before,
      past = ⟨.store (.counts (.saveReport new)), .ok saved⟩ :: before ∧
        Decides tenant count id r actor before stored new := by
  cases h with
  | saved hstatus hpending time saved =>
    cases hp
    exact ⟨_, _, _, rfl, hpending, _, time, hstatus, rfl, rfl⟩
  | _ => cases hp

end Concurrent
end Recount
