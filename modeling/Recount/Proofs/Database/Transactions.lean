import Recount.Counting.Recording
import Recount.Database.Counts
import Recount.Proofs.Program.Reaches

/-!
# Transactions

A call that writes works inside one transaction, which is committed by the last thing that it asks.
Whatever a database answers, what the call wrote takes effect as a whole if it succeeds, and not at
all if it does not.
-/

namespace Recount.Database

open Recount.Action
open Program (Rule Reaches)

/-- A request of a client with its answer. -/
abbrev Exchange := Program.Exchange Call Call.Answer

/-- What may be asked inside a transaction. -/
def Call.IsInner : Call → Prop
  | send _ | freshId | now => True
  | start | commit => False

/-- A transaction is neither started nor committed. -/
def inner : Rule Call Call.Answer := fun _ q => q.IsInner

/-- A transaction has been started. -/
def started : Exchange := ⟨.start, .ok ()⟩

/-- A transaction has been committed. -/
def committed : Exchange := ⟨.commit, .ok ()⟩

/-- What a database has written: what was committed, and what the transaction that is open, if one
is, has asked for so far. -/
structure Ledger where
  lasting : List Statement := []
  pending : Option (List Statement) := none

/-- The ledger after an exchange. Outside of a transaction, a statement takes effect at once; when a
transaction fails to be committed, it comes to nothing. -/
def Ledger.after (l : Ledger) : Exchange → Ledger
  | ⟨.start, .ok _⟩ => { l with pending := some [] }
  | ⟨.send s, .ok _⟩ =>
    match l.pending with
    | some statements => { l with pending := some (statements ++ [s]) }
    | none => { l with lasting := l.lasting ++ [s] }
  | ⟨.commit, .ok _⟩ => ⟨l.lasting ++ l.pending.getD [], none⟩
  | ⟨.commit, .error _⟩ => { l with pending := none }
  | _ => l

/-- The ledger after a history, the latest exchange of which comes first. -/
def ledger (h : List Exchange) : Ledger := h.foldr (fun e l => l.after e) {}

/-- The statements of a history that have taken effect, if nothing more is asked: a transaction that is
still open then is rolled back. -/
def effects (h : List Exchange) : List Statement := (ledger h).lasting

/-- The statement that an exchange carried out, if it did. -/
def carriedOut? : Exchange → Option Statement
  | ⟨.send s, .ok _⟩ => some s
  | _ => none

/-- The statements of a history that were carried out, in their order. -/
def carriedOut (h : List Exchange) : List Statement := (h.filterMap carriedOut?).reverse

variable {α β : Type} {h : List Exchange} {work : Client α}

section Inner

variable {text : String} {parameters : List Parameter} {ρ : Type}

theorem send_inner : Follows inner (Client.send text parameters) :=
  fun _ => ⟨trivial, fun _ _ _ => trivial⟩

theorem freshId_inner : Follows inner Client.freshId := fun _ => ⟨trivial, fun _ _ _ => trivial⟩

theorem now_inner : Follows inner Client.now := fun _ => ⟨trivial, fun _ _ _ => trivial⟩

theorem all_inner {columns : Columns ρ α} : Follows inner (Client.all columns text parameters) :=
  send_inner.bind fun _ => check_follows

theorem firstRow?_inner : Follows inner (Client.firstRow? text parameters) :=
  send_inner.bind fun _ => pure_follows

theorem firstRow_inner : Follows inner (Client.firstRow text parameters) := by
  refine firstRow?_inner.bind fun row => ?_
  split
  · exact pure_follows
  · exact check_follows

theorem first?_inner {columns : Columns ρ α} :
    Follows inner (Client.first? columns text parameters) := by
  refine firstRow?_inner.bind fun row => ?_
  split
  · exact check_follows.map
  · exact pure_follows

theorem first_inner {columns : Columns ρ α} : Follows inner (Client.first columns text parameters) :=
  firstRow_inner.bind fun _ => check_follows

theorem orClash_inner {clash : Clash} (hwork : Follows inner work) :
    Follows inner (Client.orClash clash work) := by
  refine hwork.attempt.bind fun result => ?_
  split
  · split <;> exact check_follows
  · exact check_follows

theorem lockWritable_inner {count : Id} {version : Int} : Follows inner (lockWritable count version) :=
  first?_inner.bind fun _ => require_follows fun _ _ => check_follows

theorem insertRow_inner {i : Item} : Follows inner (insertRow i) :=
  (orClash_inner firstRow_inner).bind fun _ => check_follows

theorem require_inner {missing : Missing} {x : Client (Option α)} (hx : Follows inner x) :
    Follows inner (x >>= fun o => require missing o) := by
  refine hx.bind fun o => ?_
  cases o <;> exact check_follows

theorem lockCount_inner {tenant count : Id} : Follows inner (lockCount tenant count) :=
  require_inner first?_inner

theorem updateStage_inner {c : Count} : Follows inner (updateStage c) :=
  (orClash_inner send_inner).bind fun _ => pure_follows

theorem updateCounted_inner {i : Item} : Follows inner (updateCounted i) := require_inner first?_inner

theorem upsertReport_inner {r : Report} : Follows inner (upsertReport r) :=
  first_inner.bind fun _ => pure_follows

theorem changeReport_inner {i : Item} {change : ReportChange} : Follows inner (changeReport i change) := by
  cases change with
  | put r => exact upsertReport_inner
  | clear => exact send_inner.bind fun _ => pure_follows

theorem recount_inner {i : Item} {counted : Decimal} : Follows inner (recount i counted) :=
  arithmetic_follows.bind fun _ => updateCounted_inner.bind fun _ => freshId_inner.bind fun _ =>
    now_inner.bind fun _ => arithmetic_follows.bind fun _ => changeReport_inner.bind fun _ =>
    pure_follows

theorem settled_inner {c : Count} {t : Transition} {time : Time} : Follows inner (settled c t time) := by
  unfold settled
  split
  · refine Follows.bind ?_ fun _ => arithmetic_follows
    exact all_inner.bind fun items => mapM_follows fun _ _ => freshId_inner.bind fun _ => pure_follows
  · exact pure_follows

end Inner

section Course

variable {r : Program Call Call.Answer (Except Error α)}

/-- The end of a transaction: it is committed after work that succeeded. -/
def commitAfter : Except Error α → Program Call Call.Answer (Except Error α)
  | .ok a => .ask .commit fun
    | .ok _ => .done (.ok a)
    | .error fault => .done (.error (.database fault))
  | .error e => .done (.error e)

theorem transaction_run : (Client.transaction work).run = .ask .start fun
    | .ok _ => work.run.bind commitAfter
    | .error fault => .done (.error (.database fault)) := by
  change Program.ask Call.start _ = _
  refine congrArg (Program.ask Call.start) (funext fun answer => ?_)
  cases answer with
  | error fault => rfl
  | ok _ =>
    refine congrArg work.run.bind (funext fun result => ?_)
    cases result with
    | error e => rfl
    | ok a =>
      refine congrArg (Program.ask Call.commit) (funext fun answer => ?_)
      cases answer <;> rfl

/-- How far a transaction has come after a history, the latest exchange of which comes first, and what
remains of the call. -/
inductive Course (h : List Exchange) (r : Program Call Call.Answer (Except Error α)) : Prop
  | asked (hh : h = []) (hr : ∀ result, r ≠ .done result)
  | refused {fault} (hh : h = [⟨.start, .error fault⟩]) (hr : r = .done (.error (.database fault)))
  | underWay {past} (hpast : ∀ e ∈ past, e.request.IsInner) (hh : h = past ++ [started])
      (hr : ∀ a, r ≠ .done (.ok a))
  | failed {past fault} (hpast : ∀ e ∈ past, e.request.IsInner)
      (hh : h = ⟨.commit, .error fault⟩ :: (past ++ [started]))
      (hr : r = .done (.error (.database fault)))
  | succeeded {past a} (hpast : ∀ e ∈ past, e.request.IsInner)
      (hh : h = committed :: (past ++ [started])) (hr : r = .done (.ok a))

/-- Work inside a transaction takes one of these courses, whatever it is answered. -/
theorem course_of_reaches (hwork : Follows inner work)
    (hr : (Client.transaction work).run.Reaches h r) : Course h r := by
  have hinner : ∀ {past rest}, work.run.Reaches past rest → ∀ e ∈ past, e.request.IsInner := by
    intro past rest hreaches e he
    obtain ⟨later, earlier, rfl⟩ := List.append_of_mem he
    exact (hreaches.keeps (hwork [])).2 later e earlier rfl
  rw [transaction_run] at hr
  rcases hr.of_ask with ⟨rfl, rfl⟩ | ⟨answer, later, rfl, hbegun⟩
  · exact .asked rfl fun _ heq => by cases heq
  · cases answer with
    | error fault =>
      obtain ⟨rfl, rfl⟩ := Reaches.of_done hbegun
      exact .refused rfl rfl
    | ok _ =>
      rcases Reaches.bind_cases hbegun with ⟨rest, hrest, rfl⟩ | ⟨result, worked, last, rfl, hdone, hlast⟩
      · refine .underWay (hinner hrest) rfl fun a heq => ?_
        cases rest with
        | done result => cases result <;> cases heq
        | stop o => cases heq
        | ask q next => cases heq
      · cases result with
        | error e =>
          obtain ⟨rfl, rfl⟩ := Reaches.of_done hlast
          exact .underWay (hinner hdone) rfl fun a heq => by cases heq
        | ok a =>
          rcases hlast.of_ask with ⟨rfl, rfl⟩ | ⟨answer, last, rfl, hend⟩
          · exact .underWay (hinner hdone) rfl fun a heq => by cases heq
          · cases answer with
            | error fault =>
              obtain ⟨rfl, rfl⟩ := Reaches.of_done hend
              exact .failed (hinner hdone) rfl rfl
            | ok _ =>
              obtain ⟨rfl, rfl⟩ := Reaches.of_done hend
              exact .succeeded (hinner hdone) rfl rfl

end Course

section Effects

variable {l : Ledger} {past : List Exchange} {statements : List Statement}

/-- Inside a transaction, statements wait for the end of it. -/
theorem ledger_inner (hpast : ∀ e ∈ past, e.request.IsInner) :
    ledger (past ++ [started]) = { pending := some (carriedOut past) } := by
  induction past with
  | nil => rfl
  | cons e past ih =>
    obtain ⟨he, hpast⟩ := List.forall_mem_cons.mp hpast
    have hledger : ledger ((e :: past) ++ [started]) = (ledger (past ++ [started])).after e := rfl
    rw [hledger, ih hpast]
    obtain ⟨q, answer⟩ := e
    cases q with
    | start => exact he.elim
    | commit => exact he.elim
    | send s =>
      cases answer with
      | ok reply =>
        have hcarried : carriedOut (⟨.send s, .ok reply⟩ :: past) = carriedOut past ++ [s] :=
          List.reverse_cons
        rw [hcarried]
        rfl
      | error fault => rfl
    | freshId => rfl
    | now => rfl

end Effects

/-- The calls that work inside a transaction. -/
def InTransaction : CountCall → Prop
  | .change .. | .upsertItem _ | .insertItem _ | .recordItem .. => True
  | _ => False

/-- A call in a transaction does its work there, and nothing else. -/
theorem exists_work {call : CountCall} (hcall : InTransaction call) :
    ∃ work, Follows inner work ∧ answerCounts call = Client.transaction work := by
  cases call with
  | change tenant count t =>
    refine ⟨_, lockCount_inner.bind fun c => check_follows.bind fun _ => now_inner.bind fun time =>
      settled_inner.bind fun (items, reports) => ?_, rfl⟩
    refine updateStage_inner.bind fun _ => Follows.bind ?_ fun _ => Follows.bind ?_ fun _ =>
      Follows.bind ?_ fun _ => pure_follows
    · exact forM_follows fun _ _ => updateCounted_inner.bind fun _ => pure_follows
    · exact forM_follows fun _ _ => insertRow_inner.bind fun _ => pure_follows
    · exact forM_follows fun _ _ => upsertReport_inner
  | upsertItem new =>
    refine ⟨_, lockWritable_inner.bind fun _ => first_inner.bind fun (isNew, saved) => ?_, rfl⟩
    dsimp only
    split
    · exact pure_follows
    · split
      · exact recount_inner.bind fun _ => pure_follows
      · exact pure_follows
  | insertItem i => exact ⟨_, lockWritable_inner.bind fun _ => insertRow_inner, rfl⟩
  | recordItem i report =>
    exact ⟨_, lockWritable_inner.bind fun _ => updateCounted_inner.bind fun _ =>
      changeReport_inner.bind fun _ => pure_follows, rfl⟩
  | _ => exact hcall.elim

/-- All statements of a history are asked for inside one transaction, and nothing is asked for after
the end of it. -/
def InOneTransaction (h : List Exchange) : Prop :=
  h = [] ∨ (∃ fault, h = [⟨.start, .error fault⟩]) ∨
    ∃ last past, h = last ++ (past ++ [started]) ∧ (∀ e ∈ past, e.request.IsInner) ∧
      (last = [] ∨ ∃ answer, last = [⟨.commit, answer⟩])

section Atomic

variable {r : Program Call Call.Answer (Except Error α)}

theorem Course.inOneTransaction (hcourse : Course h r) : InOneTransaction h := by
  cases hcourse with
  | asked hh => exact .inl hh
  | refused hh => exact .inr (.inl ⟨_, hh⟩)
  | @underWay past hpast hh => exact .inr (.inr ⟨[], past, hh, hpast, .inl rfl⟩)
  | @failed past fault hpast hh =>
    exact .inr (.inr ⟨[⟨.commit, .error fault⟩], past, hh, hpast, .inr ⟨_, rfl⟩⟩)
  | @succeeded past a hpast hh =>
    exact .inr (.inr ⟨[committed], past, hh, hpast, .inr ⟨_, rfl⟩⟩)

theorem not_committed_of_inner {past : List Exchange} (hpast : ∀ e ∈ past, e.request.IsInner) :
    committed ∉ past ++ [started] := by
  intro hmem
  rcases List.mem_append.mp hmem with hmem | hmem
  · exact hpast _ hmem
  · cases List.mem_singleton.mp hmem

/-- What a transaction has come to. -/
theorem Course.outcome (hcourse : Course h r) :
    (∃ a past, r = .done (.ok a) ∧ h = committed :: past ∧ effects h = carriedOut h) ∨
      (∀ a, r ≠ .done (.ok a)) ∧ committed ∉ h ∧ effects h = [] := by
  cases hcourse with
  | asked hh hr =>
    subst hh
    exact .inr ⟨fun a => hr _, List.not_mem_nil, rfl⟩
  | @refused fault hh hr =>
    subst hh hr
    refine .inr ⟨fun a heq => (by cases heq), fun hmem => ?_, rfl⟩
    cases List.mem_singleton.mp hmem
  | @underWay past hpast hh hr =>
    subst hh
    refine .inr ⟨hr, not_committed_of_inner hpast, ?_⟩
    rw [effects, ledger_inner hpast]
  | @failed past fault hpast hh hr =>
    subst hh hr
    refine .inr ⟨fun a heq => (by cases heq), fun hmem => ?_, ?_⟩
    · rcases List.mem_cons.mp hmem with heq | hmem
      · cases heq
      · exact not_committed_of_inner hpast hmem
    · change ((ledger (past ++ [started])).after ⟨.commit, .error fault⟩).lasting = []
      rw [ledger_inner hpast]
      rfl
  | @succeeded past a hpast hh hr =>
    refine .inl ⟨a, past ++ [started], hr, hh, ?_⟩
    subst hh
    have hcarried : carriedOut (committed :: (past ++ [started])) = carriedOut past := by
      change ((past ++ [started]).filterMap carriedOut?).reverse = _
      rw [List.filterMap_append]
      exact congrArg List.reverse (List.append_nil _)
    rw [hcarried]
    change ((ledger (past ++ [started])).after committed).lasting = _
    rw [ledger_inner hpast]
    rfl

end Atomic

/-- Whatever a database answers, a change of a count and the calls that write an item send all their
statements inside one transaction, and nothing after the end of it. Such a call has succeeded exactly
if the transaction was acknowledged to be committed, which is then the last thing that it has asked
for, so that all of its statements take effect. As long as it has not succeeded, and if it fails or
stops, none of them does. -/
theorem writes_atomic {call : CountCall} (hcall : InTransaction call) {h : List Exchange}
    {r : Program Call Call.Answer (Except Error call.Result)}
    (hr : (answerCounts call).run.Reaches h r) :
    InOneTransaction h ∧ (committed ∈ h ↔ ∃ a, r = .done (.ok a)) ∧
      ((∃ a, r = .done (.ok a)) → (∃ past, h = committed :: past) ∧ effects h = carriedOut h) ∧
      ((∀ a, r ≠ .done (.ok a)) → effects h = []) := by
  obtain ⟨work, hwork, heq⟩ := exists_work hcall
  rw [heq] at hr
  have hcourse := course_of_reaches hwork hr
  refine ⟨hcourse.inOneTransaction, ?_⟩
  rcases hcourse.outcome with ⟨a, past, hr, hh, heffects⟩ | ⟨hr, hnot, heffects⟩
  · refine ⟨iff_of_true (hh ▸ List.mem_cons_self) ⟨a, hr⟩, fun _ => ⟨⟨past, hh⟩, heffects⟩, ?_⟩
    exact fun hnone => absurd hr (hnone a)
  · exact ⟨iff_of_false hnot fun ⟨a, ha⟩ => hr a ha, fun ⟨a, ha⟩ => absurd ha (hr a),
      fun _ => heffects⟩

/-- An item to be inserted. -/
def firstItem : Item :=
  Counting.newItem (.ofNat 1) 1 ⟨.ofNat 5, "A", "A", none, none, .zero, none⟩ (.ofNat 2) ⟨0, 0⟩

/-- A database with a draft in its first version, which writes what it is asked to, and answers the
end of a transaction in a given way. -/
def draftServer (answer : Except DatabaseFault Unit) : Program.Server Call Call.Answer := fun _ call =>
  match call with
  | .start => .ok ()
  | .commit => answer
  | .send s =>
    let draft : Count := { (default : Count) with currentVersion := 1 }
    .ok ⟨[if s.text.startsWith "SELECT" then countColumns.row draft else itemColumns.row firstItem], 1⟩
  | .freshId => .ofNat 3
  | .now => ⟨0, 0⟩

/-- The history and the result of an insertion. -/
def inserting (answer : Except DatabaseFault Unit) :
    List Exchange × Except Overflow (Except Error Item) :=
  (answerCounts (.insertItem firstItem)).run.against (draftServer answer) []

/-- How many statements were carried out, and whether the call succeeded. -/
def summary (run : List Exchange × Except Overflow (Except Error Item)) : Nat × Option Bool :=
  ((carriedOut run.1).length, run.2.toOption.map Except.isOk)

/-- One insertion is committed; another one is not, for the last answer alone. -/
theorem writes_atomic_insertion :
    (∃ h a, (answerCounts (.insertItem firstItem)).run.Reaches h (.done (.ok a)) ∧ committed ∈ h ∧
      (effects h).length = 2) ∧
    ∃ h e, (answerCounts (.insertItem firstItem)).run.Reaches h (.done (.error e)) ∧
      (carriedOut h).length = 2 ∧ effects h = [] := by
  have hreaches : ∀ answer, (answerCounts (.insertItem firstItem)).run.Reaches
      (inserting answer).1 (.ofArithmetic (inserting answer).2) := fun _ => Reaches.start.against
  have hwrites : InTransaction (.insertItem firstItem) := trivial
  constructor
  · have hrun : summary (inserting (.ok ())) = (2, some true) := by decide +kernel
    have hend := hreaches (.ok ())
    generalize inserting (.ok ()) = run at hrun hend
    obtain ⟨h, result⟩ := run
    obtain ⟨hlength, hok⟩ := Prod.mk.inj hrun
    match result with
    | .ok (.ok a) =>
      obtain ⟨-, hiff, heffects, -⟩ := writes_atomic hwrites hend
      refine ⟨h, a, hend, hiff.mpr ⟨a, rfl⟩, ?_⟩
      rw [(heffects ⟨a, rfl⟩).2]
      exact hlength
    | .ok (.error e) => cases hok
    | .error o => cases hok
  · have hrun : summary (inserting (.error .closed)) = (2, some false) := by decide +kernel
    have hend := hreaches (.error .closed)
    generalize inserting (.error .closed) = run at hrun hend
    obtain ⟨h, result⟩ := run
    obtain ⟨hlength, herror⟩ := Prod.mk.inj hrun
    match result with
    | .ok (.error e) =>
      obtain ⟨-, -, -, hnone⟩ := writes_atomic hwrites hend
      exact ⟨h, e, hend, hlength, hnone fun a heq => by cases heq⟩
    | .ok (.ok a) => cases herror
    | .error o => cases herror

end Recount.Database
