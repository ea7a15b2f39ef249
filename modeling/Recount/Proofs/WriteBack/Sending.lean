import Recount.Proofs.Concurrent.Alone
import Recount.Proofs.Concurrent.Asking
import Recount.Proofs.Store.Sound

/-!
# Attempts to write back

An attempt to write a count back that is not interrupted either comes to nothing, or it sends one
statement for every item that is to be written. What was sent in earlier attempts plays no part.
-/

/-! ## Statements that are sent

What a program asked tells which statements it sent to a planning system and which of them were
accepted. Items are written by one statement each, in their order, whatever becomes of the ones
before.
-/

namespace Recount.WriteBack

open Concurrent (Exchange Scene Ending Leads)

/-- The statement of an exchange, with whether it was accepted. -/
def statement? : Exchange → Option (Sql.Query × Bool)
  | ⟨.erp _ (.query q), answer⟩ => some (q, (answer : Except ErpFault (List Row)).isOk)
  | _ => none

/-- Whether an exchange opens a session, if it is about that. -/
def opening? : Exchange → Option Bool
  | ⟨.erp _ .connect, answer⟩ => some (answer : Except ErpFault Unit).isOk
  | _ => none

/-- The statements that were sent, in their order, with whether they were accepted. -/
def sent (past : List Exchange) : List (Sql.Query × Bool) := past.reverse.filterMap statement?

/-- Whether the sessions that were asked for were opened, in their order. -/
def openings (past : List Exchange) : List Bool := past.reverse.filterMap opening?

section Cons

variable {e : Exchange} {past : List Exchange}

@[simp] theorem sent_nil : sent [] = [] := rfl

@[simp] theorem sent_cons : sent (e :: past) = sent past ++ (statement? e).toList := by
  unfold sent
  rw [List.reverse_cons, List.filterMap_append]
  cases h : statement? e <;> simp [h]

@[simp] theorem openings_cons : openings (e :: past) = openings past ++ (opening? e).toList := by
  unfold openings
  rw [List.reverse_cons, List.filterMap_append]
  cases h : opening? e <;> simp [h]

end Cons

/-- A program went on without asking for a session or sending a statement. -/
structure Silent (σ σ' : Scene) : Prop where
  sent : sent σ'.past = sent σ.past
  openings : openings σ'.past = openings σ.past

/-- A program went on in silence and left the store as it is. -/
structure Quietly (σ σ' : Scene) : Prop extends Silent σ σ' where
  store : σ'.store = σ.store

section Silence

variable {β : Type} {post : Ending β → Scene → Prop} {σ σ' σ'' : Scene} {e : Exchange}

theorem Silent.trans (h : Silent σ σ') (h' : Silent σ' σ'') : Silent σ σ'' :=
  ⟨h'.sent.trans h.sent, h'.openings.trans h.openings⟩

theorem Quietly.trans (h : Quietly σ σ') (h' : Quietly σ' σ'') : Quietly σ σ'' :=
  ⟨h.toSilent.trans h'.toSilent, h'.store.trans h.store⟩

/-- An answer is silent that is neither about a statement nor about the opening of a session. -/
theorem Silent.answered {s : Store} {drawn : List Id} (hsent : statement? e = none)
    (hopens : opening? e = none) : Silent σ (σ.answered e s drawn) :=
  ⟨by simp [hsent], by simp [hopens]⟩

/-- A call on the store is silent; the program goes on with the answer in the store after it. -/
theorem leads_answered {call : CountCall} {f : call.Result → Action β}
    (answer : Supply → call.Result × Store)
    (hanswer : ∀ supply, σ.store.answerCounts supply call = .ok (answer supply))
    (hrest : ∀ supply σ', Silent σ σ' → σ'.store = (answer supply).2 →
      Action.Leads post (f (answer supply).1) σ') :
    Action.Leads post (Action.counts call >>= f) σ := by
  refine Action.leads_bind.mpr (Action.leads_counts.mpr fun supply _ => ?_)
  rw [hanswer supply]
  exact hrest supply _ (.answered rfl rfl) rfl

/-- A call that only reads is quiet. -/
theorem leads_read {call : CountCall} {result : call.Result} {f : call.Result → Action β}
    (hread : ∀ supply, σ.store.answerCounts supply call = .ok (result, σ.store))
    (hrest : ∀ σ', Quietly σ σ' → Action.Leads post (f result) σ') :
    Action.Leads post (Action.counts call >>= f) σ :=
  leads_answered (fun _ => (result, σ.store)) hread fun _ σ' hsilent hstore =>
    hrest σ' ⟨hsilent, hstore⟩

theorem leads_getCount {tenant count : Id} {c : Count} {f : Count → Action β}
    (hc : σ.store.count? tenant count = some c)
    (hrest : ∀ σ', Quietly σ σ' → Action.Leads post (f c) σ') :
    Action.Leads post (Counting.getCount tenant count >>= f) σ := by
  refine Action.leads_bind.mpr (leads_read (fun _ => rfl) fun σ' h => ?_)
  rw [hc]
  exact hrest σ' h

theorem leads_readMapping {call : MappingCall} {result : call.Result} {f : call.Result → Action β}
    (hread : ∀ supply, σ.store.answerMappings supply call = .ok (result, σ.store))
    (hrest : ∀ σ', Quietly σ σ' → Action.Leads post (f result) σ') :
    Action.Leads post (Action.mappings call >>= f) σ := by
  refine Action.leads_bind.mpr (Action.leads_mappings.mpr fun supply _ => ?_)
  rw [hread supply]
  exact hrest _ ⟨.answered rfl rfl, rfl⟩

theorem leads_readClock {f : Time → Action β}
    (hrest : ∀ time σ', Quietly σ σ' → Action.Leads post (f time) σ') :
    Action.Leads post (Action.now >>= f) σ :=
  Action.leads_bind.mpr
    (Action.leads_now.mpr fun time => hrest time _ ⟨.answered rfl rfl, rfl⟩)

theorem leads_draw {f : Id → Action β}
    (hrest : ∀ id σ', Quietly σ σ' → Action.Leads post (f id) σ') :
    Action.Leads post (Action.freshId >>= f) σ :=
  Action.leads_bind.mpr
    (Action.leads_freshId.mpr fun id _ => hrest id _ ⟨.answered rfl rfl, rfl⟩)

end Silence

section Sessions

variable {α : Type}

/-- The condition at the end of the work of a session: the session is ended, with any answer. -/
def closing (connection : Id) (post : Ending α → Scene → Prop) : Ending α → Scene → Prop
  | .success a, σ => ∀ answer, post (.success a) (σ.told ⟨.erp connection .disconnect, answer⟩)
  | .failure e, σ => ∀ answer, post (.failure e) (σ.told ⟨.erp connection .disconnect, answer⟩)
  | .overflow o, σ => post (.overflow o) σ

/-- A session is opened or not, and ended in both cases. -/
theorem leads_withSession {connection : Id} {work : Action α} {post : Ending α → Scene → Prop}
    {σ : Scene} : Action.Leads post (Erp.withSession connection work) σ ↔
      Action.Leads (closing connection post) work (σ.told ⟨.erp connection .connect, .ok ()⟩) ∧
        ∀ fault, closing connection post (.failure (.erp fault))
          (σ.told ⟨.erp connection .connect, .error fault⟩) := by
  let close (result : Except Error α) : Action α := do
    let _ ← Action.attempt (Action.erp connection .disconnect)
    Action.check result
  have hclose : ∀ result σ, Action.Leads post (close result) σ ↔
      closing connection post (.ofResult (.ok result)) σ := by
    intro result σ
    simp only [close, Action.leads_bind, Action.leads_attempt, Action.leads_erp]
    -- the answer is either a result or a fault, and both are passed over
    cases result <;>
      exact ⟨fun h answer => by cases answer; exacts [h.2 _, h.1 _],
        fun h => ⟨fun _ => h _, fun _ => h _⟩⟩
  have hwork : ∀ σ, Action.Leads post (do close (← Action.attempt work)) σ ↔
      Action.Leads (closing connection post) work σ := by
    intro σ
    rw [Action.leads_bind, Action.leads_attempt]
    refine iff_of_eq (congrArg (Action.Leads · work σ) ?_)
    funext ending σ
    cases ending with
    | success a => exact propext (hclose (.ok a) σ)
    | failure e => exact propext (hclose (.error e) σ)
    | overflow o => rfl
  unfold Erp.withSession
  rw [Action.leads_bind, Action.leads_attempt, Action.leads_erp]
  refine and_congr ?_ (forall_congr' fun fault => hclose (.error (.erp fault)) _)
  exact ⟨fun h => (hwork _).mp (h ()), fun h _ => (hwork _).mpr h⟩

end Sessions

/-- The value that is written for an item. -/
def valueFor (strategy : Strategy) (i : Item) : Decimal :=
  match valueOf? strategy i with
  | .ok (some value) => value
  | _ => .zero

/-- The items have values to write. -/
def HaveValues (strategy : Strategy) (items : List Item) : Prop :=
  ∀ i ∈ items, valueOf? strategy i = .ok (some (valueFor strategy i))

/-- The statement for an item, with whether its answer accepts it. -/
def written (dialect : Sql.Dialect) (target : Target) (strategy : Strategy) (i : Item)
    (answer : Except Error (List Row)) : Sql.Query × Bool :=
  (target.statement dialect strategy i.code (valueFor strategy i), answer.isOk)

/-- What is recorded of the statement for an item. -/
def recorded (strategy : Strategy) (i : Item) (answer : Except Error (List Row)) : WriteDetail :=
  detailOf i (valueFor strategy i) answer

/-- Items were written: the statement of each was sent and its answer recorded. -/
structure Written (dialect : Sql.Dialect) (target : Target) (strategy : Strategy)
    (items : List Item) (answers : List (Except Error (List Row))) (details : List WriteDetail)
    (σ σ' : Scene) : Prop where
  length : answers.length = items.length
  details : details = List.zipWith (recorded strategy) items answers
  sent : sent σ'.past = sent σ.past ++ List.zipWith (written dialect target strategy) items answers
  store : σ'.store = σ.store
  openings : openings σ'.past = openings σ.past

/-- Items are written one after the other, and every one is written. -/
theorem leads_writeItems {connection : Id} {dialect : Sql.Dialect} {target : Target}
    {strategy : Strategy} {items : List Item} {σ : Scene} (hvalues : HaveValues strategy items) :
    Action.Leads (fun ending σ' => ∃ details answers, ending = .success details ∧
        Written dialect target strategy items answers details σ σ')
      (writeItems connection dialect target strategy items) σ := by
  induction items generalizing σ with
  | nil => exact ⟨[], [], rfl, rfl, rfl, by simp, rfl, rfl⟩
  | cons i items ih =>
    have hvalue := hvalues i List.mem_cons_self
    have hothers : HaveValues strategy items := fun j hj => hvalues j (List.mem_cons_of_mem i hj)
    -- whatever the answer is, the others are written after it
    have hafter : ∀ answer : Except Error (List Row), ∀ σ' : Scene, σ'.store = σ.store →
        openings σ'.past = openings σ.past →
        sent σ'.past = sent σ.past ++ [written dialect target strategy i answer] →
        Action.Leads (fun ending σ'' => ∃ details answers, ending = .success details ∧
            Written dialect target strategy (i :: items) answers details σ σ'')
          (do return recorded strategy i answer ::
            (← writeItems connection dialect target strategy items)) σ' := by
      intro answer σ' hstore hopenings hsent
      refine Action.leads_bind.mpr ((ih hothers).mono ?_)
      rintro _ σ'' ⟨details, answers, rfl, h⟩
      refine ⟨_, answer :: answers, rfl, by simp [h.length], by rw [h.details]; rfl, ?_,
        h.store.trans hstore, h.openings.trans hopenings⟩
      rw [h.sent, hsent]
      simp
    let statement := target.statement dialect strategy i.code (valueFor strategy i)
    unfold writeItems
    simp only [hvalue, Action.leads_bind, Action.leads_arithmetic_ok, Action.andThen_success,
      Action.leads_attempt, Action.leads_erp]
    constructor
    · intro rows
      exact Action.leads_bind.mp (hafter (.ok rows)
        (σ.told ⟨.erp connection (.query statement), .ok rows⟩) rfl (by simp [opening?]) sent_cons)
    · intro fault
      exact Action.leads_bind.mp (hafter (.error (.erp fault))
        (σ.told ⟨.erp connection (.query statement), .error fault⟩) rfl (by simp [opening?])
        sent_cons)

end Recount.WriteBack

/-! ## Attempts -/

namespace Recount

namespace Store

variable {s : Store} {tenant id : Id} {c : Count} {t : Transition} {supply : Supply}

/-- A change of stage without items is made if its check holds. -/
theorem change_of_check {change : StatusChange} (hc : s.count? tenant id = some c)
    (hcheck : change.check c = .ok ()) (hopen : change.target.isOpen = false) :
    s.change tenant id { change } supply =
      .ok (change.apply c (supply.time 0), s.putCount (change.apply c (supply.time 0))) := by
  have hfound : s.checkTransition tenant id { change } = .ok c := by
    simp [checkTransition, findCount, hc, hcheck, hopen, checkNew, Option.elim, bind, Except.bind]
  simp [Store.change, hfound, settled, Halt.ofCheck, Halt.ofArithmetic, Except.mapError, bind,
    Except.bind]

/-- A count that takes the place of another one is found in its place. -/
theorem count?_putCount {c' : Count} (hc : s.count? tenant id = some c) (hid : c'.id = c.id)
    (htenant : c'.tenant = c.tenant) : (s.putCount c').count? tenant id = some c' := by
  obtain ⟨-, rfl, rfl⟩ := count?_eq_some hc
  unfold count? anyCount? putCount
  rw [← hid, find?_putBy_self]
  simp [htenant]

/-- A change whose check fails is refused. -/
theorem change_of_failed {e : Error} (hc : s.count? tenant id = some c)
    (hcheck : t.change.check c = .error e) :
    s.change tenant id t supply = .error (.refused e) := by
  simp [Store.change, checkTransition, findCount, hc, hcheck, Option.elim, Halt.ofCheck,
    Except.mapError, bind, Except.bind]

end Store

namespace WriteBack

open Concurrent (Exchange Scene Ending)

/-- Where statements are sent, and in which dialect. -/
structure Destination where
  target : Target
  connection : Id
  dialect : Sql.Dialect
deriving DecidableEq

/-- The target and the connection that a request means, if it means any. -/
def target? (s : Store) (tenant : Id) (default : Option Id) (r : SendRequest) :
    Option (Target × Id) := do
  let stock := s.activeMapping? tenant .stock
  let target ← (chooseTarget r.target stock).toOption
  let _ ← target.check.toOption
  let connection ← (r.connection.or (stock.map (·.connection))).or default
  return (target, connection)

/-- Where a request is sent, if it means a target and a connection that there is. -/
def destination? (connections : Erp.Connections) (s : Store) (tenant : Id) (default : Option Id)
    (r : SendRequest) : Option Destination := do
  let (target, connection) ← target? s tenant default r
  let dialect ← (Erp.dialectOf connections connection).toOption
  return ⟨target, connection, dialect⟩

/-- The items of a version that are written back. -/
def toWrite (s : Store) (count : Id) (version : Int) : List Item :=
  itemsToWrite (s.listItems count (some version)) (s.listReports count (some version))

/-- The target is told from what is stored, without any statement. -/
theorem leads_resolveTarget {tenant : Id} {default : Option Id} {r : SendRequest} {σ : Scene}
    {β : Type} {post : Ending β → Scene → Prop} {f : Target × Id → Action β}
    (hfound : ∀ found σ', Quietly σ σ' → target? σ.store tenant default r = some found →
      Action.Leads post (f found) σ')
    (hnone : ∀ e σ', Quietly σ σ' → target? σ.store tenant default r = none →
      post (.failure e) σ') :
    Action.Leads post (resolveTarget tenant default r >>= f) σ := by
  refine Action.leads_bind.mpr (leads_readMapping (fun _ => rfl) fun σ' hquiet => ?_)
  unfold target? at hfound hnone
  rw [Action.leads_bind]
  cases htarget : chooseTarget r.target (σ.store.activeMapping? tenant .stock) with
  | error fault => exact hnone _ σ' hquiet (by simp [htarget, Except.toOption])
  | ok target =>
    simp only [Except.mapError, Action.leads_check_ok, Action.andThen_success]
    cases hcheck : target.check with
    | error defect => exact hnone _ σ' hquiet (by simp [htarget, hcheck, Except.toOption])
    | ok u =>
      simp only [Error.ofQuery, Except.mapError]
      split
      · next connection hconnection =>
        exact hfound _ σ' hquiet (by simp [htarget, hcheck, hconnection, Except.toOption])
      · next hconnection =>
        have hconnection := Option.eq_none_iff_forall_ne_some.mpr hconnection
        exact hnone _ σ' hquiet (by simp [htarget, hconnection, Except.toOption])

/-- Items that are consistent have values to write. -/
theorem haveValues {items : List Item} {reports : List Report} (strategy : Strategy)
    (hitems : ∀ i ∈ items, i.Consistent) : HaveValues strategy (itemsToWrite items reports) := by
  intro i hi
  obtain ⟨hmem, hwrite⟩ := List.mem_filter.mp hi
  cases hcounted : i.countedQty with
  | none => simp [hcounted] at hwrite
  | some counted =>
    obtain ⟨difference, _, hdifference, -⟩ := (hitems i hmem).of_some hcounted
    cases strategy with
    | replace => simp [valueFor, valueOf?, hcounted]
    | add => simp [valueFor, valueOf?, hcounted, hdifference, Except.map]

/-- Where no session could be held, every item is recorded as failed. -/
theorem failedDetails_eq {strategy : Strategy} {e : Error} {items : List Item}
    (hvalues : HaveValues strategy items) :
    failedDetails strategy e items = .ok (items.map fun i => recorded strategy i (.error e)) := by
  induction items with
  | nil => rfl
  | cons i items ih =>
    have hothers : HaveValues strategy items := fun j hj => hvalues j (List.mem_cons_of_mem i hj)
    unfold failedDetails
    rw [hvalues i List.mem_cons_self, ih hothers]
    rfl

/-- What is told of items by their answers alone holds of all of them if it holds of all answers. -/
theorem all_zipWith {α β γ : Type} {f : α → β → γ} {p : γ → Bool} {q : β → Bool}
    (hp : ∀ a b, p (f a b) = q b) {items : List α} {answers : List β}
    (hlength : answers.length = items.length) :
    (List.zipWith f items answers).all p = answers.all q := by
  induction items generalizing answers with
  | nil =>
    rw [List.length_eq_zero_iff.mp hlength]
    rfl
  | cons i items ih =>
    obtain _ | ⟨answer, answers⟩ := answers
    · cases hlength
    · rw [List.zipWith_cons_cons, List.all_cons, List.all_cons, hp, ih (Nat.succ.inj hlength)]

section Attempts

variable {c : Count} {strategy : Strategy} {details : List WriteDetail} {actor id : Id}
  {started completed : Time}

/-- An attempt has failures unless every item was written. -/
theorem attemptOf_failed_eq_zero_iff :
    (attemptOf c strategy details actor id started completed).failed = 0 ↔
      details.all (·.success) = true := by
  have hle : details.countP (·.success) ≤ details.length := List.countP_le_length
  have heq : details.countP (·.success) = details.length ↔ ∀ d ∈ details, d.success = true :=
    List.countP_eq_length
  rw [List.all_eq_true, ← heq]
  simp only [attemptOf]
  omega

/-- With their answers recorded, every item was written just if every answer accepts. -/
theorem all_recorded {items : List Item} {answers : List (Except Error (List Row))}
    (hlength : answers.length = items.length) :
    (List.zipWith (recorded strategy) items answers).all (·.success) = answers.all (·.isOk) :=
  all_zipWith (fun _ answer => by cases answer <;> rfl) hlength

end Attempts

/-- A count that was closed after it was written back. -/
def closedBy (c : Count) (actor : Id) (now : Time) : Count :=
  { StatusChange.ofCount c [.completed] .closed actor with milestone := some .closed }.apply c now

theorem closedBy_same {c : Count} {actor : Id} {now : Time} : (closedBy c actor now).id = c.id ∧
    (closedBy c actor now).tenant = c.tenant ∧
    (closedBy c actor now).currentVersion = c.currentVersion :=
  ⟨rfl, rfl, Int.add_zero _⟩

/-- The record of an attempt to write back a count, whenever it was made. -/
def IsAttempt (c : Count) (strategy : Strategy) (details : List WriteDetail) (actor : Id)
    (a : Attempt) : Prop :=
  ∃ id started completed, a = attemptOf c strategy details actor id started completed

/-- What an attempt to write back a count comes to, by the place where it is sent. -/
inductive CameTo (s : Store) (c : Count) (strategy : Strategy) (actor : Id)
    (place : Option Destination) (ending : Ending SendOutcome) (σ : Scene) : Prop
  | refused (hwhy : c.status = .completed → place = none) (hstore : σ.store = s)
      (hsent : sent σ.past = [])
  | unopened (hstatus : c.status = .completed) (hplace : place ≠ none)
      (hopenings : openings σ.past = [false]) {a : Attempt} {e : Error}
      (hattempt : IsAttempt c strategy
        ((toWrite s c.id c.currentVersion).map fun i => recorded strategy i (.error e)) actor a)
      (hending : ending = .failure e) (hstore : σ.store = s.addAttempt a)
      (hsent : sent σ.past = [])
  | held {d : Destination} {answers : List (Except Error (List Row))}
      (hstatus : c.status = .completed) (hplace : place = some d) (hopenings : openings σ.past = [true])
      (hlength : answers.length = (toWrite s c.id c.currentVersion).length)
      (hsent : sent σ.past = List.zipWith (written d.dialect d.target strategy)
        (toWrite s c.id c.currentVersion) answers)
      {a : Attempt} (hattempt : IsAttempt c strategy (List.zipWith (recorded strategy)
        (toWrite s c.id c.currentVersion) answers) actor a) (now : Time)
      (hending : ending =
        .success ⟨a, if answers.all (·.isOk) then closedBy c actor now else c⟩)
      (hstore : σ.store = if answers.all (·.isOk) then (s.addAttempt a).putCount (closedBy c actor now)
        else s.addAttempt a)

section Attempts

variable {tenant count actor : Id} {strategy : Strategy} {s : Store} {c : Count} {σ : Scene}
  {started : Time} {place : Option Destination}

/-- A session that could not be held is recorded, and that is all. -/
theorem leads_finish_error {e : Error}
    (hvalues : HaveValues strategy (toWrite s c.id c.currentVersion))
    (hstatus : c.status = .completed) (hplace : place ≠ none) (hstore : σ.store = s)
    (hsent : sent σ.past = []) (hopenings : openings σ.past = [false]) :
    Action.Leads (CameTo s c strategy actor place)
      (do
        let details ← Action.arithmetic
          (failedDetails strategy e (toWrite s c.id c.currentVersion))
        finish c tenant count strategy actor started (.error e) details) σ := by
  rw [failedDetails_eq hvalues]
  refine leads_draw fun id σ₁ h₁ => leads_readClock fun completed σ₂ h₂ => ?_
  refine leads_answered (fun _ => ((), _)) (fun _ => rfl) fun _ σ₃ h₃ hstore₃ => ?_
  have hsilent := (h₁.trans h₂).toSilent.trans h₃
  exact .unopened hstatus hplace (hsilent.openings.trans hopenings) ⟨id, started, completed, rfl⟩ rfl
    (hstore₃.trans (congrArg (Store.addAttempt · _) ((h₁.trans h₂).store.trans hstore)))
    (hsilent.sent.trans hsent)

/-- After a session that was held, the count is closed or stays as it is. -/
theorem leads_finish_ok {d : Destination} {answers : List (Except Error (List Row))}
    {details : List WriteDetail} (hc : s.count? tenant count = some c)
    (hstatus : c.status = .completed) (hstore : σ.store = s) (hopenings : openings σ.past = [true])
    (hlength : answers.length = (toWrite s c.id c.currentVersion).length)
    (hsent : sent σ.past = List.zipWith (written d.dialect d.target strategy)
      (toWrite s c.id c.currentVersion) answers)
    (hdetails : details = List.zipWith (recorded strategy) (toWrite s c.id c.currentVersion) answers) :
    Action.Leads (CameTo s c strategy actor (some d))
      (finish c tenant count strategy actor started (.ok details) details) σ := by
  refine leads_draw fun id σ₁ h₁ => leads_readClock fun completed σ₂ h₂ => ?_
  refine leads_answered (fun _ => ((), _)) (fun _ => rfl) fun _ σ₃ h₃ hstore₃ => ?_
  have hsilent := (h₁.trans h₂).toSilent.trans h₃
  replace hstore₃ := hstore₃.trans
    (congrArg (Store.addAttempt · _) ((h₁.trans h₂).store.trans hstore))
  subst hdetails
  have hfailed : (attemptOf c strategy (List.zipWith (recorded strategy)
      (toWrite s c.id c.currentVersion) answers) actor id started completed).failed = 0 ↔
      answers.all (·.isOk) = true := by rw [attemptOf_failed_eq_zero_iff, all_recorded hlength]
  refine Action.leads_check_bind.mpr (Action.leads_ite.mpr ⟨fun hzero => ?_, fun hsome => ?_⟩)
  · refine leads_answered (fun supply => (closedBy c actor (supply.time 0),
      σ₃.store.putCount (closedBy c actor (supply.time 0)))) (fun supply => ?_)
      fun supply σ₄ h₄ hstore₄ => ?_
    · rw [hstore₃]
      refine Store.change_of_check hc (StatusChange.check_eq_ok_iff.mpr ⟨?_, rfl⟩) rfl
      exact List.mem_singleton.mpr hstatus
    · have hall := hfailed.mp hzero
      refine .held hstatus rfl ((hsilent.trans h₄).openings.trans hopenings) hlength
        ((hsilent.trans h₄).sent.trans hsent) ⟨id, started, completed, rfl⟩ (supply.time 0) ?_ ?_
      · rw [if_pos hall]
        rfl
      · rw [if_pos hall, hstore₄, hstore₃]
  · have hall : ¬ answers.all (·.isOk) = true := fun hall => hsome (hfailed.mpr hall)
    refine .held hstatus rfl (hsilent.openings.trans hopenings) hlength (hsilent.sent.trans hsent)
      ⟨id, started, completed, rfl⟩ started ?_ ?_
    · rw [if_neg hall]
      rfl
    · rw [if_neg hall]
      exact hstore₃

/-- The session of an attempt that has come to it. -/
theorem leads_holdSession {d : Destination} (hc : s.count? tenant count = some c)
    (hstatus : c.status = .completed)
    (hvalues : HaveValues strategy (toWrite s c.id c.currentVersion)) (hstore : σ.store = s)
    (hsent : sent σ.past = []) (hopenings : openings σ.past = []) :
    Action.Leads (CameTo s c strategy actor (some d))
      (holdSession d.target d.connection d.dialect c tenant count strategy actor started
        (toWrite s c.id c.currentVersion)) σ := by
  unfold holdSession
  rw [Action.leads_bind, Action.leads_attempt, leads_withSession]
  constructor
  · refine (leads_writeItems hvalues).mono ?_
    rintro _ σ' ⟨details, answers, rfl, h⟩ answer
    have hsilent : Silent σ' (σ'.told ⟨.erp d.connection .disconnect, answer⟩) := .answered rfl rfl
    refine leads_finish_ok hc hstatus (h.store.trans hstore) ?_ h.length ?_ h.details
    · rw [hsilent.openings, h.openings, Scene.told_past, openings_cons, hopenings]
      rfl
    · rw [hsilent.sent, h.sent, Scene.told_past, sent_cons, hsent]
      rfl
  · intro fault answer
    refine leads_finish_error hvalues hstatus (by simp) hstore ?_ ?_
    · simp [statement?, hsent]
    · simp [opening?, hopenings, Except.isOk, Except.toBool]

/-- An attempt asks for nothing but reads before its session, and comes to it with what is to be
written as the store has it, unless the count is not completed or there is no place to send it to. -/
theorem leads_send_of_session {connections : Erp.Connections} {default : Option Id} {r : SendRequest}
    {drawn : List Id} {post : Ending SendOutcome → Scene → Prop} (hc : s.count? tenant count = some c)
    (hrefused : (c.status = .completed → destination? connections s tenant default r = none) →
      ∀ e σ, Quietly ⟨s, drawn, []⟩ σ → post (.failure e) σ)
    (hsession : c.status = .completed → ∀ d,
      destination? connections s tenant default r = some d → ∀ started σ, Quietly ⟨s, drawn, []⟩ σ →
        Action.Leads post (holdSession d.target d.connection d.dialect c tenant count r.strategy actor
          started (toWrite s c.id c.currentVersion)) σ) :
    Action.Leads post (send connections default tenant count r actor) ⟨s, drawn, []⟩ := by
  obtain ⟨-, rfl, -⟩ := Store.count?_eq_some hc
  refine leads_getCount hc fun σ₁ h₁ => ?_
  refine Action.leads_ite.mpr ⟨fun hstatus => ?_, fun hstatus => ?_⟩
  · exact hrefused (fun h => absurd h hstatus) _ σ₁ h₁
  · have hstatus : c.status = .completed := not_not.mp hstatus
    refine leads_resolveTarget (fun found σ₂ h₂ hfound => ?_) fun e σ₂ h₂ hnone => ?_
    · obtain ⟨target, connection⟩ := found
      rw [h₁.store] at hfound
      refine leads_read (fun _ => rfl) fun σ₃ h₃ => ?_
      refine leads_read (fun _ => rfl) fun σ₄ h₄ => ?_
      refine leads_readClock fun started σ₅ h₅ => ?_
      have hquiet := (((h₁.trans h₂).trans h₃).trans h₄).trans h₅
      have hlisted : itemsToWrite (σ₃.store.listItems c.id (some c.currentVersion))
          (σ₂.store.listReports c.id (some c.currentVersion)) = toWrite s c.id c.currentVersion := by
        rw [h₃.store, h₂.store, h₁.store]
        rfl
      rw [hlisted]
      cases hdialect : Erp.dialectOf connections connection with
      | error e =>
        have hplace : destination? connections s tenant default r = none := by
          simp [destination?, hfound, hdialect, Except.toOption]
        exact hrefused (fun _ => hplace) e σ₅ hquiet
      | ok dialect =>
        have hplace : destination? connections s tenant default r =
            some ⟨target, connection, dialect⟩ := by
          simp [destination?, hfound, hdialect, Except.toOption]
        exact Action.leads_check_bind.mpr (hsession hstatus _ hplace started σ₅ hquiet)
    · have hplace : destination? connections s tenant default r = none := by
        rw [h₁.store] at hnone
        simp [destination?, hnone]
      exact hrefused (fun _ => hplace) e σ₂ (h₁.trans h₂)

/-- An attempt that is not interrupted sends what is to be written as the store has it, once a
session is open, and closes the count if every statement was accepted. -/
theorem leads_send {connections : Erp.Connections} {default : Option Id} {r : SendRequest}
    {drawn : List Id} (hc : s.count? tenant count = some c)
    (hs : s.Sound) :
    Action.Leads (CameTo s c r.strategy actor (destination? connections s tenant default r))
      (send connections default tenant count r actor) ⟨s, drawn, []⟩ := by
  refine leads_send_of_session hc (fun hwhy e σ hquiet => .refused hwhy hquiet.store hquiet.sent)
    fun hstatus d hplace started σ hquiet => ?_
  rw [hplace]
  exact leads_holdSession hc hstatus (haveValues r.strategy fun i hi => (hs.listItems.2 i hi).2.2)
    hquiet.store hquiet.sent hquiet.openings

/-- A count that was closed and is open for another attempt. -/
def reopenedBy (c : Count) (actor : Id) (now : Time) : Count :=
  (StatusChange.ofCount c [.closed] .completed actor).apply c now

theorem reopenedBy_same {now : Time} : (reopenedBy c actor now).id = c.id ∧
    (reopenedBy c actor now).tenant = c.tenant ∧
    (reopenedBy c actor now).currentVersion = c.currentVersion :=
  ⟨rfl, rfl, Int.add_zero _⟩

/-- Opening a count for another attempt sends nothing. -/
theorem leads_reactivate {drawn : List Id} (hc : s.count? tenant count = some c) :
    Action.Leads (fun _ σ => sent σ.past = [] ∧
        (c.status = .closed ∧ (∃ now, σ.store = s.putCount (reopenedBy c actor now)) ∨
          c.status ≠ .closed ∧ σ.store = s))
      (Counting.changeStage tenant count .reactivate actor) ⟨s, drawn, []⟩ := by
  let change := StatusChange.ofCount c [.closed] .completed actor
  refine leads_getCount hc fun σ₁ h₁ => ?_
  refine (@Action.leads_counts σ₁ (.change tenant count { change }) _).mpr fun supply _ => ?_
  have hstore : σ₁.store = s := h₁.store
  rw [Store.answerCounts, hstore]
  by_cases hclosed : c.status = .closed
  · have hcheck : change.check c = .ok () :=
      StatusChange.check_eq_ok_iff.mpr ⟨List.mem_singleton.mpr hclosed, rfl⟩
    rw [Store.change_of_check hc hcheck rfl]
    exact ⟨by simp [statement?, h₁.sent], .inl ⟨hclosed, supply.time 0, rfl⟩⟩
  · cases hcheck : change.check c with
    | ok u =>
      obtain ⟨hstatus, -⟩ := StatusChange.check_eq_ok_iff.mp hcheck
      exact absurd (List.mem_singleton.mp hstatus) hclosed
    | error e =>
      rw [Store.change_of_failed hc hcheck]
      exact ⟨by simp [statement?, h₁.sent], .inr ⟨hclosed, hstore⟩⟩

end Attempts
end WriteBack
end Recount
