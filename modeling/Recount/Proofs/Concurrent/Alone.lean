import Recount.Proofs.Concurrent.World

/-!
# Programs that run alone

A program that is not interrupted calls one store from its begin to its end. Where it leads is
followed along the program: after every answer that may come it goes on, and a condition has to
hold wherever it ends, also where it fails or stops at an overflow.
-/

namespace Recount.Concurrent

/-- What there is for a program that runs alone. -/
structure Scene where
  store : Store
  /-- The identifiers that were drawn so far. -/
  drawn : List Id
  /-- What the program asked so far, the latest first. -/
  past : List Exchange

/-- How an action ends. -/
inductive Ending (α : Type) where
  | success (result : α)
  | failure (error : Error)
  | overflow (overflow : Overflow)

/-- The ending of the program of an action. -/
def Ending.ofResult : Except Overflow (Except Error α) → Ending α
  | .ok (.ok a) => success a
  | .ok (.error e) => failure e
  | .error o => overflow o

/-- A request may stop its program at an overflow. -/
def Scene.Overflows (σ : Scene) (q : Request) (o : Overflow) : Prop :=
  ∃ supply call s, Fresh σ.drawn supply σ.store.demand ∧ q = .store call ∧
    σ.store.step supply call = (.error o, s)

/-- The scene after an answer. -/
def Scene.answered (σ : Scene) (e : Exchange) (s : Store) (drawn : List Id) : Scene :=
  ⟨s, drawn, e :: σ.past⟩

/-- The scene after the answer to a call on the store, for which a supply was at hand. -/
def Scene.called (σ : Scene) (supply : Supply) (e : Exchange) (s : Store) : Scene :=
  σ.answered e s (supply.ids σ.store.demand ++ σ.drawn)

/-- The scene after an answer that leaves the store as it is. -/
def Scene.told (σ : Scene) (e : Exchange) : Scene := σ.answered e σ.store σ.drawn

section Scenes

variable {σ : Scene} {e : Exchange} {s : Store} {drawn : List Id} {supply : Supply}

@[simp] theorem Scene.answered_past : (σ.answered e s drawn).past = e :: σ.past := rfl

@[simp] theorem Scene.called_past : (σ.called supply e s).past = e :: σ.past := rfl

@[simp] theorem Scene.told_past : (σ.told e).past = e :: σ.past := rfl

end Scenes

/-- A program leads to a condition: it holds at every end that the program may come to. -/
def Leads {α : Type} (post : Except Overflow α → Scene → Prop) :
    Program Request Request.Answer α → Scene → Prop
  | .done a, σ => post (.ok a) σ
  | .stop o, σ => post (.error o) σ
  | .ask q next, σ =>
    (∀ answer s drawn, Answers σ.store σ.drawn q answer s drawn →
      Leads post (next answer) (σ.answered ⟨q, answer⟩ s drawn)) ∧
    ∀ o, σ.Overflows q o → post (.error o) σ

/-- A program that runs alone comes from one scene to an end in another one. -/
inductive Runs {α : Type} :
    Program Request Request.Answer α → Scene → Except Overflow α → Scene → Prop
  | done {a σ} : Runs (.done a) σ (.ok a) σ
  | stop {o σ} : Runs (.stop o) σ (.error o) σ
  | answered {q next answer s drawn result σ σ'} (hanswer : Answers σ.store σ.drawn q answer s drawn)
      (hrest : Runs (next answer) (σ.answered ⟨q, answer⟩ s drawn) result σ') :
      Runs (.ask q next) σ result σ'
  | overflowed {q next o σ} (hover : σ.Overflows q o) : Runs (.ask q next) σ (.error o) σ

section Programs

variable {α β : Type} {post post' : Except Overflow α → Scene → Prop} {σ : Scene}
  {p : Program Request Request.Answer α}

/-- A program leads to what holds at the end of each of its runs. -/
theorem leads_iff_runs :
    Leads post p σ ↔ ∀ result σ', Runs p σ result σ' → post result σ' := by
  induction p generalizing σ with
  | done a => exact ⟨fun h _ _ hrun => by cases hrun; exact h, fun h => h _ _ .done⟩
  | stop o => exact ⟨fun h _ _ hrun => by cases hrun; exact h, fun h => h _ _ .stop⟩
  | ask q next ih =>
    simp only [Leads, ih]
    constructor
    · rintro ⟨hanswered, hover⟩ result σ' hrun
      cases hrun with
      | answered hanswer hrest => exact hanswered _ _ _ hanswer _ _ hrest
      | overflowed ho => exact hover _ ho
    · intro h
      exact ⟨fun answer s drawn hanswer result σ' hrest => h _ _ (.answered hanswer hrest),
        fun o ho => h _ _ (.overflowed ho)⟩

theorem leads_bind {f : α → Program Request Request.Answer β}
    {post : Except Overflow β → Scene → Prop} :
    Leads post (p.bind f) σ ↔ Leads (fun
      | .ok a, σ => Leads post (f a) σ
      | .error o, σ => post (.error o) σ) p σ := by
  induction p generalizing σ with
  | done a => rfl
  | stop o => rfl
  | ask q next ih => simp only [Program.bind_ask, Leads, ih]

theorem Leads.mono (h : Leads post p σ) (hpost : ∀ r σ, post r σ → post' r σ) :
    Leads post' p σ := by
  induction p generalizing σ with
  | done a => exact hpost _ _ h
  | stop o => exact hpost _ _ h
  | ask q next ih =>
    refine ⟨fun answer s drawn hanswer => ih answer (h.1 answer s drawn hanswer), fun o ho => ?_⟩
    exact hpost _ _ (h.2 o ho)

/-- A call on the store is answered from the store as it is. -/
theorem leads_store {call : StoreCall} {next} :
    Leads post (.ask (.store call) next) σ ↔ ∀ supply, Fresh σ.drawn supply σ.store.demand →
      match σ.store.step supply call with
      | (.ok answer, s) => Leads post (next answer) (σ.called supply ⟨.store call, answer⟩ s)
      | (.error o, _) => post (.error o) σ := by
  constructor
  · intro h supply hfresh
    split
    · next answer s hstep => exact h.1 answer s _ (.store supply hfresh hstep)
    · next o s hstep => exact h.2 o ⟨supply, call, s, hfresh, rfl, hstep⟩
  · intro h
    constructor
    · rintro answer s drawn (⟨supply, hfresh, hstep⟩)
      have hleads := h supply hfresh
      rw [hstep] at hleads
      exact hleads
    · rintro o ⟨supply, call', s, hfresh, heq, hstep⟩
      cases heq
      have hleads := h supply hfresh
      rw [hstep] at hleads
      exact hleads

end Programs

section Runs

variable {sources : Loading.Sources} {w w' : World} {n : Nat} {work : Work}
  {post : Except Overflow Unit → Scene → Prop}

/-- What a program leads to, it leads to after each of its steps. -/
theorem Leads.advance (h : Leads post work.rest ⟨w.store, w.drawn, work.past⟩)
    (hwork : w.works[n]? = some work) (hadvance : Advance n w w') :
    ∃ after, w'.works[n]? = some after ∧ after.task = work.task ∧
      Leads post after.rest ⟨w'.store, w'.drawn, after.past⟩ := by
  obtain ⟨hlt, -⟩ := List.getElem?_eq_some_iff.mp hwork
  cases hadvance with
  | @answered work' q next answer s' drawn' hwork' hrest hanswer =>
    cases hwork.symm.trans hwork'
    rw [hrest] at h
    exact ⟨_, List.getElem?_set_self hlt, rfl, h.1 answer s' drawn' hanswer⟩
  | @stopped work' call next o s' hwork' hrest supply hfresh hstep =>
    cases hwork.symm.trans hwork'
    rw [hrest] at h
    exact ⟨_, List.getElem?_set_self hlt, rfl, h.2 o ⟨supply, call, s', hfresh, rfl, hstep⟩⟩

theorem Leads.run (h : Leads post work.rest ⟨w.store, w.drawn, work.past⟩)
    (hwork : w.works[n]? = some work) (hrun : Relation.ReflTransGen (Advance n) w w') :
    ∃ after, w'.works[n]? = some after ∧ after.task = work.task ∧
      Leads post after.rest ⟨w'.store, w'.drawn, after.past⟩ := by
  induction hrun with
  | refl => exact ⟨work, hwork, rfl, h⟩
  | tail _ hadvance ih =>
    obtain ⟨between, hbetween, htask, hleads⟩ := ih
    obtain ⟨after, hafter, htask', hleads'⟩ := hleads.advance hbetween hadvance
    exact ⟨after, hafter, htask'.trans htask, hleads'⟩

/-- A program that has nothing more to ask has come to an end. -/
theorem Leads.at_end {p : Program Request Request.Answer Unit} {σ : Scene} (h : Leads post p σ)
    (hover : ∀ q next, p ≠ .ask q next) : ∃ result, post result σ := by
  cases p with
  | done a => exact ⟨_, h⟩
  | stop o => exact ⟨_, h⟩
  | ask q next => exact absurd rfl (hover q next)

/-- A task runs alone from its begin to its end, and this is what it asked. -/
structure RunsAlone (sources : Loading.Sources) (w : World) (t : Task) (past : List Exchange)
    (w' : World) : Prop where
  run : Relation.ReflTransGen (Advance w.works.length) (w.begin sources t) w'
  ended : w'.isOver w.works.length
  asked : ∃ work, w'.works[w.works.length]? = some work ∧ work.past = past

theorem RunsAlone.reachable {t : Task} {past : List Exchange} (h : RunsAlone sources w t past w')
    (hw : Reachable sources nobody w) : Reachable sources nobody w' := by
  refine (hw.tail (.begin t not_false)).trans ?_
  exact Relation.ReflTransGen.mono (fun _ _ => Step.advance) _ _ h.run

end Runs
end Recount.Concurrent

namespace Recount.Action

open Concurrent

variable {α β : Type}

/-- An action leads to a condition on its ending. -/
def Leads (post : Ending α → Scene → Prop) (x : Action α) (σ : Scene) : Prop :=
  Concurrent.Leads (fun result σ => post (.ofResult result) σ) x.run σ

/-- An action that runs alone comes from one scene to an ending in another one. -/
def Runs (x : Action α) (σ : Scene) (ending : Ending α) (σ' : Scene) : Prop :=
  ∃ result, Concurrent.Runs x.run σ result σ' ∧ ending = .ofResult result

/-- An action leads to what holds at the end of each of its runs. -/
theorem leads_iff_runs {post : Ending α → Scene → Prop} {x : Action α} {σ : Scene} :
    Leads post x σ ↔ ∀ ending σ', x.Runs σ ending σ' → post ending σ' := by
  refine Concurrent.leads_iff_runs.trans ⟨?_, fun h result σ' hrun => h _ σ' ⟨result, hrun, rfl⟩⟩
  rintro h _ σ' ⟨result, hrun, rfl⟩
  exact h result σ' hrun

/-- The condition at the end of a first part: after a success, the second part follows. -/
def andThen (rest : α → Scene → Prop) (post : Ending β → Scene → Prop) : Ending α → Scene → Prop
  | .success a, σ => rest a σ
  | .failure e, σ => post (.failure e) σ
  | .overflow o, σ => post (.overflow o) σ

/-- The condition at the end of an attempt: a failure is a result. -/
def attempted (post : Ending (Except Error α) → Scene → Prop) : Ending α → Scene → Prop
  | .success a, σ => post (.success (.ok a)) σ
  | .failure e, σ => post (.success (.error e)) σ
  | .overflow o, σ => post (.overflow o) σ

section Rules

variable {post post' : Ending α → Scene → Prop} {x : Action α} {σ : Scene}

theorem Leads.mono (h : Leads post x σ) (hpost : ∀ ending σ, post ending σ → post' ending σ) :
    Leads post' x σ :=
  Concurrent.Leads.mono h fun _ _ => hpost _ _

@[simp] theorem andThen_success {rest : α → Scene → Prop} {post : Ending β → Scene → Prop} {a : α} :
    andThen rest post (.success a) σ ↔ rest a σ := Iff.rfl

@[simp] theorem leads_bind {f : α → Action β} {post : Ending β → Scene → Prop} :
    Leads post (x >>= f) σ ↔ Leads (andThen (fun a σ => Leads post (f a) σ) post) x σ := by
  refine Concurrent.leads_bind.trans (iff_of_eq (congrArg (Concurrent.Leads · x.run σ) ?_))
  funext result σ
  rcases result with o | e | a <;> rfl

/-- An action that succeeds in two parts is run part by part. -/
theorem Runs.bind {f : α → Action β} {b : β} {σ' : Scene} (h : (x >>= f).Runs σ (.success b) σ') :
    ∃ a σ₁, x.Runs σ (.success a) σ₁ ∧ (f a).Runs σ₁ (.success b) σ' := by
  let post : Ending β → Scene → Prop := fun ending σ' => ∀ b, ending = .success b →
    ∃ a σ₁, x.Runs σ (.success a) σ₁ ∧ (f a).Runs σ₁ (.success b) σ'
  have hleads : Leads post (x >>= f) σ := by
    refine leads_bind.mpr (leads_iff_runs.mpr fun ending σ₁ hfirst => ?_)
    cases ending with
    | success a =>
      refine leads_iff_runs.mpr ?_
      rintro _ σ' hsecond b rfl
      exact ⟨a, σ₁, hfirst, hsecond⟩
    | failure e =>
      rintro b ⟨⟩
    | overflow o =>
      rintro b ⟨⟩
  exact leads_iff_runs.mp hleads _ _ h b rfl

theorem Runs.eq_of_pure {a : α} {ending : Ending α} {σ' : Scene}
    (h : (pure a : Action α).Runs σ ending σ') : ending = .success a ∧ σ' = σ := by
  obtain ⟨result, hrun, rfl⟩ := h
  cases hrun
  exact ⟨rfl, rfl⟩

@[simp] theorem leads_check_ok {a : α} :
    Leads post (check (.ok a)) σ ↔ post (.success a) σ := Iff.rfl

/-- A check that succeeds is passed. -/
theorem leads_check_bind {a : α} {f : α → Action β} {post : Ending β → Scene → Prop} :
    Leads post (check (.ok a) >>= f) σ ↔ Leads post (f a) σ := Iff.rfl

@[simp] theorem leads_arithmetic_ok {a : α} :
    Leads post (arithmetic (.ok a)) σ ↔ post (.success a) σ := Iff.rfl

@[simp] theorem leads_ite {c : Prop} [Decidable c] {y : Action α} :
    Leads post (if c then x else y) σ ↔ (c → Leads post x σ) ∧ (¬ c → Leads post y σ) := by
  split <;> simp_all

@[simp] theorem leads_attempt {post : Ending (Except Error α) → Scene → Prop} :
    Leads post (attempt x) σ ↔ Leads (attempted post) x σ := by
  refine Concurrent.leads_bind.trans (iff_of_eq (congrArg (Concurrent.Leads · x.run σ) ?_))
  funext result σ
  rcases result with o | e | a <;> rfl

end Rules

section Requests

/-! As in the rules about `Keeps`, the type of an answer is left out of the index of `simp`. -/

variable {σ : Scene}

/-- The condition at the end of a call on the store, by what the store answers. -/
def Answered (call : StoreCall) (post : Ending call.Result → Scene → Prop) (σ : Scene)
    (supply : Supply) : Except Halt (call.Result × Store) → Prop
  | .ok (result, s) => post (.success result) (σ.called supply ⟨.store call, .ok result⟩ s)
  | .error (.refused e) => post (.failure e) (σ.called supply ⟨.store call, .error e⟩ σ.store)
  | .error (.overflow o) => post (.overflow o) σ

/-- What a call leads to is decided by the answer of the store, whatever is drawn for it. -/
theorem leads_call (call : StoreCall) {post : Ending call.Result → Scene → Prop} :
    Concurrent.Leads (fun result σ => post (.ofResult result) σ)
        (.ask (.store call) fun answer => .done answer) σ ↔
      ∀ supply, Fresh σ.drawn supply σ.store.demand →
        Answered call post σ supply (σ.store.answer supply call) := by
  refine leads_store.trans (forall₂_congr fun supply hfresh => ?_)
  unfold Store.step
  rcases σ.store.answer supply call with (e | o) | ⟨result, s⟩ <;> rfl

theorem leads_counts {call : CountCall} {post : Ending call.Result → Scene → Prop} :
    @Leads (no_index call.Result) post (counts call) σ ↔ ∀ supply, Fresh σ.drawn supply σ.store.demand →
      Answered (.counts call) post σ supply (σ.store.answerCounts supply call) :=
  leads_call (.counts call)

theorem leads_mappings {call : MappingCall} {post : Ending call.Result → Scene → Prop} :
    @Leads (no_index call.Result) post (mappings call) σ ↔ ∀ supply, Fresh σ.drawn supply σ.store.demand →
      Answered (.mappings call) post σ supply (σ.store.answerMappings supply call) :=
  leads_call (.mappings call)

/-- A planning system may answer as it likes. -/
theorem leads_erp {connection : Id} {call : ErpCall} {post : Ending call.Result → Scene → Prop} :
    @Leads (no_index call.Result) post (erp connection call) σ ↔
      (∀ result, post (.success result) (σ.told ⟨.erp connection call, .ok result⟩)) ∧
        ∀ fault, post (.failure (.erp fault)) (σ.told ⟨.erp connection call, .error fault⟩) := by
  constructor
  · intro h
    exact ⟨fun result => h.1 (.ok result) _ _ (.erp _),
      fun fault => h.1 (.error fault) _ _ (.erp _)⟩
  · rintro ⟨hok, herror⟩
    refine ⟨?_, fun o ⟨_, _, _, _, hrequest, _⟩ => by cases hrequest⟩
    rintro (fault | result) s drawn ⟨⟩
    · exact herror fault
    · exact hok result

theorem leads_freshId {post : Ending Id → Scene → Prop} :
    Leads post freshId σ ↔ ∀ id, id ∉ σ.drawn →
      post (.success id) (σ.answered ⟨.freshId, id⟩ σ.store (id :: σ.drawn)) := by
  constructor
  · intro h id hid
    exact h.1 id _ _ (.freshId hid)
  · intro h
    refine ⟨?_, fun o ⟨_, _, _, _, hrequest, _⟩ => by cases hrequest⟩
    intro id s drawn hanswer
    cases hanswer with
    | freshId hid => exact h id hid

theorem leads_now {post : Ending Time → Scene → Prop} :
    Leads post now σ ↔ ∀ time, post (.success time) (σ.told ⟨.now, time⟩) := by
  constructor
  · intro h time
    exact h.1 time _ _ (.now time)
  · intro h
    refine ⟨?_, fun o ⟨_, _, _, _, hrequest, _⟩ => by cases hrequest⟩
    rintro time s drawn ⟨⟩
    exact h time

end Requests

/-- What an action leads to holds when its task has run alone. -/
theorem Leads.of_runsAlone {sources : Loading.Sources} {w w' : World} {t : Task}
    {past : List Exchange} {action : Action α} {post : Ending α → Scene → Prop}
    (h : Leads post action ⟨w.store, w.drawn, []⟩) (htask : t.program sources = work action)
    (hrun : RunsAlone sources w t past w') : ∃ ending drawn, post ending ⟨w'.store, drawn, past⟩ := by
  have hleads : Concurrent.Leads (fun _ σ => ∃ ending, post ending σ) (t.program sources)
      ⟨w.store, w.drawn, []⟩ := by
    rw [htask]
    refine Concurrent.leads_bind.mpr (Concurrent.Leads.mono h ?_)
    rintro (o | result) σ hpost <;> exact ⟨_, hpost⟩
  have hbegun : (w.begin sources t).works[w.works.length]? = some ⟨t, [], t.program sources⟩ := by
    simp [World.begin]
  obtain ⟨after, hafter, -, hrest⟩ :=
    Concurrent.Leads.run (w := w.begin sources t) hleads hbegun hrun.run
  obtain ⟨_, ending, hpost⟩ := hrest.at_end (hrun.ended after hafter)
  obtain ⟨work, hwork, rfl⟩ := hrun.asked
  cases hafter.symm.trans hwork
  exact ⟨ending, _, hpost⟩

/-- When a task has run alone, so has its action. -/
theorem exists_runs {sources : Loading.Sources} {w w' : World} {t : Task} {past : List Exchange}
    {action : Action α} (hrun : RunsAlone sources w t past w')
    (htask : t.program sources = work action) :
    ∃ ending drawn, action.Runs ⟨w.store, w.drawn, []⟩ ending ⟨w'.store, drawn, past⟩ :=
  (leads_iff_runs.mpr fun _ _ h => h).of_runsAlone htask hrun

end Recount.Action
