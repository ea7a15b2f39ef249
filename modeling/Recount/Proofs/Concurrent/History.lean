import Recount.Proofs.Concurrent.World
import Recount.Proofs.Program.Reaches

/-!
# The history of a task

A task has come just as far as its own history brings its program, whatever the others
do in between. An exchange that is in the history of a task took place at some moment,
and was answered from the store as it was then.
-/

namespace Recount.Concurrent

variable {sources : Loading.Sources} {alone : Task → Prop} {w w' : World} {n : Nat} {work : Work}
  {e : Exchange}

/-- A task makes an exchange. -/
structure Exchanges (n : Nat) (w w' : World) (e : Exchange) : Prop where
  advance : Advance n w w'
  log : w'.log = e :: w.log
  answers : Answers w.store w.drawn e.request e.answer w'.store w'.drawn

/-- When a task goes on, it makes an exchange and goes on with the answer, or it stops. -/
theorem Advance.self_cases (h : Advance n w w') (hwork : w.works[n]? = some work) :
    ∃ q next, work.rest = .ask q next ∧
      ((∃ answer, Exchanges n w w' ⟨q, answer⟩ ∧
          w'.works[n]? = some ⟨work.task, ⟨q, answer⟩ :: work.past, next answer⟩) ∨
        ∃ call supply o, q = .store call ∧ (w.store.step supply call).1 = .error o ∧
          w'.store = w.store ∧ w'.works[n]? = some { work with rest := .stop o }) := by
  have hlt : n < w.works.length := (List.getElem?_eq_some_iff.mp hwork).1
  cases h with
  | @answered work' q next answer s' drawn' hwork' hrest hanswer =>
    cases hwork.symm.trans hwork'
    refine ⟨q, next, hrest, .inl ⟨answer, ⟨.answered hwork hrest hanswer, rfl, hanswer⟩, ?_⟩⟩
    exact List.getElem?_set_self hlt
  | @stopped work' call next overflow s' hwork' hrest supply hfresh hstep =>
    cases hwork.symm.trans hwork'
    exact ⟨_, next, hrest, .inr ⟨call, supply, overflow, rfl, congrArg Prod.fst hstep, rfl,
      List.getElem?_set_self hlt⟩⟩

/-- While one task runs alone, the others stay as they are. -/
theorem getElem?_of_advances {m : Nat} (hne : n ≠ m)
    (hrun : Relation.ReflTransGen (Advance m) w w') : w'.works[n]? = w.works[n]? := by
  induction hrun with
  | refl => rfl
  | tail _ hadvance ih => rw [hadvance.getElem?_of_ne hne, ih]

theorem World.getElem?_begin_of_lt {t : Task} (hlt : n < w.works.length) :
    (w.begin sources t).works[n]? = w.works[n]? :=
  List.getElem?_append_left hlt

/-- A task keeps its history, and adds to it at most the exchange that it makes just then. -/
theorem Step.work_cases (h : Step sources alone w w') (hwork : w.works[n]? = some work) :
    ∃ after, w'.works[n]? = some after ∧ after.task = work.task ∧
      (after.past = work.past ∨ ∃ e, after.past = e :: work.past ∧ Exchanges n w w' e) := by
  have hlt : n < w.works.length := (List.getElem?_eq_some_iff.mp hwork).1
  cases h with
  | begin t ht => exact ⟨work, (World.getElem?_begin_of_lt hlt).trans hwork, rfl, .inl rfl⟩
  | @advance m w' h =>
    by_cases hne : n = m
    · subst hne
      obtain ⟨q, next, -, ⟨answer, hexchange, hafter⟩ | ⟨-, -, o, -, -, -, hafter⟩⟩ :=
        h.self_cases hwork
      · exact ⟨_, hafter, rfl, .inr ⟨_, rfl, hexchange⟩⟩
      · exact ⟨_, hafter, rfl, .inl rfl⟩
    · exact ⟨work, (h.getElem?_of_ne hne).trans hwork, rfl, .inl rfl⟩
  | whole t ht hrun =>
    refine ⟨work, ?_, rfl, .inl rfl⟩
    rw [getElem?_of_advances (Nat.ne_of_lt hlt) hrun, World.getElem?_begin_of_lt hlt, hwork]

/-- What a task has done stays done, and each exchange that was added took place at some moment. -/
theorem exchanged_since (hrun : Relation.ReflTransGen (Step sources alone) w w')
    (hwork : w.works[n]? = some work) :
    ∃ after, w'.works[n]? = some after ∧ after.task = work.task ∧ work.past <:+ after.past ∧
      ∀ e ∈ after.past, e ∈ work.past ∨ ∃ a b, Relation.ReflTransGen (Step sources alone) w a ∧
        Exchanges n a b e ∧ Relation.ReflTransGen (Step sources alone) b w' := by
  induction hrun with
  | refl => exact ⟨work, hwork, rfl, List.suffix_refl _, fun e he => .inl he⟩
  | @tail w₁ w₂ hbefore hstep ih =>
    obtain ⟨between, hbetween, htask, hsuffix, hsince⟩ := ih
    obtain ⟨after, hafter, htask', hpast⟩ := hstep.work_cases hbetween
    have hkept : ∀ e ∈ between.past, e ∈ work.past ∨ ∃ a b,
        Relation.ReflTransGen (Step sources alone) w a ∧ Exchanges n a b e ∧
          Relation.ReflTransGen (Step sources alone) b w₂ := by
      intro e he
      rcases hsince e he with he | ⟨a, b, ha, hexchange, hb⟩
      · exact .inl he
      · exact .inr ⟨a, b, ha, hexchange, hb.tail hstep⟩
    refine ⟨after, hafter, htask'.trans htask, ?_⟩
    rcases hpast with heq | ⟨last, heq, hexchange⟩
    · rw [heq]
      exact ⟨hsuffix, hkept⟩
    · rw [heq]
      refine ⟨hsuffix.trans (List.suffix_cons _ _), fun e he => ?_⟩
      rcases List.mem_cons.mp he with rfl | he
      · exact .inr ⟨w₁, w₂, hbefore, hexchange, .refl⟩
      · exact hkept e he

/-- What remains of a task is what its program comes to by its history, unless it stopped at a call on
the store. -/
theorem Reachable.reaches (hw : Reachable sources alone w) (hwork : work ∈ w.works) :
    ∃ rest, (work.task.program sources).Reaches work.past rest ∧
      (work.rest = rest ∨ ∃ o, work.rest = .stop o ∧ ∃ call next, rest = .ask (.store call) next) := by
  refine hw.induction (P := fun w => ∀ work ∈ w.works, ∃ rest,
    (work.task.program sources).Reaches work.past rest ∧
      (work.rest = rest ∨ ∃ o, work.rest = .stop o ∧ ∃ call next, rest = .ask (.store call) next))
    ?_ ?_ ?_ work hwork
  · exact fun work hwork => absurd hwork List.not_mem_nil
  · intro w t h work hwork
    rcases List.mem_append.mp hwork with hwork | hwork
    · exact h work hwork
    · rw [List.mem_singleton.mp hwork]
      exact ⟨_, .start, .inl rfl⟩
  · intro w m w' h hadvance work hwork
    obtain ⟨k, hwork⟩ := List.mem_iff_getElem?.mp hwork
    by_cases hne : k = m
    · subst hne
      obtain ⟨before, hbefore, -⟩ := hadvance.exists_before hwork
      obtain ⟨rest, hrest, hcame⟩ := h before (List.mem_of_getElem? hbefore)
      obtain ⟨q, next, hask, hafter⟩ := hadvance.self_cases hbefore
      obtain rfl : before.rest = rest := by
        rcases hcame with heq | ⟨o, hstop, -⟩
        · exact heq
        · cases hstop.symm.trans hask
      rcases hafter with ⟨answer, -, hafter⟩ | ⟨call, -, o, rfl, -, -, hafter⟩
      · cases hwork.symm.trans hafter
        rw [hask] at hrest
        exact ⟨_, .ask hrest answer, .inl rfl⟩
      · cases hwork.symm.trans hafter
        exact ⟨before.rest, hrest, .inr ⟨o, rfl, call, next, hask⟩⟩
    · rw [hadvance.getElem?_of_ne hne] at hwork
      exact h work (List.mem_of_getElem? hwork)

/-- A task has come as far in its action as its own history says, unless it stopped. -/
theorem Reachable.action_reaches (hw : Reachable sources alone w) (hwork : work ∈ w.works) :
    ∃ r, (work.task.action sources).run.Reaches work.past r ∧
      ∀ q next, work.rest = .ask q next → ∃ next', r = .ask q next' ∧
        next = fun answer => (next' answer).bind fun _ => .done () := by
  obtain ⟨rest, hrest, hcame⟩ := hw.reaches hwork
  rw [Task.program_eq_work] at hrest
  obtain ⟨r, hr, rfl⟩ := Program.Reaches.of_bind_done hrest
  refine ⟨r, hr, fun q next hask => ?_⟩
  rcases hcame with heq | ⟨o, hstop, -⟩
  · rw [hask] at heq
    cases r with
    | done a => cases heq
    | stop o => cases heq
    | ask q' next' =>
      obtain ⟨rfl, hnext⟩ := Program.ask.inj heq
      cases hnext
      exact ⟨next', rfl, rfl⟩
  · cases hask.symm.trans hstop

/-- A task that has come to a result asks nothing more. -/
theorem Reachable.not_ask_of_done (hw : Reachable sources alone w) (hwork : work ∈ w.works)
    {t : Task} (ht : work.task = t) {result}
    (hdone : (t.action sources).run.Reaches work.past (.done result)) (q : Request) (next) :
    work.rest ≠ .ask q next := by
  subst ht
  intro hask
  obtain ⟨r, hr, hcame⟩ := hw.action_reaches hwork
  obtain ⟨next', heq, -⟩ := hcame q next hask
  cases (hr.unique hdone).symm.trans heq

/-- Where no task runs alone, what a task has asked is what it had asked before, together with at most
the exchange that it makes just then. -/
theorem Step.past_cases (h : Step sources nobody w w') (hwork : w'.works[n]? = some work) :
    work.past = [] ∨ ∃ before, w.works[n]? = some before ∧ before.task = work.task ∧
      (work.past = before.past ∨ ∃ e, work.past = e :: before.past ∧ Exchanges n w w' e) := by
  by_cases hlt : n < w.works.length
  · obtain ⟨after, hafter, htask, hpast⟩ := h.work_cases (List.getElem?_eq_getElem hlt)
    cases hwork.symm.trans hafter
    exact .inr ⟨_, List.getElem?_eq_getElem hlt, htask.symm, hpast⟩
  · cases h with
    | begin t ht =>
      unfold World.begin at hwork
      rw [List.getElem?_append_right (Nat.le_of_not_lt hlt)] at hwork
      cases List.mem_singleton.mp (List.mem_of_getElem? hwork)
      exact .inl rfl
    | advance hadvance =>
      obtain ⟨before, hbefore, -⟩ := hadvance.exists_before hwork
      exact absurd (List.getElem?_eq_some_iff.mp hbefore).1 hlt
    | whole t ht => exact ht.elim

/-- A task makes an exchange at some moment between two worlds. -/
def Happens (sources : Loading.Sources) (w w' : World) (n : Nat) (e : Exchange) : Prop :=
  ∃ a b, Relation.ReflTransGen (Step sources nobody) w a ∧ Exchanges n a b e ∧
    Relation.ReflTransGen (Step sources nobody) b w'

theorem Happens.tail {w'' : World} (h : Happens sources w w' n e)
    (hstep : Step sources nobody w' w'') : Happens sources w w'' n e := by
  obtain ⟨a, b, ha, hexchange, hb⟩ := h
  exact ⟨a, b, ha, hexchange, hb.tail hstep⟩

/-- Where no task runs alone, what a task has asked it had asked at first or asked at some moment
since. -/
theorem asked_since (hrun : Relation.ReflTransGen (Step sources nobody) w w')
    (hwork : w'.works[n]? = some work) (he : e ∈ work.past) :
    (∃ before, w.works[n]? = some before ∧ before.task = work.task ∧ e ∈ before.past) ∨
      Happens sources w w' n e := by
  induction hrun generalizing work with
  | refl => exact .inl ⟨work, hwork, rfl, he⟩
  | @tail w₁ w₂ hbefore hstep ih =>
    rcases hstep.past_cases hwork with hnil | ⟨between, hbetween, htask, hpast⟩
    · rw [hnil] at he
      exact absurd he List.not_mem_nil
    · have hearlier : e ∈ between.past → (∃ before, w.works[n]? = some before ∧
          before.task = work.task ∧ e ∈ before.past) ∨ Happens sources w w₂ n e := fun he =>
        htask ▸ (ih hbetween he).imp_right (·.tail hstep)
      rcases hpast with heq | ⟨last, heq, hexchange⟩
      · exact hearlier (heq ▸ he)
      · rw [heq] at he
        rcases List.mem_cons.mp he with rfl | he
        · exact .inr ⟨w₁, w₂, hbefore, hexchange, .refl⟩
        · exact hearlier he

/-- What a task has asked, it asked in a world that was reached. -/
theorem Reachable.exchanged (hw : Reachable sources nobody w) (hwork : w.works[n]? = some work)
    (he : e ∈ work.past) : ∃ a b, Reachable sources nobody a ∧ Exchanges n a b e ∧
      Relation.ReflTransGen (Step sources nobody) b w := by
  rcases asked_since hw hwork he with ⟨before, hbefore, -⟩ | hhappens
  · cases hbefore
  · exact hhappens

/-- A task has come to the result of an action. -/
def World.Returned {α : Type} (w : World) (n : Nat) (action : Action α) (result : Except Error α) :
    Prop :=
  ∃ work, w.works[n]? = some work ∧ action.run.Reaches work.past (.done result)

end Recount.Concurrent
