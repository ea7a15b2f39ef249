import Recount.Proofs.Concurrent.History
import Recount.Proofs.Concurrent.Replay
import Recount.Proofs.Concurrent.Sound

/-!
# Moments

The worlds that follow one another can be numbered, so that it can be said which of two
exchanges came first. What a task has asked, it asked at some moment before.
-/

namespace Recount.Concurrent

/-- Worlds that follow one another, up to the last one. -/
structure Unfolds (sources : Loading.Sources) (alone : Task → Prop) (last : Nat)
    (world : Nat → World) : Prop where
  start : Reachable sources alone (world 0)
  step : ∀ t < last, Step sources alone (world t) (world (t + 1))

/-- A task has something to ask. -/
def Work.Asks (work : Work) : Prop := ∃ q next, work.rest = .ask q next

variable {sources : Loading.Sources} {alone : Task → Prop} {last t n : Nat} {world : Nat → World}
  {w w' : World} {work : Work} {e : Exchange}

section Exchanges

/-- What is added to the log is the exchange that was made. -/
theorem Advance.exchanges (h : Advance n w w') (hlog : w'.log = e :: w.log) :
    Exchanges n w w' e := by
  cases h with
  | answered hwork hrest hanswer =>
    cases (List.cons.inj hlog).1
    exact ⟨.answered hwork hrest hanswer, rfl, hanswer⟩
  | stopped => exact absurd hlog.symm (List.cons_ne_self e w.log)

/-- The task that makes an exchange was about to ask its request, and goes on with the answer. -/
theorem Exchanges.exists_works (h : Exchanges n w w' e) :
    ∃ work next, w.works[n]? = some work ∧ work.rest = .ask e.request next ∧
      w'.works[n]? = some ⟨work.task, e :: work.past, next e.answer⟩ := by
  obtain ⟨hadvance, hlog, -⟩ := h
  cases hadvance with
  | answered hwork hrest hanswer =>
    cases (List.cons.inj hlog).1
    exact ⟨_, _, hwork, hrest, List.getElem?_set_self (List.getElem?_eq_some_iff.mp hwork).1⟩
  | stopped => exact absurd hlog.symm (List.cons_ne_self e w.log)

theorem Exchanges.exists_work (h : Exchanges n w w' e) :
    ∃ work next, w.works[n]? = some work ∧ work.rest = .ask e.request next := by
  obtain ⟨work, next, hwork, hrest, -⟩ := h.exists_works
  exact ⟨work, next, hwork, hrest⟩

/-- There is one exchange at a time. -/
theorem Exchanges.unique {m : Nat} {e' : Exchange} (h : Exchanges n w w' e)
    (h' : Exchanges m w w' e') : e = e' :=
  (List.cons.inj (h.log.symm.trans h'.log)).1

/-- One task at a time makes an exchange. -/
theorem Exchanges.task_unique {m : Nat} {e' : Exchange} (h : Exchanges n w w' e)
    (h' : Exchanges m w w' e') : n = m := by
  by_contra hne
  obtain ⟨work, next, hwork, -, hafter⟩ := h.exists_works
  rw [h'.advance.getElem?_of_ne hne, hwork] at hafter
  exact List.cons_ne_self _ _ (congrArg Work.past (Option.some.inj hafter)).symm

theorem Exchanges.makes {call : CountCall} {result : call.Result} (hw : w.Sound)
    (h : Exchanges n w w' ⟨.store (.counts call), .ok result⟩) :
    ∃ new supply, Makes n w w' call result new supply := by
  rcases hw.advance_cases h.advance with ⟨call', result', new, supply, hmakes⟩ | hrests
  · cases (List.cons.inj (h.log.symm.trans hmakes.log)).1
    exact ⟨new, supply, hmakes⟩
  · exact (hrests.ne_of_log h.log call result rfl).elim

end Exchanges

/-- A task that has something to ask has just begun, or it had something to ask before and has asked
nothing more since then but in an exchange that it makes just then. -/
theorem Step.asks_cases (h : Step sources alone w w') (hwork : w'.works[n]? = some work)
    (hasks : work.Asks) :
    work.past = [] ∨ ∃ before, w.works[n]? = some before ∧ before.Asks ∧
      (work.past = before.past ∨ ∃ e, work.past = e :: before.past ∧ Exchanges n w w' e) := by
  cases h with
  | begin t ht =>
    rcases getElem?_begin hwork with hwork | ⟨-, rfl⟩
    · exact .inr ⟨work, hwork, hasks, .inl rfl⟩
    · exact .inl rfl
  | @advance m w' hadvance =>
    by_cases hne : n = m
    · subst hne
      obtain ⟨before, hbefore, -⟩ := hadvance.exists_before hwork
      obtain ⟨q, next, hrest, ⟨answer, hexchange, hafter⟩ | ⟨-, -, o, -, -, -, hafter⟩⟩ :=
        hadvance.self_cases hbefore
      · cases hwork.symm.trans hafter
        exact .inr ⟨before, hbefore, ⟨q, next, hrest⟩, .inr ⟨_, rfl, hexchange⟩⟩
      · cases hwork.symm.trans hafter
        obtain ⟨q, next, hstop⟩ := hasks
        cases hstop
    · exact .inr ⟨work, (hadvance.getElem?_of_ne hne).symm.trans hwork, hasks, .inl rfl⟩
  | whole t ht hrun hover =>
    by_cases hne : n = w.works.length
    · obtain ⟨q, next, hrest⟩ := hasks
      exact absurd hrest (hover work (hne ▸ hwork) q next)
    · rw [getElem?_of_advances hne hrun] at hwork
      rcases getElem?_begin hwork with hwork | ⟨heq, -⟩
      · exact .inr ⟨work, hwork, hasks, .inl rfl⟩
      · exact absurd heq hne

theorem Unfolds.reachable (h : Unfolds sources alone last world) (ht : t ≤ last) :
    Reachable sources alone (world t) := by
  induction t with
  | zero => exact h.start
  | succ t ih => exact (ih (Nat.le_of_succ_le ht)).tail (h.step t ht)

/-- Each world leads to the ones after it. -/
theorem Unfolds.later (h : Unfolds sources alone last world) {s : Nat} (hst : s ≤ t) (ht : t ≤ last) :
    Relation.ReflTransGen (Step sources alone) (world s) (world t) := by
  induction hst with
  | refl => exact .refl
  | @step t hst ih => exact (ih (Nat.le_of_succ_le ht)).tail (h.step t ht)

/-- What a task has asked it had asked at first or asked at some moment since, if at every step it has
just begun, or has asked no more than one thing. The condition says which tasks this is known of. -/
theorem exchanged_of_cases {P : Work → Prop}
    (hcases : ∀ t < last, ∀ work, (world (t + 1)).works[n]? = some work → P work →
      work.past = [] ∨ ∃ before, (world t).works[n]? = some before ∧ P before ∧
        (work.past = before.past ∨
          ∃ e, work.past = e :: before.past ∧ Exchanges n (world t) (world (t + 1)) e))
    (ht : t ≤ last) (hwork : (world t).works[n]? = some work) (hP : P work) (he : e ∈ work.past) :
    (∃ before, (world 0).works[n]? = some before ∧ e ∈ before.past) ∨
      ∃ r < t, Exchanges n (world r) (world (r + 1)) e := by
  induction t generalizing work with
  | zero => exact .inl ⟨work, hwork, he⟩
  | succ t ih =>
    rcases hcases t ht work hwork hP with hnil | ⟨before, hbefore, hP, hpast⟩
    · rw [hnil] at he
      exact absurd he List.not_mem_nil
    · have hearlier : e ∈ before.past → (∃ before, (world 0).works[n]? = some before ∧
          e ∈ before.past) ∨ ∃ r < t + 1, Exchanges n (world r) (world (r + 1)) e := fun he =>
        (ih (Nat.le_of_succ_le ht) hbefore hP he).imp_right fun ⟨r, hr, hexchange⟩ =>
          ⟨r, Nat.lt_succ_of_lt hr, hexchange⟩
      rcases hpast with heq | ⟨last, heq, hexchange⟩
      · exact hearlier (heq ▸ he)
      · rw [heq] at he
        rcases List.mem_cons.mp he with rfl | he
        · exact .inr ⟨t, Nat.lt_succ_self t, hexchange⟩
        · exact hearlier he

/-- What a task has asked that is not over, it had asked at first or asked at some moment since. -/
theorem Unfolds.exchanged (h : Unfolds sources alone last world) (ht : t ≤ last)
    (hwork : (world t).works[n]? = some work) (hasks : work.Asks) (he : e ∈ work.past) :
    (∃ before, (world 0).works[n]? = some before ∧ e ∈ before.past) ∨
      ∃ r < t, Exchanges n (world r) (world (r + 1)) e :=
  exchanged_of_cases (fun t ht _ hwork hasks => (h.step t ht).asks_cases hwork hasks) ht hwork hasks he

/-- Where no task runs alone, what a task has asked it had asked at first or asked at some moment
since. -/
theorem Unfolds.asked (h : Unfolds sources nobody last world) (ht : t ≤ last)
    (hwork : (world t).works[n]? = some work) (he : e ∈ work.past) :
    (∃ before, (world 0).works[n]? = some before ∧ e ∈ before.past) ∨
      ∃ r < t, Exchanges n (world r) (world (r + 1)) e := by
  refine exchanged_of_cases (P := fun _ => True) (fun t ht work hwork _ => ?_) ht hwork trivial he
  refine ((h.step t ht).past_cases hwork).imp_right ?_
  rintro ⟨before, hbefore, -, hpast⟩
  exact ⟨before, hbefore, trivial, hpast⟩

/-- A task that has come to the result of its action stays as it is. -/
theorem Unfolds.past_of_done (h : Unfolds sources alone last world) {s : Nat} (hst : s ≤ t)
    (ht : t ≤ last) (hwork : (world s).works[n]? = some work) {task : Task}
    (htask : work.task = task) {result}
    (hdone : (task.action sources).run.Reaches work.past (.done result)) :
    ∃ after, (world t).works[n]? = some after ∧ after.task = task ∧ after.past = work.past := by
  induction hst with
  | refl => exact ⟨work, hwork, htask, rfl⟩
  | @step t hst ih =>
    obtain ⟨between, hbetween, htask', hpast⟩ := ih (Nat.le_of_succ_le ht)
    obtain ⟨after, hafter, htask'', hcases⟩ := (h.step t ht).work_cases hbetween
    rcases hcases with heq | ⟨e, -, hexchange⟩
    · exact ⟨after, hafter, htask''.trans htask', heq.trans hpast⟩
    · obtain ⟨asking, next, hasking, hrest⟩ := hexchange.exists_work
      cases hbetween.symm.trans hasking
      rw [← hpast] at hdone
      exact absurd hrest ((h.reachable (Nat.le_of_succ_le ht)).not_ask_of_done
        (List.mem_of_getElem? hbetween) htask' hdone _ _)

/-- A task that has come to the result of its action makes no exchange any more. -/
theorem Unfolds.not_exchanges_of_done (h : Unfolds sources alone last world) {s : Nat} (hst : s ≤ t)
    (ht : t < last) (hwork : (world s).works[n]? = some work) {task : Task}
    (htask : work.task = task) {result}
    (hdone : (task.action sources).run.Reaches work.past (.done result)) :
    ¬ Exchanges n (world t) (world (t + 1)) e := by
  intro hexchange
  obtain ⟨after, hafter, htask', hpast⟩ := h.past_of_done hst (Nat.le_of_lt ht) hwork htask hdone
  obtain ⟨asking, next, hasking, hrest⟩ := hexchange.exists_work
  cases hafter.symm.trans hasking
  rw [← hpast] at hdone
  exact absurd hrest ((h.reachable (Nat.le_of_lt ht)).not_ask_of_done
    (List.mem_of_getElem? hafter) htask' hdone _ _)

section Played

/-- The worlds that moves lead through, if they can be made. -/
def World.worlds? (sources : Loading.Sources) (w : World) : List Move → Option (List World)
  | [] => some [w]
  | m :: moves => (w.move? sources m).bind fun w' => (w'.worlds? sources moves).map (w :: ·)

/-- The world at a moment of a course that was played. -/
def worldAt (worlds : List World) (t : Nat) : World := worlds.getD t {}

variable {moves : List Move} {worlds : List World}

theorem World.worlds?_cons {m : Move} (h : w.worlds? sources (m :: moves) = some worlds) :
    ∃ w' later, w.move? sources m = some w' ∧ w'.worlds? sources moves = some later ∧
      worlds = w :: later := by
  obtain ⟨w', hmove, h⟩ := Option.bind_eq_some_iff.mp h
  obtain ⟨later, hlater, rfl⟩ := Option.map_eq_some_iff.mp h
  exact ⟨w', later, hmove, hlater, rfl⟩

theorem World.worlds?_zero (h : w.worlds? sources moves = some worlds) : worldAt worlds 0 = w := by
  cases moves with
  | nil =>
    cases h
    rfl
  | cons m moves =>
    obtain ⟨_, _, -, -, rfl⟩ := worlds?_cons h
    rfl

theorem World.worlds?_move (h : w.worlds? sources moves = some worlds) {m : Move}
    (hm : moves[t]? = some m) : (worldAt worlds t).move? sources m = some (worldAt worlds (t + 1)) := by
  induction moves generalizing w worlds t with
  | nil => cases hm
  | cons first moves ih =>
    obtain ⟨w', later, hmove, hlater, rfl⟩ := worlds?_cons h
    cases t with
    | zero =>
      cases hm
      rw [← worlds?_zero hlater] at hmove
      exact hmove
    | succ t =>
      have hlater := ih hlater (t := t) hm
      exact hlater

/-- What is played unfolds move by move, if no task begins that runs alone. -/
theorem World.worlds?_unfolds (hw : Reachable sources alone w)
    (hmoves : ∀ t, Move.begin t ∈ moves → ¬ alone t) (h : w.worlds? sources moves = some worlds) :
    Unfolds sources alone moves.length (worldAt worlds) where
  start := by
    rw [worlds?_zero h]
    exact hw
  step t ht := by
    have hm : moves[t]? = some moves[t] := List.getElem?_eq_getElem ht
    exact move?_step (fun task heq => hmoves task (heq ▸ List.mem_of_getElem? hm)) (worlds?_move h hm)

theorem World.worlds?_begin (h : w.worlds? sources moves = some worlds) {task : Task}
    (hm : moves[t]? = some (.begin task)) :
    worldAt worlds (t + 1) = (worldAt worlds t).begin sources task :=
  (Option.some.inj (worlds?_move h hm)).symm

/-- A task that begins is the last one. -/
theorem World.worlds?_begun (h : w.worlds? sources moves = some worlds) {task : Task}
    (hm : moves[t]? = some (.begin task)) (hn : (worldAt worlds t).works.length = n) :
    ∃ work, (worldAt worlds (t + 1)).works[n]? = some work ∧ work.task = task := by
  rw [worlds?_begin h hm, ← hn]
  exact ⟨_, List.getElem?_concat_length, rfl⟩

/-- A move by which the log grows is an exchange. -/
theorem World.worlds?_exchanges (h : w.worlds? sources moves = some worlds) {supply : Supply}
    {erp : (call : ErpCall) → Except ErpFault call.Result} (hm : moves[t]? = some (.go n supply erp))
    (hlog : (worldAt worlds (t + 1)).log.length ≠ (worldAt worlds t).log.length) :
    ∃ e, Exchanges n (worldAt worlds t) (worldAt worlds (t + 1)) e ∧
      (worldAt worlds (t + 1)).log.head? = some e := by
  have hadvance := move?_advance (worlds?_move h hm)
  generalize worldAt worlds (t + 1) = w' at hadvance hlog ⊢
  cases hadvance with
  | answered hwork hrest hanswer => exact ⟨_, ⟨.answered hwork hrest hanswer, rfl, hanswer⟩, rfl⟩
  | stopped => exact absurd rfl hlog

/-- What the log says of the last exchange, if it grew at a moment. -/
def lastLogged? {α : Type} (worlds : List World) (t : Nat) (view : Exchange → Option α) : Option α :=
  if (worldAt worlds (t + 1)).log.length = (worldAt worlds t).log.length then none
  else (worldAt worlds (t + 1)).log.head?.bind view

theorem exists_of_lastLogged? {α : Type} {view : Exchange → Option α} {a : α}
    (h : w.worlds? sources moves = some worlds) {supply : Supply}
    {erp : (call : ErpCall) → Except ErpFault call.Result} (hm : moves[t]? = some (.go n supply erp))
    (hlogged : lastLogged? worlds t view = some a) :
    ∃ e, Exchanges n (worldAt worlds t) (worldAt worlds (t + 1)) e ∧ view e = some a := by
  unfold lastLogged? at hlogged
  split at hlogged
  · cases hlogged
  · next hgrown =>
    obtain ⟨e, hexchange, hhead⟩ := World.worlds?_exchanges h hm hgrown
    rw [hhead] at hlogged
    exact ⟨e, hexchange, hlogged⟩

/-- What the log says of the last exchange is said of one that was made just then. -/
theorem World.worlds?_logged {α : Type} {view : Exchange → Option α} {a : α}
    (h : w.worlds? sources moves = some worlds) (ht : t < moves.length)
    (hlogged : lastLogged? worlds t view = some a) :
    ∃ n e, Exchanges n (worldAt worlds t) (worldAt worlds (t + 1)) e ∧ view e = some a := by
  have hm : moves[t]? = some moves[t] := List.getElem?_eq_getElem ht
  generalize moves[t] = m at hm
  cases m with
  | begin task =>
    rw [lastLogged?, worlds?_begin h hm] at hlogged
    cases (if_pos rfl).symm.trans hlogged
  | go n supply erp => exact ⟨n, exists_of_lastLogged? h hm hlogged⟩

/-- An exchange is the last one that the log tells of. -/
theorem lastLogged?_of_exchanges {α : Type} {view : Exchange → Option α}
    (h : Exchanges n (worldAt worlds t) (worldAt worlds (t + 1)) e) :
    lastLogged? worlds t view = view e := by
  have hgrown : (e :: (worldAt worlds t).log).length ≠ (worldAt worlds t).log.length :=
    Nat.succ_ne_self _
  rw [lastLogged?, h.log, if_neg hgrown]
  rfl

end Played

end Recount.Concurrent
