import Recount.Counting.Recording
import Recount.Counting.Review
import Recount.Erp.Preview
import Recount.Loading.Import
import Recount.Proofs.Count.Stages
import Recount.WriteBack.Send
import Recount.Proofs.Program.Keeps
import Recount.Proofs.Store.Effects
import Mathlib.Logic.Relation

/-!
# Worlds of tasks

Tasks share one store. Each call on the store is answered as a whole, but between two
calls of one task any other task may make its own, in any order. Planning systems
answer as they like, the clock shows anything, and an identifier is never drawn twice.
-/

/-! ## Tasks

A task is one use of the service: an operation with what it is asked for. Tasks of
many users run at the same time, each as a program of its own.
-/

namespace Recount.Concurrent

open Counting

/-- A use of the service. -/
inductive Task where
  | createCount (tenant : Id) (r : CreateCount) (actor : Id)
  | listCounts (tenant : Id) (status : Option Status)
  | getCount (tenant count : Id)
  | deleteCount (tenant count : Id)
  | changeStage (tenant count : Id) (change : { change // change ∈ stageChanges }) (actor : Id)
  | completeCount (tenant count actor : Id)
  | openRecount (tenant count actor : Id)
  | versionHistory (tenant count : Id)
  | listItems (tenant count : Id) (version : Option Int)
  | addItem (tenant count : Id) (r : AddItem) (actor : Id)
  | updateItem (tenant count item : Id) (r : RecordQuantity) (actor : Id)
  | submit (tenant count : Id) (version : Int) (r : SubmitEntries) (actor : Id)
  | listReports (tenant count : Id) (version : Option Int)
  | resolveReport (tenant count report : Id) (r : ResolveReport) (actor : Id)
  | loadItems (tenant count : Id) (r : Loading.LoadRequest)
  | importItems (tenant count : Id) (content : File.Content) (filename : String)
      (location mapping : Option Id)
  | exportItems (tenant count : Id) (version : Option Int) (mapping : Option Id)
  | send (tenant count : Id) (r : WriteBack.SendRequest) (actor : Id)
  | listAttempts (tenant count : Id)
  | createMapping (tenant : Id) (r : CreateMapping) (actor : Id)
  | listMappings (tenant : Id) (dataset : Option Dataset)
  | getMapping (tenant mapping : Id)
  | updateMapping (tenant mapping : Id) (r : UpdateMapping)
  | setActive (tenant mapping : Id) (active : Bool)
  | testConnection (connection : Id)
  | fetchCatalog (connection : Id)
  | preview (tenant : Id) (r : Erp.PreviewRequest)

/-- The program of an action, without its result. -/
def work {α : Type} (action : Action α) : Program Request Request.Answer Unit :=
  action.run.bind fun _ => .done ()

/-- The program of a task. -/
def Task.program (sources : Loading.Sources) : Task → Program Request Request.Answer Unit
  | createCount tenant r actor => work (Counting.createCount tenant r actor)
  | listCounts tenant status => work (Counting.listCounts tenant status)
  | getCount tenant count => work (Counting.getCount tenant count)
  | deleteCount tenant count => work (Counting.deleteCount tenant count)
  | changeStage tenant count change actor => work (Counting.changeStage tenant count change actor)
  | completeCount tenant count actor => work (Counting.completeCount tenant count actor)
  | openRecount tenant count actor => work (Counting.openRecount tenant count actor)
  | versionHistory tenant count => work (Counting.versionHistory tenant count)
  | listItems tenant count version => work (Counting.listItems tenant count version)
  | addItem tenant count r actor => work (Counting.addItem tenant count r actor)
  | updateItem tenant count item r actor => work (Counting.updateItem tenant count item r actor)
  | submit tenant count version r actor => work (Counting.submit tenant count version r actor)
  | listReports tenant count version => work (Counting.listReports tenant count version)
  | resolveReport tenant count report r actor =>
    work (Counting.resolveReport tenant count report r actor)
  | loadItems tenant count r => work (Loading.loadItems sources tenant count r)
  | importItems tenant count content filename location mapping =>
    work (Loading.importItems tenant count content filename location mapping)
  | exportItems tenant count version mapping =>
    work (Loading.exportItems tenant count version mapping)
  | send tenant count r actor =>
    work (WriteBack.send sources.connections (sources.settings.connection.map (·.id)) tenant count
      r actor)
  | listAttempts tenant count => work (WriteBack.listAttempts tenant count)
  | createMapping tenant r actor => work (Mapping.create sources.connections tenant r actor)
  | listMappings tenant dataset => work (Mapping.list tenant dataset)
  | getMapping tenant mapping => work (Mapping.get tenant mapping)
  | updateMapping tenant mapping r => work (Mapping.update sources.connections tenant mapping r)
  | setActive tenant mapping active => work (Mapping.setActive tenant mapping active)
  | testConnection connection => work (Erp.testConnection sources.connections connection)
  | fetchCatalog connection => work (Erp.fetchCatalog sources.connections connection)
  | preview tenant r => work (Erp.preview sources.connections tenant r)

/-- What a task answers. -/
abbrev Task.Answer : Task → Type
  | createCount .. | getCount .. | changeStage .. | completeCount .. => Count
  | listCounts .. => List Count
  | deleteCount .. => Unit
  | openRecount .. => RecountOutcome
  | versionHistory .. => VersionHistory
  | listItems .. => List Item
  | addItem .. | updateItem .. => Item
  | submit .. => SubmitSummary
  | listReports .. => List Report
  | resolveReport .. => Report
  | loadItems .. => Loading.Summary
  | importItems .. => Loading.ImportSummary
  | exportItems .. => String
  | send .. => WriteBack.SendOutcome
  | listAttempts .. => List Attempt
  | createMapping .. | getMapping .. | updateMapping .. | setActive .. => Mapping
  | listMappings .. => List Mapping
  | testConnection .. => Erp.TestResult
  | fetchCatalog .. => Sql.Catalog
  | preview .. => Erp.Preview

/-- The action of a task. -/
def Task.action (sources : Loading.Sources) : (t : Task) → Action t.Answer
  | createCount tenant r actor => Counting.createCount tenant r actor
  | listCounts tenant status => Counting.listCounts tenant status
  | getCount tenant count => Counting.getCount tenant count
  | deleteCount tenant count => Counting.deleteCount tenant count
  | changeStage tenant count change actor => Counting.changeStage tenant count change actor
  | completeCount tenant count actor => Counting.completeCount tenant count actor
  | openRecount tenant count actor => Counting.openRecount tenant count actor
  | versionHistory tenant count => Counting.versionHistory tenant count
  | listItems tenant count version => Counting.listItems tenant count version
  | addItem tenant count r actor => Counting.addItem tenant count r actor
  | updateItem tenant count item r actor => Counting.updateItem tenant count item r actor
  | submit tenant count version r actor => Counting.submit tenant count version r actor
  | listReports tenant count version => Counting.listReports tenant count version
  | resolveReport tenant count report r actor => Counting.resolveReport tenant count report r actor
  | loadItems tenant count r => Loading.loadItems sources tenant count r
  | importItems tenant count content filename location mapping =>
    Loading.importItems tenant count content filename location mapping
  | exportItems tenant count version mapping => Loading.exportItems tenant count version mapping
  | send tenant count r actor =>
    WriteBack.send sources.connections (sources.settings.connection.map (·.id)) tenant count r actor
  | listAttempts tenant count => WriteBack.listAttempts tenant count
  | createMapping tenant r actor => Mapping.create sources.connections tenant r actor
  | listMappings tenant dataset => Mapping.list tenant dataset
  | getMapping tenant mapping => Mapping.get tenant mapping
  | updateMapping tenant mapping r => Mapping.update sources.connections tenant mapping r
  | setActive tenant mapping active => Mapping.setActive tenant mapping active
  | testConnection connection => Erp.testConnection sources.connections connection
  | fetchCatalog connection => Erp.fetchCatalog sources.connections connection
  | preview tenant r => Erp.preview sources.connections tenant r

theorem Task.program_eq_work (sources : Loading.Sources) (t : Task) :
    t.program sources = work (t.action sources) := by
  cases t <;> rfl

/-- The task resolves a report. -/
def Task.isResolution : Task → Prop
  | resolveReport .. => True
  | _ => False

end Recount.Concurrent

/-! ## Worlds -/

namespace Recount.Concurrent

/-- A request of a task with its answer. -/
abbrev Exchange := Program.Exchange Request Request.Answer

/-- A task on its way. -/
structure Work where
  task : Task
  /-- What it asked so far, the latest first. -/
  past : List Exchange
  rest : Program Request Request.Answer Unit

/-- All that there is at a moment. -/
structure World where
  store : Store := .empty
  /-- The identifiers that were drawn so far. -/
  drawn : List Id := []
  /-- What all tasks asked so far, the latest first. -/
  log : List Exchange := []
  works : List Work := []

/-- The first identifiers of a supply are distinct and none of them was drawn. -/
def Fresh (drawn : List Id) (supply : Supply) (n : Nat) : Prop :=
  (supply.ids n).Nodup ∧ ∀ id ∈ supply.ids n, id ∉ drawn

instance (drawn : List Id) (supply : Supply) (n : Nat) : Decidable (Fresh drawn supply n) :=
  inferInstanceAs (Decidable (_ ∧ _))

/-- How a request may be answered, with the store and the drawn identifiers afterwards. -/
inductive Answers (s : Store) (drawn : List Id) :
    (q : Request) → q.Answer → Store → List Id → Prop
  | store {call answer s'} (supply : Supply) (hfresh : Fresh drawn supply s.demand)
      (hstep : s.step supply call = (.ok answer, s')) :
      Answers s drawn (.store call) answer s' (supply.ids s.demand ++ drawn)
  | erp {connection call} (answer : Except ErpFault call.Result) :
      Answers s drawn (.erp connection call) answer s drawn
  | freshId {id} (hfresh : id ∉ drawn) : Answers s drawn .freshId id s (id :: drawn)
  | now (time : Time) : Answers s drawn .now time s drawn

section Answers

variable {s s' : Store} {drawn drawn' : List Id}

/-- A call that is refused leaves the store as it is. -/
theorem Answers.store_eq_of_refused {call : StoreCall} {e : Error}
    (h : Answers s drawn (.store call) (.error e) s' drawn') : s' = s := by
  cases h with
  | store supply hfresh hstep =>
    rcases Store.step_cases hstep with ⟨result, heq, -⟩ | ⟨hsame, -⟩
    · cases heq
    · exact hsame

/-- An answer leaves the store as it is, unless it is that of a call on it. -/
theorem Answers.store_cases {q : Request} {answer : q.Answer} (h : Answers s drawn q answer s' drawn') :
    s' = s ∨ ∃ call supply result, q = .store call ∧ Fresh drawn supply s.demand ∧
      s.answer supply call = .ok (result, s') := by
  cases h with
  | @store call answer s' supply hfresh hstep =>
    rcases Store.step_cases hstep with ⟨result, -, hanswer⟩ | ⟨hsame, -⟩
    · exact .inr ⟨call, supply, result, rfl, hfresh, hanswer⟩
    · exact .inl hsame
  | _ => exact .inl rfl

/-- A call that succeeds is answered as a whole. -/
theorem Answers.exists_answer {call : StoreCall} {result : call.Result}
    (h : Answers s drawn (.store call) (.ok result) s' drawn') :
    ∃ supply, s.answer supply call = .ok (result, s') := by
  cases h with
  | store supply hfresh hstep =>
    rcases Store.step_cases hstep with ⟨_, heq, hanswer⟩ | ⟨-, hnot⟩
    · cases heq
      exact ⟨supply, hanswer⟩
    · exact absurd rfl (hnot result)

/-- A call with one answer whatever it is supplied with has this answer. -/
theorem Answers.eq_of_step {call : StoreCall} {answer answer' : Except Error call.Result}
    (h : Answers s drawn (.store call) answer s' drawn')
    (hstep : ∀ supply, (s.step supply call).1 = .ok answer') : answer = answer' := by
  cases h with
  | store supply _ hstep' => exact Except.ok.inj ((congrArg Prod.fst hstep').symm.trans (hstep supply))

theorem Answers.get {tenant id : Id} {answer}
    (h : Answers s drawn (.store (.counts (.get tenant id))) answer s' drawn') :
    answer = .ok (s.count? tenant id) := h.eq_of_step fun _ => rfl

theorem Answers.listItems {count : Id} {version : Option Int} {answer}
    (h : Answers s drawn (.store (.counts (.listItems count version))) answer s' drawn') :
    answer = .ok (s.listItems count version) := h.eq_of_step fun _ => rfl

end Answers

/-- The world in which a task was answered a request. -/
def World.answered (w : World) (n : Nat) (work : Work) (e : Exchange)
    (rest : Program Request Request.Answer Unit) (s : Store) (drawn : List Id) : World where
  store := s
  drawn := drawn
  log := e :: w.log
  works := w.works.set n ⟨work.task, e :: work.past, rest⟩

/-- One task goes on: its next request is answered, or it stops at an overflow. -/
inductive Advance (n : Nat) (w : World) : World → Prop
  | answered {work : Work} {q next answer s' drawn'} (hwork : w.works[n]? = some work)
      (hrest : work.rest = .ask q next) (hanswer : Answers w.store w.drawn q answer s' drawn') :
      Advance n w (w.answered n work ⟨q, answer⟩ (next answer) s' drawn')
  | stopped {work : Work} {call next overflow s'} (hwork : w.works[n]? = some work)
      (hrest : work.rest = .ask (.store call) next) (supply : Supply)
      (hfresh : Fresh w.drawn supply w.store.demand)
      (hstep : w.store.step supply call = (.error overflow, s')) :
      Advance n w { w with works := w.works.set n { work with rest := .stop overflow } }

/-- A task begins. -/
def World.begin (sources : Loading.Sources) (w : World) (t : Task) : World :=
  { w with works := w.works ++ [⟨t, [], t.program sources⟩] }

theorem World.getElem?_begin_length {sources : Loading.Sources} {w : World} {t : Task} :
    (w.begin sources t).works[w.works.length]? = some ⟨t, [], t.program sources⟩ :=
  List.getElem?_concat_length

/-- A task has nothing more to ask. -/
def World.isOver (w : World) (n : Nat) : Prop :=
  ∀ work, w.works[n]? = some work → ∀ q next, work.rest ≠ .ask q next

/-- What may happen. A task of the kind that runs alone is not interrupted from its begin to its
end. -/
inductive Step (sources : Loading.Sources) (alone : Task → Prop) (w : World) : World → Prop
  | begin (t : Task) (ht : ¬ alone t) : Step sources alone w (w.begin sources t)
  | advance {n w'} (h : Advance n w w') : Step sources alone w w'
  | whole {w'} (t : Task) (ht : alone t)
      (hrun : Relation.ReflTransGen (Advance w.works.length) (w.begin sources t) w')
      (hover : w'.isOver w.works.length) : Step sources alone w w'

/-- The worlds that are reached from the one with an empty store and no tasks, where tasks of one
kind run alone and all others run at the same time in any number. -/
def Reachable (sources : Loading.Sources) (alone : Task → Prop) : World → Prop :=
  Relation.ReflTransGen (Step sources alone) {}

/-- No task runs alone. -/
def nobody : Task → Prop := fun _ => False

section Induction

variable {sources : Loading.Sources} {alone : Task → Prop} {w w' : World} {n : Nat}

/-- What holds at first, and is kept by the begin of a task and by every request that is answered,
holds in every world that is reached, whatever runs alone. -/
theorem Reachable.induction {P : World → Prop} (hw : Reachable sources alone w) (hempty : P {})
    (hbegin : ∀ w t, P w → P (w.begin sources t))
    (hadvance : ∀ w n w', P w → Advance n w w' → P w') : P w := by
  induction hw with
  | refl => exact hempty
  | tail _ hstep ih =>
    cases hstep with
    | begin t _ => exact hbegin _ t ih
    | advance h => exact hadvance _ _ _ ih h
    | whole t _ hrun _ =>
      clear * - hrun ih hbegin hadvance
      induction hrun with
      | refl => exact hbegin _ t ih
      | tail _ h ih' => exact hadvance _ _ _ ih' h

/-- When a task goes on, the store stays as it is or one call on it is answered. -/
theorem Advance.store_cases (h : Advance n w w') :
    w'.store = w.store ∨ ∃ supply call result, Fresh w.drawn supply w.store.demand ∧
      w.store.answer supply call = .ok (result, w'.store) := by
  cases h with
  | answered hwork hrest hanswer =>
    rcases hanswer.store_cases with hsame | ⟨call, supply, result, -, hfresh, hanswer⟩
    · exact .inl hsame
    · exact .inr ⟨supply, call, result, hfresh, hanswer⟩
  | stopped => exact .inl rfl

/-- The log grows by one exchange at a time. -/
theorem Advance.log_cases (h : Advance n w w') : w'.log = w.log ∨ ∃ e, w'.log = e :: w.log := by
  cases h with
  | answered => exact .inr ⟨_, rfl⟩
  | stopped => exact .inl rfl

/-- What was drawn stays drawn. -/
theorem Advance.drawn_subset (h : Advance n w w') : ∀ id ∈ w.drawn, id ∈ w'.drawn := by
  intro id hid
  cases h with
  | answered hwork hrest hanswer =>
    cases hanswer with
    | store => exact List.mem_append_right _ hid
    | freshId => exact List.mem_cons_of_mem _ hid
    | _ => exact hid
  | stopped => exact hid

/-- When a task goes on, the others stay as they are. -/
theorem Advance.getElem?_of_ne (h : Advance n w w') {m : Nat} (hne : m ≠ n) :
    w'.works[m]? = w.works[m]? := by
  cases h with
  | answered => exact List.getElem?_set_ne hne.symm
  | stopped => exact List.getElem?_set_ne hne.symm

/-- No task becomes another one. -/
theorem Advance.exists_before (h : Advance n w w') {m : Nat} {work : Work}
    (hwork : w'.works[m]? = some work) :
    ∃ before, w.works[m]? = some before ∧ before.task = work.task := by
  by_cases hne : m = n
  · subst hne
    cases h with
    | @answered before q next answer s' drawn' hbefore =>
      obtain ⟨hlt, heq⟩ := List.getElem?_eq_some_iff.mp hwork
      refine ⟨before, hbefore, ?_⟩
      rw [← heq]
      simp [World.answered]
    | @stopped before call next overflow s' hbefore =>
      obtain ⟨hlt, heq⟩ := List.getElem?_eq_some_iff.mp hwork
      refine ⟨before, hbefore, ?_⟩
      rw [← heq]
      simp
  · rw [h.getElem?_of_ne hne] at hwork
    exact ⟨work, hwork, rfl⟩

end Induction
end Recount.Concurrent
