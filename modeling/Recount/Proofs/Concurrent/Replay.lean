import Recount.Proofs.Concurrent.Alone

/-!
# Replays

A course of events can be written down move by move and played. Every world that is
played is one that can be reached, so that single courses can be computed.
-/

namespace Recount.Concurrent

/-- What happens next: a task begins, or one goes on, for which a supply and the answers of
planning systems are at hand. -/
inductive Move where
  | begin (t : Task)
  | go (n : Nat) (supply : Supply) (erp : (call : ErpCall) → Except ErpFault call.Result)

/-- What is at hand when a task goes on. -/
structure Aid where
  supply : Supply
  erp : (call : ErpCall) → Except ErpFault call.Result

/-- A list that is in its order already, as it is sorted. -/
def inOrder? {α : Type} (le : α → α → Bool) (l : List α) : Option (List α) :=
  if l.Pairwise (le · · = true) then some l else none

/-- The answer of a store to a call, provided that what is listed is in its order already. Unlike a
list that has to be sorted, it can be computed in a proof. -/
def answerInOrder? (s : Store) (supply : Supply) :
    (call : StoreCall) → Option (Except Overflow (Except Error call.Result) × Store)
  | .counts (.listItems count version) =>
    (inOrder? Item.precedes (s.itemsOf count version)).map fun items => (.ok (.ok items), s)
  | .counts (.listReports count version) =>
    (inOrder? s.reportPrecedes (s.reportsOf count version)).map fun reports => (.ok (.ok reports), s)
  | call => some (s.step supply call)

theorem inOrder?_eq_some {α : Type} {le : α → α → Bool} {l sorted : List α}
    (h : inOrder? le l = some sorted) : l.mergeSort le = sorted := by
  unfold inOrder? at h
  split at h
  · next hpairwise =>
    cases h
    exact List.mergeSort_of_pairwise hpairwise
  · cases h

theorem answerInOrder?_eq_some {s : Store} {supply : Supply} {call : StoreCall} {result}
    (h : answerInOrder? s supply call = some result) : s.step supply call = result := by
  unfold answerInOrder? at h
  split at h
  · obtain ⟨items, hitems, rfl⟩ := Option.map_eq_some_iff.mp h
    rw [← inOrder?_eq_some hitems]
    rfl
  · obtain ⟨reports, hreports, rfl⟩ := Option.map_eq_some_iff.mp h
    rw [← inOrder?_eq_some hreports]
    rfl
  · exact Option.some.inj h

namespace World

/-- The world after a request is answered by what is at hand, unless an identifier that is needed
was drawn before. -/
def answer? (w : World) (n : Nat) (work : Work) (supply : Supply)
    (erp : (call : ErpCall) → Except ErpFault call.Result) :
    (q : Request) → (q.Answer → Program Request Request.Answer Unit) → Option World
  | .store call, next =>
    if Fresh w.drawn supply w.store.demand then
      match answerInOrder? w.store supply call with
      | some (.ok answer, s) => some (w.answered n work ⟨.store call, answer⟩ (next answer) s
          (supply.ids w.store.demand ++ w.drawn))
      | some (.error overflow, _) =>
        some { w with works := w.works.set n { work with rest := .stop overflow } }
      | none => none
    else none
  | .erp connection call, next =>
    some (w.answered n work ⟨.erp connection call, erp call⟩ (next (erp call)) w.store w.drawn)
  | .freshId, next =>
    if supply.id 0 ∈ w.drawn then none
    else some (w.answered n work ⟨.freshId, supply.id 0⟩ (next (supply.id 0)) w.store
      (supply.id 0 :: w.drawn))
  | .now, next =>
    some (w.answered n work ⟨.now, supply.time 0⟩ (next (supply.time 0)) w.store w.drawn)

/-- The world after a move, if it can be made. -/
def move? (sources : Loading.Sources) (w : World) : Move → Option World
  | .begin t => some (w.begin sources t)
  | .go n supply erp =>
    match w.works[n]? with
    | some work =>
      match work.rest with
      | .ask q next => w.answer? n work supply erp q next
      | _ => none
    | none => none

/-- The world after some moves, if they can be made. -/
def play? (sources : Loading.Sources) (w : World) (moves : List Move) : Option World :=
  moves.foldlM (move? sources) w

variable {sources : Loading.Sources} {alone : Task → Prop} {w w' : World}

theorem answer?_advance {n : Nat} {work : Work} {supply : Supply}
    {erp : (call : ErpCall) → Except ErpFault call.Result} {q : Request}
    {next : q.Answer → Program Request Request.Answer Unit} (hwork : w.works[n]? = some work)
    (hrest : work.rest = .ask q next) (h : w.answer? n work supply erp q next = some w') :
    Advance n w w' := by
  cases q with
  | store call =>
    simp only [answer?] at h
    split at h
    · next hfresh =>
      split at h
      · next answer s' hstep =>
        cases h
        exact .answered hwork hrest (.store supply hfresh (answerInOrder?_eq_some hstep))
      · next overflow s' hstep =>
        cases h
        exact .stopped hwork hrest supply hfresh (answerInOrder?_eq_some hstep)
      · cases h
    · cases h
  | erp connection call =>
    cases h
    exact .answered hwork hrest (.erp (erp call))
  | freshId =>
    simp only [answer?] at h
    split at h
    · cases h
    · next hfresh =>
      cases h
      exact .answered hwork hrest (.freshId hfresh)
  | now =>
    cases h
    exact .answered hwork hrest (.now (supply.time 0))

theorem move?_advance {n : Nat} {supply : Supply} {erp : (call : ErpCall) → Except ErpFault call.Result}
    (h : w.move? sources (.go n supply erp) = some w') : Advance n w w' := by
  simp only [move?] at h
  split at h
  · next work hwork =>
    split at h
    · next q next hrest => exact answer?_advance hwork hrest h
    · cases h
  · cases h

theorem move?_step {m : Move} (hm : ∀ t, m = .begin t → ¬ alone t)
    (h : w.move? sources m = some w') : Step sources alone w w' := by
  cases m with
  | begin t =>
    cases h
    exact .begin t (hm t rfl)
  | go n supply erp => exact .advance (move?_advance h)

/-- What is played can happen, if no task begins that runs alone. -/
theorem play?_steps {moves : List Move} (hmoves : ∀ t, Move.begin t ∈ moves → ¬ alone t)
    (h : w.play? sources moves = some w') : Relation.ReflTransGen (Step sources alone) w w' := by
  induction moves generalizing w with
  | nil =>
    cases h
    exact .refl
  | cons m moves ih =>
    obtain ⟨w₁, hm, h⟩ := Option.bind_eq_some_iff.mp h
    have hstep : Step sources alone w w₁ :=
      move?_step (fun t ht => hmoves t (ht ▸ List.mem_cons_self)) hm
    exact .head hstep (ih (fun t ht => hmoves t (List.mem_cons_of_mem m ht)) h)

/-- The world after a task that runs alone, with what it asked, if this brings it to its end. -/
def alone? (sources : Loading.Sources) (w : World) (t : Task) (aids : List Aid) :
    Option (World × List Exchange) :=
  ((w.begin sources t).play? sources
    (aids.map fun aid => .go w.works.length aid.supply aid.erp)).bind fun w' =>
      (w'.works[w.works.length]?).bind fun work =>
        match work.rest with
        | .ask _ _ => none
        | _ => some (w', work.past)

theorem play?_advances {n : Nat} {aids : List Aid}
    (h : w.play? sources (aids.map fun aid => .go n aid.supply aid.erp) = some w') :
    Relation.ReflTransGen (Advance n) w w' := by
  induction aids generalizing w with
  | nil =>
    cases h
    exact .refl
  | cons aid aids ih =>
    obtain ⟨w₁, hmove, h⟩ := Option.bind_eq_some_iff.mp h
    exact .head (move?_advance hmove) (ih h)

theorem alone?_runsAlone {t : Task} {aids : List Aid} {past : List Exchange}
    (h : w.alone? sources t aids = some (w', past)) : RunsAlone sources w t past w' := by
  obtain ⟨w₁, hplay, h⟩ := Option.bind_eq_some_iff.mp h
  obtain ⟨work, hwork, h⟩ := Option.bind_eq_some_iff.mp h
  split at h
  · cases h
  · next hrest =>
    cases h
    refine ⟨play?_advances hplay, fun other hother q next => ?_, work, hwork, rfl⟩
    cases hwork.symm.trans hother
    exact hrest q next

end World

/-- The world that some moves lead to from the first one, which is also there if they cannot be
made. -/
def played (sources : Loading.Sources) (moves : List Move) : World :=
  (World.play? sources {} moves).getD {}

theorem played_reachable {sources : Loading.Sources} {alone : Task → Prop} {moves : List Move}
    (hmoves : ∀ t, Move.begin t ∈ moves → ¬ alone t) :
    Reachable sources alone (played sources moves) := by
  unfold played
  cases h : World.play? sources {} moves with
  | none => exact .refl
  | some w => exact World.play?_steps hmoves h

/-- Nothing to load from. -/
def noSources : Loading.Sources := ⟨[], {}⟩

/-- A supply whose identifiers and times are numbered from a round on. -/
def roundSupply (round : Nat) : Supply where
  id k := .ofNat (1000 * round + k)
  time k := ⟨round, k⟩

/-- A planning system that does all that it is asked, and has nothing to say. -/
def calm : (call : ErpCall) → Except ErpFault call.Result
  | .connect | .disconnect => .ok ()
  | .test => .ok true
  | .query _ => .ok []

/-- A planning system that fails. -/
def stormy : (call : ErpCall) → Except ErpFault call.Result := fun _ => .error .notOpen

/-- A task goes on in a round, in which no planning system has anything to say. -/
def goIn (round n : Nat) : Move := .go n (roundSupply round) calm

/-- A task goes on for some rounds. -/
def goOn (first n rounds : Nat) : List Move := (List.range rounds).map fun k => goIn (first + k) n

theorem ten_le_coeffBound : 10 ≤ Decimal.coeffBound := by decide

/-- A whole quantity of one digit, the last one of a number. -/
def oneDigit (n : Nat) : Decimal :=
  ⟨false, n % 10, 0, Nat.lt_of_lt_of_le (n.mod_lt (Nat.succ_pos 9)) ten_le_coeffBound,
    Nat.zero_le _⟩

/-- A count of a warehouse is created. -/
def newCount : Task := .createCount (.ofNat 1) ⟨.ofNat 2, none, none⟩ (.ofNat 3)

/-- An item of which none is known is added to the first count. -/
def newItem (code : String) (counted : Option Decimal) : Task :=
  .addItem (.ofNat 1) (.ofNat 1000) ⟨.ofNat 5, code, code, none, none, .zero, counted⟩ (.ofNat 3)

/-- A quantity of an item of the first count is recorded. -/
def newQuantity (item n : Nat) : Task :=
  .updateItem (.ofNat 1) (.ofNat 1000) (.ofNat item) ⟨oneDigit n⟩ (.ofNat 3)

end Recount.Concurrent
