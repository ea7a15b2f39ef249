import Recount.Proofs.Concurrent.Alone
import Recount.Proofs.Tenant.Orderly

/-!
# Performing the tasks of a tenant

A task is performed from its begin to its end in given surroundings: what is drawn for each request
and what planning systems answer. In two stores that hold the same of a tenant its tasks go on
request by request alike.
-/

namespace Recount.Concurrent

open Recount.Store

variable {α : Type} {tenant id : Id} {s s' : Store} {drawn drawn' : List Id} {k : Nat} {q : Request}

/-- What is at hand for the requests of a task, one after the other. -/
structure Surroundings where
  draw : Nat → Draw
  erp : Nat → (connection : Id) → (call : ErpCall) → Except ErpFault call.Result

/-- As many identifiers as may be drawn for a request. -/
def demand (s : Store) : Request → Nat
  | .store _ => s.demand
  | .freshId => 1
  | _ => 0

namespace Surroundings

variable {around : Surroundings}

/-- What is drawn for a request. -/
def supply (around : Surroundings) (s : Store) (k : Nat) : Request → Supply
  | .store call => (around.draw k).supply (s.toSettle call)
  | _ => (around.draw k).supply []

/-- The answer to a request, and the store afterwards. -/
def answer (around : Surroundings) (s : Store) (k : Nat) :
    (q : Request) → Except Overflow q.Answer × Store
  | .store call => s.step (around.supply s k (.store call)) call
  | .erp connection call => (.ok (around.erp k connection call), s)
  | .freshId => (.ok ((around.supply s k .freshId).id 0), s)
  | .now => (.ok ((around.supply s k .now).time 0), s)

/-- Answers the requests of a program one after the other. -/
def handle (around : Surroundings) (q : Request) (σ : Store × Nat) :
    Except Overflow q.Answer × Store × Nat :=
  let (answer, s) := around.answer σ.1 σ.2 q
  (answer, s, σ.2 + 1)

/-- What an action comes to when it is performed, and the store afterwards. -/
def perform (around : Surroundings) (x : Action α) (s : Store) :
    Except Overflow (Except Error α) × Store :=
  let (result, σ) := x.run.run around.handle (s, 0)
  (result, σ.1)

/-- All identifiers that a program is given are drawn for the first time. -/
def FreshFor (around : Surroundings) :
    Program Request Request.Answer α → Store → List Id → Nat → Prop
  | .done _, _, _, _ => True
  | .stop _, _, _, _ => True
  | .ask q next, s, drawn, k =>
    Fresh drawn (around.supply s k q) (demand s q) ∧
      match around.answer s k q with
      | (.ok answer, s') => around.FreshFor (next answer) s'
          ((around.supply s k q).ids (demand s q) ++ drawn) (k + 1)
      | (.error _, _) => True

theorem freshFor_ask {next : q.Answer → Program Request Request.Answer α} :
    around.FreshFor (.ask q next) s drawn k ↔
      Fresh drawn (around.supply s k q) (demand s q) ∧
        match around.answer s k q with
        | (.ok answer, s') => around.FreshFor (next answer) s'
            ((around.supply s k q).ids (demand s q) ++ drawn) (k + 1)
        | (.error _, _) => True := by
  rw [FreshFor]

/-- Whether all identifiers are drawn for the first time can be computed. -/
instance decidableFreshFor (around : Surroundings) :
    (p : Program Request Request.Answer α) → (s : Store) → (drawn : List Id) → (k : Nat) →
      Decidable (around.FreshFor p s drawn k)
  | .done _, _, _, _ => .isTrue trivial
  | .stop _, _, _, _ => .isTrue trivial
  | .ask q next, s, drawn, k =>
    have : Decidable (match around.answer s k q with
        | (.ok answer, s') => around.FreshFor (next answer) s'
            ((around.supply s k q).ids (demand s q) ++ drawn) (k + 1)
        | (.error _, _) => True) :=
      match around.answer s k q with
      | (.ok answer, s') => decidableFreshFor around (next answer) s' _ (k + 1)
      | (.error _, _) => .isTrue trivial
    decidable_of_iff _ freshFor_ask.symm

theorem run_ask {next : q.Answer → Program Request Request.Answer α} :
    (Program.ask q next).run around.handle (s, k) =
      match around.answer s k q with
      | (.ok answer, s') => (next answer).run around.handle (s', k + 1)
      | (.error o, s') => (.error o, s', k + 1) := by
  rw [Program.run, handle]
  rcases around.answer s k q with ⟨o | answer, s'⟩ <;> rfl

/-- What is at hand is one of the answers that may come. -/
theorem answers_of_answer (hfresh : Fresh drawn (around.supply s k q) (demand s q)) {answer : q.Answer}
    (h : around.answer s k q = (.ok answer, s')) :
    Answers s drawn q answer s' ((around.supply s k q).ids (demand s q) ++ drawn) := by
  cases q with
  | store call => exact .store _ hfresh h
  | erp connection call =>
    cases h
    exact .erp _
  | freshId =>
    cases h
    exact .freshId (hfresh.2 _ List.mem_cons_self)
  | now =>
    cases h
    exact .now _

/-- A program that is given fresh identifiers takes one of the runs that it may take alone. -/
theorem exists_runs_of_freshFor {p : Program Request Request.Answer α}
    (h : around.FreshFor p s drawn k) (past : List Exchange) :
    ∃ σ, Runs p ⟨s, drawn, past⟩ (p.run around.handle (s, k)).1 σ ∧
      σ.store = (p.run around.handle (s, k)).2.1 := by
  induction p generalizing s drawn k past with
  | done a => exact ⟨_, .done, rfl⟩
  | stop o => exact ⟨_, .stop, rfl⟩
  | ask q next ih =>
    obtain ⟨hfresh, hrest⟩ := freshFor_ask.mp h
    rw [run_ask]
    rcases hanswer : around.answer s k q with ⟨o | answer, s'⟩
    · cases q with
      | store call =>
        refine ⟨⟨s, drawn, past⟩, .overflowed ⟨_, call, s', hfresh, rfl, hanswer⟩, ?_⟩
        rcases Store.step_cases hanswer with ⟨result, heq, -⟩ | ⟨hsame, -⟩
        · cases heq
        · exact hsame.symm
      | _ => cases hanswer
    · rw [hanswer] at hrest
      obtain ⟨σ, hruns, hstore⟩ := ih answer hrest (⟨q, answer⟩ :: past)
      exact ⟨σ, .answered (answers_of_answer hfresh hanswer) hruns, hstore⟩

/-- An action that is performed runs alone. -/
theorem exists_runs_perform {x : Action α} (h : around.FreshFor x.run s drawn 0) :
    ∃ σ, x.Runs ⟨s, drawn, []⟩ (.ofResult (around.perform x s).1) σ ∧
      σ.store = (around.perform x s).2 := by
  obtain ⟨σ, hruns, hstore⟩ := exists_runs_of_freshFor h []
  exact ⟨σ, ⟨_, hruns, rfl⟩, hstore⟩

end Surroundings

/-- A task of a tenant is on its way: it has a history and something that remains, all that it was
shown belongs to the tenant, and all that it may name is the tenant. -/
structure Underway (tenant : Id) (w : World) (n : Nat) (past : List Exchange)
    (rest : Program Request Request.Answer Unit) : Prop where
  sound : w.Sound
  orderly : w.Orderly
  work : ∃ task, w.works[n]? = some ⟨task, past, rest⟩
  owned : ∀ count ∈ past.flatMap (shown tenant), w.store.Owns tenant count
  owners : ∀ owner ∈ past.flatMap (owners tenant), owner = tenant

variable {w : World} {n : Nat} {past : List Exchange} {rest : Program Request Request.Answer Unit}

/-- What is drawn for a call is not the identifier of a count yet. -/
theorem World.Sound.count_ne_fresh (h : w.Sound) {supply : Supply}
    (hfresh : Fresh w.drawn supply w.store.demand) : ∀ c ∈ w.store.counts, c.id ≠ supply.id 0 := by
  intro c hc hid
  have hdrawn : c.id ∈ w.drawn := (h.known c.id (count_id_mem_ids hc)).1
  exact hfresh.2 _ (Supply.id_mem_ids (Nat.succ_pos _)) (hid ▸ hdrawn)

/-- Each call of the tenant finds the store ready. -/
theorem Underway.ready {call : StoreCall} {next} (h : Underway tenant w n past (.ask (.store call) next))
    (hcall : Entitled tenant [] past call) {supply : Supply}
    (hfresh : Fresh w.drawn supply w.store.demand) : w.store.Ready tenant supply call := by
  obtain ⟨task, hwork⟩ := h.work
  have hmem : ⟨task, past, _⟩ ∈ w.works := List.mem_of_getElem? hwork
  have hnew : supply.id 0 ∉ w.drawn := hfresh.2 _ (Supply.id_mem_ids (Nat.succ_pos _))
  exact
    { sound := h.sound.store
      registered := h.orderly.registered
      owner := fun owner howner => (hcall.owner owner howner).elim (fun h => h) (h.owners owner)
      owned := fun count hcount =>
        (hcall.count count hcount).elim (fun hnone => absurd hnone List.not_mem_nil) (h.owned count)
      fits := by
        refine ⟨supply.ids w.store.demand ++ recentIds past, h.sound.areNew_supply hfresh, ?_⟩
        rintro c rfl
        exact h.sound.fits_call hmem (h.sound.allowed hwork rfl) supply
      lacks := fun _ _ =>
        ⟨h.sound.count_ne_fresh hfresh, fun a ha hid => hnew (hid ▸ h.orderly.attempts a ha)⟩
      mapping := fun m hm n hn hid =>
        (h.orderly.mappings n hn).2 _ hmem (hid ▸ hcall.fresh m hm) }

/-- A count that is owned stays so, unless counts are deleted. -/
theorem owns_of_answer (hs : s.Sound) {supply : Supply} {call : StoreCall} {result}
    (hanswer : s.answer supply call = .ok (result, s')) (hsteady : IsSteady (.store call))
    (hnew : ∀ c ∈ s.counts, c.id ≠ supply.id 0) (howns : s.Owns tenant id) : s'.Owns tenant id := by
  obtain ⟨c, hc, hid, htenant⟩ := howns
  unfold Owns
  have hafter := Store.answer_counts hanswer
  generalize s'.counts = counts at hafter ⊢
  cases hafter with
  | same => exact ⟨c, hc, hid, htenant⟩
  | created new => exact ⟨c, mem_putBy_of_ne hc (hnew c hc), hid, htenant⟩
  | @changed d _ _ t hd hdid hdtenant =>
    by_cases hsame : c.id = d.id
    · rw [eq_of_id_eq hs.counts_nodup hc hd hsame] at hid htenant
      exact ⟨_, mem_putBy_self, by simpa using hid, by simpa using htenant⟩
    · exact ⟨c, mem_putBy_of_ne hc (by simpa using hsame), hid, htenant⟩
  | deleted => exact hsteady.elim

/-- A task of the tenant begins. -/
theorem Underway.begin {sources : Loading.Sources} (hs : w.Sound) (h : w.Orderly) {t : Task} :
    Underway tenant (w.begin sources t) w.works.length [] (t.program sources) where
  sound := hs.begin
  orderly := h.begin
  work := ⟨t, World.getElem?_begin_length⟩
  owned _ hcount := absurd hcount List.not_mem_nil
  owners _ howner := absurd howner List.not_mem_nil

/-- A mapping that the tenant is shown belongs to it. -/
theorem eq_of_mem_owners {answer : q.Answer} (hanswer : Answers s drawn q answer s' drawn') {owner : Id}
    (howner : owner ∈ owners tenant ⟨q, answer⟩) : owner = tenant := by
  cases hanswer with
  | store supply hfresh hstep =>
    unfold owners at howner
    split at howner
    · next named id m heq =>
      cases heq
      split at howner
      · next htenant =>
        obtain ⟨hanswer, rfl⟩ := Prod.mk.inj hstep
        obtain ⟨-, -, hm⟩ := Store.mapping?_eq_some (Except.ok.inj (Except.ok.inj hanswer))
        rw [List.mem_singleton.mp howner, hm, htenant]
      · exact absurd howner List.not_mem_nil
    · exact absurd howner List.not_mem_nil
  | _ => exact absurd howner List.not_mem_nil

/-- What a task has of the tenant, it has after a steady request, too. -/
theorem Underway.owns_of_answers {next} (h : Underway tenant w n past (.ask q next))
    (hsteady : IsSteady q) {answer : q.Answer} (hanswer : Answers w.store w.drawn q answer s' drawn')
    (howns : w.store.Owns tenant id) : s'.Owns tenant id := by
  rcases hanswer.store_cases with rfl | ⟨call, supply, result, rfl, hfresh, hanswer⟩
  · exact howns
  · exact owns_of_answer h.sound.store hanswer hsteady (h.sound.count_ne_fresh hfresh) howns

/-- A task of the tenant goes on after a steady request. -/
theorem Underway.answered {next} (h : Underway tenant w n past (.ask q next))
    (hask : Steadily tenant [] past q) {answer : q.Answer}
    (hanswer : Answers w.store w.drawn q answer s' drawn') :
    ∃ w', w'.store = s' ∧ w'.drawn = drawn' ∧
      Underway tenant w' n (⟨q, answer⟩ :: past) (next answer) := by
  obtain ⟨task, hwork⟩ := h.work
  have hadvance := Advance.answered hwork rfl hanswer
  have hkept : ∀ {id}, w.store.Owns tenant id → s'.Owns tenant id :=
    h.owns_of_answers hask.2 hanswer
  have hsound := h.sound.advance hadvance
  refine ⟨_, rfl, rfl, hsound, h.orderly.advance h.sound hadvance, ⟨task, ?work⟩,
    fun count hcount => ?owned, fun owner howner => ?owners⟩
  case work => exact List.getElem?_set_self (List.getElem?_eq_some_iff.mp hwork).1
  case owned =>
    rw [List.flatMap_cons, List.mem_append] at hcount
    rcases hcount with hcount | hcount
    · cases hanswer with
      | @store call answer s' supply hfresh hstep =>
        rcases owns_of_shown hsound.store hstep hcount with howns | ⟨hnamed, -⟩
        · exact howns
        · rcases hask.1.count count hnamed with hnone | hshown
          · exact absurd hnone List.not_mem_nil
          · exact hkept (h.owned count hshown)
      | _ => exact absurd hcount List.not_mem_nil
    · exact hkept (h.owned count hcount)
  case owners =>
    rw [List.flatMap_cons, List.mem_append] at howner
    exact howner.elim (eq_of_mem_owners hanswer) (h.owners owner)

theorem eq_of_isSteady {call : StoreCall} (h : IsSteady (.store call)) {a b : call.Result}
    (hab : SameResult call a b) : a = b := by
  unfold SameResult at hab
  split at hab
  · exact h.elim
  · exact h.elim
  · exact h.elim
  · exact hab

section TwoRuns

variable {around : Surroundings} {w₁ w₂ : World} {n₁ n₂ : Nat} {R : α → α → Prop}

/-- In two worlds that hold the same of the tenant, a call of it is answered alike. -/
theorem step_alike {call : StoreCall} {next₁ next₂} (hcall : Entitled tenant [] past call)
    (h₁ : Underway tenant w₁ n₁ past (.ask (.store call) next₁))
    (h₂ : Underway tenant w₂ n₂ past (.ask (.store call) next₂))
    (halike : Alike tenant w₁.store w₂.store)
    (hfresh₁ : Fresh w₁.drawn (around.supply w₁.store k (.store call)) w₁.store.demand)
    (hfresh₂ : Fresh w₂.drawn (around.supply w₂.store k (.store call)) w₂.store.demand) :
    SameOutcome (SameResult call) (around.answer w₁.store k (.store call)).1
        (around.answer w₂.store k (.store call)).1 ∧
      Confined tenant w₁.store (around.answer w₁.store k (.store call)).2 w₂.store
        (around.answer w₂.store k (.store call)).2 :=
  halike.step (h₁.ready hcall hfresh₁) (h₂.ready hcall hfresh₂)

/-- A steady request has one answer in both worlds, or it stops in both at an overflow. -/
theorem answer_alike {next₁ next₂} (hask : Steadily tenant [] past q)
    (h₁ : Underway tenant w₁ n₁ past (.ask q next₁)) (h₂ : Underway tenant w₂ n₂ past (.ask q next₂))
    (halike : Alike tenant w₁.store w₂.store)
    (hfresh₁ : Fresh w₁.drawn (around.supply w₁.store k q) (demand w₁.store q))
    (hfresh₂ : Fresh w₂.drawn (around.supply w₂.store k q) (demand w₂.store q)) :
    ∃ s₁ s₂, Confined tenant w₁.store s₁ w₂.store s₂ ∧
      ((∃ answer, around.answer w₁.store k q = (.ok answer, s₁) ∧
          around.answer w₂.store k q = (.ok answer, s₂)) ∨
        ∃ o₁ o₂, around.answer w₁.store k q = (.error o₁, s₁) ∧
          around.answer w₂.store k q = (.error o₂, s₂)) := by
  cases q with
  | store call =>
    obtain ⟨hsame, hconfined⟩ := step_alike hask.1 h₁ h₂ halike hfresh₁ hfresh₂
    refine ⟨_, _, hconfined, ?_⟩
    generalize around.answer w₁.store k (.store call) = x at hsame ⊢
    generalize around.answer w₂.store k (.store call) = y at hsame ⊢
    obtain ⟨x, s₁⟩ := x
    obtain ⟨y, s₂⟩ := y
    cases hsame with
    | ok hresult =>
      cases eq_of_isSteady hask.2 hresult
      exact .inl ⟨_, rfl, rfl⟩
    | error e => exact .inl ⟨.error e, rfl, rfl⟩
    | overflow o o' => exact .inr ⟨o, o', rfl, rfl⟩
  | _ => exact ⟨_, _, .refl halike, .inl ⟨_, rfl, rfl⟩⟩

/-- A program of the tenant comes to the same in two worlds that hold the same of the tenant, and
writes nothing that belongs to others. -/
theorem Private.run_alike {p : Program Request Request.Answer (Except Error α)}
    (hp : Private tenant R p past) {f : Except Error α → Program Request Request.Answer Unit}
    (h₁ : Underway tenant w₁ n₁ past (p.bind f)) (h₂ : Underway tenant w₂ n₂ past (p.bind f))
    (halike : Alike tenant w₁.store w₂.store)
    (hfresh₁ : around.FreshFor p w₁.store w₁.drawn k) (hfresh₂ : around.FreshFor p w₂.store w₂.drawn k) :
    SameOutcome R (p.run around.handle (w₁.store, k)).1 (p.run around.handle (w₂.store, k)).1 ∧
      Confined tenant w₁.store (p.run around.handle (w₁.store, k)).2.1 w₂.store
        (p.run around.handle (w₂.store, k)).2.1 := by
  induction hp generalizing w₁ w₂ k with
  | done hresult => exact ⟨hresult, .refl halike⟩
  | @stop o => exact ⟨.overflow o o, .refl halike⟩
  | @ask q next past hask _ ih =>
    obtain ⟨hfresh₁, hrest₁⟩ := Surroundings.freshFor_ask.mp hfresh₁
    obtain ⟨hfresh₂, hrest₂⟩ := Surroundings.freshFor_ask.mp hfresh₂
    obtain ⟨s₁, s₂, hconfined, ⟨answer, hanswer₁, hanswer₂⟩ | ⟨o₁, o₂, hanswer₁, hanswer₂⟩⟩ :=
      answer_alike hask h₁ h₂ halike hfresh₁ hfresh₂
    · rw [hanswer₁] at hrest₁
      rw [hanswer₂] at hrest₂
      obtain ⟨w₁', rfl, hdrawn₁, h₁'⟩ :=
        h₁.answered hask (Surroundings.answers_of_answer hfresh₁ hanswer₁)
      obtain ⟨w₂', rfl, hdrawn₂, h₂'⟩ :=
        h₂.answered hask (Surroundings.answers_of_answer hfresh₂ hanswer₂)
      rw [Surroundings.run_ask, Surroundings.run_ask, hanswer₁, hanswer₂]
      obtain ⟨hsame, hlater⟩ :=
        ih answer h₁' h₂' hconfined.alike (hdrawn₁ ▸ hrest₁) (hdrawn₂ ▸ hrest₂)
      exact ⟨hsame, hconfined.trans hlater⟩
    · rw [Surroundings.run_ask, Surroundings.run_ask, hanswer₁, hanswer₂]
      exact ⟨.overflow o₁ o₂, hconfined⟩
  | @last call next past hask hend =>
    obtain ⟨hsame, hconfined⟩ := step_alike hask h₁ h₂ halike
      (Surroundings.freshFor_ask.mp hfresh₁).1 (Surroundings.freshFor_ask.mp hfresh₂).1
    rw [Surroundings.run_ask, Surroundings.run_ask]
    generalize around.answer w₁.store k (.store call) = x at hsame hconfined ⊢
    generalize around.answer w₂.store k (.store call) = y at hsame hconfined ⊢
    obtain ⟨x, s₁⟩ := x
    obtain ⟨y, s₂⟩ := y
    cases x with
    | error o =>
      cases hsame with
      | overflow o o' => exact ⟨.overflow o o', hconfined⟩
    | ok answer₁ =>
      cases y with
      | error o => cases hsame
      | ok answer₂ =>
        obtain ⟨result₁, result₂, hdone₁, hdone₂, hresults⟩ := hend answer₁ answer₂ hsame
        simp only [hdone₁, hdone₂]
        exact ⟨hresults, hconfined⟩

end TwoRuns

end Recount.Concurrent
