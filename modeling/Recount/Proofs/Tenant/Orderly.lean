import Recount.Proofs.Concurrent.Sound
import Recount.Proofs.Tenant.Entitled

/-!
# Orderly worlds

In an orderly world each task asks for its own tenant alone. So what is recorded of a count or as a
mapping has an identifier that was drawn before, and an identifier that is drawn later has nothing
to it yet.
-/

/-! ## Programs of a tenant

A program of a tenant asks nothing that concerns others. As long as it is answered the same it goes
on the same, and where answers may differ in the order of a list it ends with them. -/

namespace Recount

theorem SameOutcome.refl {α : Type} {R : α → α → Prop} (hR : ∀ a, R a a) (result : Except Error α) :
    SameOutcome R (.ok result) (.ok result) := by
  cases result with
  | ok a => exact .ok (hR a)
  | error e => exact .error e

theorem SameResult.refl {call : StoreCall} (result : call.Result) : SameResult call result result := by
  unfold SameResult
  split <;> first | rfl | exact ⟨.refl _, rfl⟩

namespace Concurrent

open Recount.Action Recount.Counting

variable {tenant count : Id} {α β : Type} {R : α → α → Prop} {h : List Exchange}

/-- A program that asks what a tenant may ask. A count is deleted, and entries are listed whose order
is left open, by the last request at most. -/
inductive Private (tenant : Id) (R : α → α → Prop) :
    Program Request Request.Answer (Except Error α) → List Exchange → Prop
  | done {result h} (hresult : SameOutcome R (.ok result) (.ok result)) :
      Private tenant R (.done result) h
  | stop {o h} : Private tenant R (.stop o) h
  | ask {q next h} (hask : Steadily tenant [] h q)
      (hnext : ∀ answer, Private tenant R (next answer) (⟨q, answer⟩ :: h)) :
      Private tenant R (.ask q next) h
  | last {call next h} (hask : Entitled tenant [] h call)
      (hend : ∀ answer answer', SameOutcome (SameResult call) (.ok answer) (.ok answer') →
        ∃ result result', next answer = .done result ∧ next answer' = .done result' ∧
          SameOutcome R (.ok result) (.ok result')) :
      Private tenant R (.ask (.store call) next) h

/-- What is private concerns the tenant. -/
theorem Private.keeps {p : Program Request Request.Answer (Except Error α)}
    (hp : Private tenant R p h) : p.Keeps (Within tenant []) (fun _ _ => True) h := by
  induction hp with
  | done => trivial
  | stop => trivial
  | ask hask _ ih => exact ⟨hask.1, ih⟩
  | last hask hend =>
    refine ⟨hask, fun answer => ?_⟩
    obtain ⟨result, -, hdone, -⟩ := hend answer answer (.refl SameResult.refl answer)
    rw [hdone]
    trivial

/-- After steady requests, an action goes on as a program of the tenant. -/
theorem private_bind {x : Action β} {f : β → Action α}
    (hx : Keeps (Steadily tenant []) (fun b h => Private tenant R (f b).run h) x h) :
    Private tenant R (x >>= f).run h := by
  change Private tenant R (x.run.bind (ExceptT.bindCont f)) h
  unfold Keeps at hx
  generalize x.run = p at hx ⊢
  induction p generalizing h with
  | done result =>
    cases result with
    | ok b => exact hx b rfl
    | error e => exact .done (.error e)
  | stop o => exact .stop
  | ask q next ih => exact .ask hx.1 fun answer => ih answer (hx.2 answer)

/-- An action that asks steady requests alone has the same result after the same answers. -/
theorem private_of_follows {x : Action α} (hx : Follows (Steadily tenant []) x) :
    Private tenant Eq x.run h := by
  have hkeeps : x.run.Keeps (Steadily tenant []) _ h := hx h
  generalize x.run = p at hkeeps ⊢
  induction p generalizing h with
  | done result => exact .done (.refl (fun _ => rfl) result)
  | stop o => exact .stop
  | ask q next ih => exact .ask hkeeps.1 fun answer => ih answer (hkeeps.2 answer)

/-- An action may end with a call whose answer is its result. -/
theorem private_counts (call : CountCall) (hcall : Entitled tenant [] h (.counts call)) :
    Private tenant (SameResult (.counts call)) (counts call).run h :=
  .last hcall fun answer answer' hsame => ⟨answer, answer', rfl, rfl, hsame⟩

theorem private_mappings (call : MappingCall) (hcall : Entitled tenant [] h (.mappings call)) :
    Private tenant (SameResult (.mappings call)) (mappings call).run h :=
  .last hcall fun answer answer' hsame => ⟨answer, answer', rfl, rfl, hsame⟩

/-- What tasks answer is the same, up to the order of what is listed at one place. -/
def Task.SameAnswer : (t : Task) → t.Answer → t.Answer → Prop
  | listCounts .. => SameUpTo Count.sequence
  | listAttempts .. => SameUpTo Attempt.startedAt
  | listMappings .. => SameUpTo Mapping.updatedAt
  | _ => Eq

theorem deleteCount_private : Private tenant Eq (Counting.deleteCount tenant count).run [] := by
  refine private_bind (steadily_lookups.keeps_getCount.mpr fun seen => ?_)
  exact private_counts (.delete tenant count deletable) (.of_tenant rfl rfl fun _ => nofun)

theorem listAttempts_private :
    Private tenant (SameUpTo Attempt.startedAt) (WriteBack.listAttempts tenant count).run [] := by
  refine private_bind (steadily_lookups.keeps_getCount.mpr fun seen => ?_)
  refine private_counts (.listAttempts count) ?_
  exact
    { owner := fun _ howner => by cases howner
      count := fun _ hcount => .inr (by simp [shown, ← Option.some.inj hcount])
      fresh := fun _ => nofun }

/-- Every task of a tenant is private. -/
theorem Task.action_private (sources : Loading.Sources) {t : Task} (ht : t.IsFor tenant) :
    Private tenant t.SameAnswer (t.action sources).run [] := by
  cases t with
  | createCount => exact ht _ rfl ▸ private_of_follows createCount_steady
  | listCounts tenant status =>
    exact ht _ rfl ▸ private_counts (.list tenant status) (.of_tenant rfl rfl fun _ => nofun)
  | getCount => exact ht _ rfl ▸ private_of_follows steadily_lookups.getCount_follows
  | deleteCount => exact ht _ rfl ▸ deleteCount_private
  | changeStage => exact ht _ rfl ▸ private_of_follows changeStage_steady
  | completeCount => exact ht _ rfl ▸ private_of_follows completeCount_steady
  | openRecount => exact ht _ rfl ▸ private_of_follows openRecount_steady
  | versionHistory => exact ht _ rfl ▸ private_of_follows versionHistory_steady
  | listItems => exact ht _ rfl ▸ private_of_follows listItems_steady
  | addItem => exact ht _ rfl ▸ private_of_follows addItem_steady
  | updateItem => exact ht _ rfl ▸ private_of_follows updateItem_steady
  | submit => exact ht _ rfl ▸ private_of_follows submit_steady
  | listReports => exact ht _ rfl ▸ private_of_follows listReports_steady
  | resolveReport => exact ht _ rfl ▸ private_of_follows resolveReport_steady
  | loadItems => exact ht _ rfl ▸ private_of_follows loadItems_steady
  | importItems => exact ht _ rfl ▸ private_of_follows importItems_steady
  | exportItems => exact ht _ rfl ▸ private_of_follows exportItems_steady
  | send => exact ht _ rfl ▸ private_of_follows send_steady
  | listAttempts => exact ht _ rfl ▸ listAttempts_private
  | createMapping => exact ht _ rfl ▸ private_of_follows createMapping_steady
  | listMappings tenant dataset =>
    exact ht _ rfl ▸ private_mappings (.list tenant dataset) (.of_tenant rfl rfl fun _ => nofun)
  | getMapping => exact ht _ rfl ▸ private_of_follows steadily_lookups.getMapping_follows
  | updateMapping => exact ht _ rfl ▸ private_of_follows updateMapping_steady
  | setActive => exact ht _ rfl ▸ private_of_follows setActive_steady
  | testConnection => exact private_of_follows steadily_aboutStore.testConnection_follows
  | fetchCatalog => exact private_of_follows steadily_aboutStore.fetchCatalog_follows
  | preview => exact ht _ rfl ▸ private_of_follows steadily_lookups.preview_follows

end Concurrent
end Recount

/-! ## Identifiers that were drawn -/

namespace Recount.Concurrent

open Program (Exchange)

section Showing

variable {s s' : Store} {supply : Supply} {tenant id : Id} {call : StoreCall}
  {answer : Except Error call.Result}

/-- What is shown of the tenant is a stored count: one of the tenant, or the one that was named. -/
theorem owns_of_shown (hs : s'.Sound) (hstep : s.step supply call = (.ok answer, s'))
    (hid : id ∈ shown tenant ⟨.store call, answer⟩) :
    s'.Owns tenant id ∨ call.count? = some id ∧ ∃ owner, s'.Owns owner id := by
  have hitem : ∀ {i : Item}, i ∈ s'.items → ∃ owner, s'.Owns owner i.count := by
    intro i hi
    obtain ⟨c, hc, hcid, -⟩ := hs.item_stored i hi
    exact ⟨c.tenant, c, hc, hcid, rfl⟩
  unfold shown at hid
  split at hid
  · next owner count c heq =>
    cases heq
    split at hid
    · next htenant =>
      subst htenant
      obtain ⟨hanswer, rfl⟩ := Prod.mk.inj hstep
      obtain ⟨hc, hcid, hctenant⟩ := Store.count?_eq_some (Except.ok.inj (Except.ok.inj hanswer))
      rcases List.mem_pair.mp hid with rfl | rfl
      · exact .inl ⟨c, hc, hcid, hctenant⟩
      · exact .inl ⟨c, hc, rfl, hctenant⟩
    · exact absurd hid List.not_mem_nil
  · next count item i heq =>
    cases heq
    obtain rfl := List.mem_singleton.mp hid
    obtain ⟨hanswer, rfl⟩ := Prod.mk.inj hstep
    obtain ⟨hi, -, hcount⟩ := Store.item?_eq_some (Except.ok.inj (Except.ok.inj hanswer))
    exact .inr ⟨congrArg some hcount.symm, hitem hi⟩
  · next new i heq =>
    cases heq
    obtain rfl := List.mem_singleton.mp hid
    refine .inr ⟨?_, hitem (Store.step_insertItem hstep)⟩
    rcases Store.step_cases hstep with ⟨result, hresult, hanswer⟩ | ⟨-, hnot⟩
    · cases hresult
      obtain ⟨_, _, _, _, _, _, hsame, -⟩ := Store.insertItem_eq_ok hanswer
      exact congrArg (fun i : Item => some i.count) hsame.symm
    · exact absurd rfl (hnot i)
  · next count report r heq =>
    cases heq
    obtain rfl := List.mem_singleton.mp hid
    obtain ⟨hr, hcount⟩ := Store.step_getReport hstep
    refine .inr ⟨congrArg some hcount.symm, ?_⟩
    obtain ⟨i, hi, hsubject⟩ := hs.report_stored r hr
    have hicount : i.count = r.count := congrArg Subject.count hsubject
    exact hicount ▸ hitem hi
  · exact absurd hid List.not_mem_nil

end Showing

section Answers

variable {s s' : Store} {drawn drawn' : List Id} {q : Request} {answer : q.Answer}

/-- An attempt is recorded only if this is asked. -/
theorem Answers.attempts (h : Answers s drawn q answer s' drawn') {a : Attempt}
    (ha : a ∈ s'.attempts) : a ∈ s.attempts ∨ q = .store (.counts (.addAttempt a)) := by
  rcases h.store_cases with rfl | ⟨call, supply, result, rfl, -, hanswer⟩
  · exact .inl ha
  · cases call with
    | counts call =>
      refine ((Store.answerCounts_eq_ok hanswer).2 a ha).imp_right fun heq => ?_
      rw [heq]
    | mappings call =>
      obtain ⟨-, -, -, hattempts⟩ := Store.answerMappings_eq_ok hanswer
      exact .inl (hattempts ▸ ha)

/-- A mapping has an identifier that was in use before, or it is just created. -/
theorem Answers.mappings (h : Answers s drawn q answer s' drawn') {m : Mapping}
    (hm : m ∈ s'.mappings) :
    (∃ old ∈ s.mappings, old.id = m.id) ∨ q = .store (.mappings (.create m)) := by
  rcases h.store_cases with rfl | ⟨call, supply, result, rfl, -, hanswer⟩
  · exact .inl ⟨m, hm, rfl⟩
  · cases call with
    | counts call => exact .inl ⟨m, (Store.answerCounts_eq_ok hanswer).1 ▸ hm, rfl⟩
    | mappings call =>
      refine (Store.answerMappings_mappings hanswer hm).imp_right fun heq => ?_
      rw [heq]

theorem Answers.registered (h : Answers s drawn q answer s' drawn') (hs : s.Registered) :
    s'.Registered := by
  rcases h.store_cases with rfl | ⟨call, supply, result, rfl, -, hanswer⟩
  · exact hs
  · cases call with
    | counts call => exact hs.of_same (Store.answerCounts_eq_ok hanswer).1
    | mappings call => exact hs.answer hanswer

/-- What a task is shown is stored. -/
theorem Answers.exists_owner (h : Answers s drawn q answer s' drawn') (hs : s'.Sound)
    {tenant id : Id} (hid : id ∈ shown tenant ⟨q, answer⟩) : ∃ owner, s'.Owns owner id := by
  cases h with
  | store supply hfresh hstep =>
    rcases owns_of_shown hs hstep hid with howns | ⟨-, howns⟩
    · exact ⟨tenant, howns⟩
    · exact howns
  | _ => exact absurd hid List.not_mem_nil

end Answers

/-- What holds of the tenants of all tasks and of their store at any time. -/
structure World.Orderly (w : World) : Prop where
  registered : w.store.Registered
  attempts : ∀ a ∈ w.store.attempts, a.count ∈ w.drawn
  mappings : ∀ m ∈ w.store.mappings, w.Knows m.id
  asks : ∀ work ∈ w.works, ∀ tenant, work.task.IsFor tenant →
    work.rest.Keeps (Within tenant []) (fun _ _ => True) work.past
  shown : ∀ work ∈ w.works, ∀ tenant, ∀ count ∈ work.past.flatMap (shown tenant), count ∈ w.drawn

variable {sources : Loading.Sources} {w w' : World} {n : Nat} {work : Work} {t : Task}

theorem World.Orderly.empty : World.Orderly {} where
  registered := .empty
  attempts _ ha := absurd ha List.not_mem_nil
  mappings _ hm := absurd hm List.not_mem_nil
  asks _ hwork := absurd hwork List.not_mem_nil
  shown _ hwork := absurd hwork List.not_mem_nil

theorem Task.program_keeps_within (sources : Loading.Sources) {tenant : Id} (ht : t.IsFor tenant) :
    (t.program sources).Keeps (Within tenant []) (fun _ _ => True) [] := by
  rw [t.program_eq_work]
  exact Program.keeps_bind.mpr (t.action_private sources ht).keeps

theorem World.Orderly.begin (h : w.Orderly) : (w.begin sources t).Orderly where
  registered := h.registered
  attempts := h.attempts
  mappings m hm := (h.mappings m hm).begin
  asks work hwork := by
    rcases mem_begin hwork with hwork | rfl
    · exact h.asks work hwork
    · exact fun tenant ht => t.program_keeps_within sources ht
  shown work hwork := by
    rcases mem_begin hwork with hwork | rfl
    · exact h.shown work hwork
    · exact fun _ _ hcount => absurd hcount List.not_mem_nil

/-- An identifier that a task had in reserve is known after its call on the store. -/
theorem World.Sound.knows_of_recent (h : w.Sound) (hwork : w.works[n]? = some work) {id : Id}
    (hid : id ∈ recentIds work.past) {call : StoreCall} {answer rest} {s : Store} {drawn : List Id}
    (hdrawn : ∀ id ∈ w.drawn, id ∈ drawn) :
    (w.answered n work ⟨.store call, answer⟩ rest s drawn).Knows id := by
  refine ⟨hdrawn id (h.reserve_drawn work (List.mem_of_getElem? hwork) id hid), ?_⟩
  intro other hother hmem
  rcases mem_answered hother with rfl | ⟨m, hne, hm⟩
  · exact List.not_mem_nil hmem
  · exact h.apart m n other work hne hm hwork id hmem hid

/-- A task asks only for its tenant. -/
theorem World.Orderly.within (h : w.Orderly) (hwork : work ∈ w.works) {q : Request} {next}
    (hrest : work.rest = .ask q next) {tenant : Id} (ht : work.task.IsFor tenant) :
    Within tenant [] work.past q := by
  have hkeeps := h.asks work hwork tenant ht
  rw [hrest] at hkeeps
  exact hkeeps.1

/-- A world stays orderly when a task is answered. -/
theorem World.Orderly.answered (h : w.Orderly) (hs : w.Sound) (hwork : w.works[n]? = some work)
    {q : Request} {next} (hrest : work.rest = .ask q next) {answer : q.Answer} {s' : Store}
    {drawn' : List Id} (hanswer : Answers w.store w.drawn q answer s' drawn') :
    (w.answered n work ⟨q, answer⟩ (next answer) s' drawn').Orderly := by
  have hadvance : Advance n w (w.answered n work ⟨q, answer⟩ (next answer) s' drawn') :=
    .answered hwork hrest hanswer
  have hmem : work ∈ w.works := List.mem_of_getElem? hwork
  have hdrawn : ∀ id ∈ w.drawn, id ∈ drawn' := hadvance.drawn_subset
  obtain ⟨tenant, htenant⟩ := work.task.exists_isFor
  have hwithin := h.within hmem hrest htenant
  refine ⟨hanswer.registered h.registered, fun a ha => ?attempts, fun m hm => ?mappings,
    fun other hother => ?asks, fun other hother => ?shown⟩
  case attempts =>
    rcases hanswer.attempts ha with hold | rfl
    · exact hdrawn _ (h.attempts a hold)
    · rcases hwithin.count a.count rfl with hknown | hshown
      · exact absurd hknown List.not_mem_nil
      · exact hdrawn _ (h.shown work hmem tenant _ hshown)
  case mappings =>
    rcases hanswer.mappings hm with ⟨old, hold, hid⟩ | rfl
    · obtain ⟨new, hdraws, -⟩ := hs.draws hmem (hs.allowed hwork hrest) hanswer
      exact hid ▸ hdraws.knows hwork (h.mappings old hold)
    · exact hs.knows_of_recent hwork (hwithin.fresh m rfl) hdrawn
  case asks =>
    rcases mem_answered hother with rfl | ⟨m, -, hm⟩
    · intro tenant ht
      have hkeeps := h.asks work hmem tenant ht
      rw [hrest] at hkeeps
      exact hkeeps.2 answer
    · exact h.asks other (List.mem_of_getElem? hm)
  case shown =>
    intro tenant count hcount
    rcases mem_answered hother with rfl | ⟨m, -, hm⟩
    · rw [List.flatMap_cons, List.mem_append] at hcount
      rcases hcount with hcount | hcount
      · obtain ⟨-, c, hc, rfl, -⟩ := hanswer.exists_owner (hs.advance hadvance).store hcount
        exact ((hs.advance hadvance).known _ (Store.count_id_mem_ids hc)).1
      · exact hdrawn _ (h.shown work hmem tenant count hcount)
    · exact hdrawn _ (h.shown other (List.mem_of_getElem? hm) tenant count hcount)

/-- A task that stops is the task that it was. -/
theorem World.Orderly.stopped (h : w.Orderly) (hwork : w.works[n]? = some work)
    (overflow : Overflow) :
    World.Orderly { w with works := w.works.set n { work with rest := .stop overflow } } where
  registered := h.registered
  attempts := h.attempts
  mappings m hm := (h.mappings m hm).stopped hwork overflow
  asks other hother tenant ht := by
    obtain ⟨before, hbefore, hpast, hrest | rfl⟩ := mem_stopped hwork hother
    · rw [hrest]
      trivial
    · exact h.asks other hbefore tenant ht
  shown other hother := by
    obtain ⟨before, hbefore, hpast, -⟩ := mem_stopped hwork hother
    exact hpast ▸ h.shown before hbefore

theorem World.Orderly.advance (h : w.Orderly) (hs : w.Sound) (hadvance : Advance n w w') :
    w'.Orderly := by
  cases hadvance with
  | answered hwork hrest hanswer => exact h.answered hs hwork hrest hanswer
  | stopped hwork => exact h.stopped hwork _

/-- Every world that is reached is orderly. -/
theorem Reachable.orderly {alone : Task → Prop} (hw : Reachable sources alone w) : w.Orderly :=
  (hw.induction (P := fun w => w.Sound ∧ w.Orderly) ⟨.empty, .empty⟩
    (fun _ _ h => ⟨h.1.begin, h.2.begin⟩)
    fun _ _ _ h hadvance => ⟨h.1.advance hadvance, h.2.advance h.1 hadvance⟩).2

end Recount.Concurrent
