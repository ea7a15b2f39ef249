import Recount.Proofs.Concurrent.Replay
import Recount.Proofs.Concurrent.Sound
import Recount.Proofs.WriteBack.Sending

/-!
# Attempts one after the other

A count is written back by attempts that add what each item differs by, and after it was closed it
may be opened for more of them. An attempt looks at the items alone, not at the attempts before, so
an item is added once for every session that accepts its statement.
-/

namespace Recount.WriteBack

open Concurrent (Exchange Scene Ending World Task RunsAlone Reachable nobody)

/-- What a planning system does in an attempt. -/
structure Weather where
  /-- A session is opened. -/
  opens : Bool
  /-- The items whose statements are accepted. -/
  accepts : Id → Bool

/-- What was asked in an attempt that writes items was answered in accordance with the weather. -/
structure Weather.Explains (weather : Weather) (items : List Item) (past : List Exchange) :
    Prop where
  openings : ∀ opened ∈ openings past, opened = weather.opens
  answers : ∀ entry ∈ items.zip (sent past), entry.2.2 = weather.accepts entry.1.id

/-- What is done with a count that is written back by adding. -/
inductive Event where
  | send (r : { r : SendRequest // r.strategy = .add }) (actor : Id) (weather : Weather)
  | reactivate (actor : Id)

namespace Event

/-- The task of an event. -/
def task (tenant count : Id) : Event → Task
  | send r actor _ => .send tenant count r actor
  | reactivate actor => .changeStage tenant count ⟨.reactivate, by simp [stageChanges]⟩ actor

/-- What was asked in an event was answered in accordance with its weather. -/
def Explains (items : List Item) (past : List Exchange) : Event → Prop
  | send _ _ weather => weather.Explains items past
  | reactivate _ => True

/-- The stage of a count after an event, with the weather of the session that was held. A session
is held if the count is completed, the request is ready to be sent and the session opens. -/
def next (items : List Item) (ready : SendRequest → Bool) (status : Status) :
    Event → Status × Option Weather
  | send r _ weather =>
    if status = .completed ∧ ready r = true ∧ weather.opens = true then
      (if items.all (weather.accepts ·.id) then .closed else .completed, some weather)
    else (status, none)
  | reactivate _ => (if status = .closed then .completed else status, none)

end Event

/-- For every event, the weather of the session that is held, if there is one. -/
def sessions (items : List Item) (ready : SendRequest → Bool) :
    Status → List Event → List (Option Weather)
  | _, [] => []
  | status, e :: events =>
    (e.next items ready status).2 :: sessions items ready (e.next items ready status).1 events

/-- The statement of an item is accepted in a session that is held. -/
def accepts (held : Option Weather) (i : Item) : Bool := held.any (·.accepts i.id)

/-- The items whose statements are accepted in a session that is held. -/
def acceptedOf (items : List Item) (held : Option Weather) : List Id :=
  (items.filter (accepts held)).map (·.id)

/-- The items whose statements are sent in a session that is held. -/
def triedOf (items : List Item) (held : Option Weather) : List Id :=
  if held.isSome then items.map (·.id) else []

/-- Events take place one after the other, each without interruption. -/
inductive Course (sources : Loading.Sources) (tenant count : Id) (items : List Item) :
    World → List Event → List (List Exchange) → World → Prop
  | nil {w} : Course sources tenant count items w [] [] w
  | cons {w w₁ w₂ e past events pasts} (hrun : RunsAlone sources w (e.task tenant count) past w₁)
      (hexplains : e.Explains items past)
      (hrest : Course sources tenant count items w₁ events pasts w₂) :
      Course sources tenant count items w (e :: events) (past :: pasts) w₂

/-- The items whose statements were accepted in an attempt that writes items. -/
def additions (items : List Item) (past : List Exchange) : List Id :=
  ((items.zip (sent past)).filter (·.2.2)).map (·.1.id)

/-- The items whose statements were sent in an attempt that writes items. -/
def attempted (items : List Item) (past : List Exchange) : List Id :=
  (items.zip (sent past)).map (·.1.id)

/-- In a number of attempts, no item was added twice. -/
def AddedOnce (items : List Item) (pasts : List (List Exchange)) : Prop :=
  (pasts.flatMap (additions items)).Nodup

/-- In a number of attempts, no item was tried again after it had been added. -/
def NeverRepeated (items : List Item) (pasts : List (List Exchange)) : Prop :=
  pasts.Pairwise fun earlier later =>
    List.Disjoint (additions items earlier) (attempted items later)

/-- An attempt sent either nothing or the addition of every item, in their order. -/
def SendsAll (items : List Item) (past : List Exchange) : Prop :=
  sent past = [] ∨ ∃ target dialect, (sent past).map (·.1) =
    items.map fun i => Target.statement target dialect .add i.code (valueFor .add i)

section Answers

variable {dialect : Sql.Dialect} {target : Target} {strategy : Strategy} {items : List Item}
  {answers : List (Except Error (List Row))} {weather : Weather}

theorem map_fst_written (hlength : answers.length = items.length) :
    (List.zipWith (written dialect target strategy) items answers).map (·.1) =
      items.map fun i => target.statement dialect strategy i.code (valueFor strategy i) := by
  induction items generalizing answers with
  | nil => rfl
  | cons i items ih =>
    obtain _ | ⟨answer, answers⟩ := answers
    · cases hlength
    · rw [List.zipWith_cons_cons, List.map_cons, ih (Nat.succ.inj hlength)]
      rfl

theorem attempted_written (hlength : answers.length = items.length) :
    (items.zip (List.zipWith (written dialect target strategy) items answers)).map (·.1.id) =
      items.map (·.id) := by
  have hle : items.length ≤ (List.zipWith (written dialect target strategy) items answers).length := by
    simp [hlength]
  conv => rhs; rw [← List.map_fst_zip hle, List.map_map]
  rfl

/-- The statements that are accepted are those of the items that the weather accepts. -/
theorem additions_written (hlength : answers.length = items.length)
    (hanswers : ∀ entry ∈ items.zip (List.zipWith (written dialect target strategy) items answers),
      entry.2.2 = weather.accepts entry.1.id) :
    ((items.zip (List.zipWith (written dialect target strategy) items answers)).filter
        (·.2.2)).map (·.1.id) = (items.filter (weather.accepts ·.id)).map (·.id) ∧
      answers.all (·.isOk) = items.all (weather.accepts ·.id) := by
  induction items generalizing answers with
  | nil =>
    rw [List.length_eq_zero_iff.mp hlength]
    exact ⟨rfl, rfl⟩
  | cons i items ih =>
    obtain _ | ⟨answer, answers⟩ := answers
    · cases hlength
    · rw [List.zipWith_cons_cons, List.zip_cons_cons, List.forall_mem_cons] at hanswers
      obtain ⟨hanswer, hanswers⟩ := hanswers
      have hanswer : answer.isOk = weather.accepts i.id := hanswer
      obtain ⟨hadditions, hall⟩ := ih (Nat.succ.inj hlength) hanswers
      rw [List.zipWith_cons_cons, List.zip_cons_cons, List.all_cons, List.all_cons, hall, hanswer]
      refine ⟨?_, rfl⟩
      cases haccepts : weather.accepts i.id <;>
        simp [written, hanswer, haccepts, hadditions]

end Answers

section Stores

variable {s s' : Store}

theorem toWrite_congr {count : Id} {version : Int} (hitems : s'.items = s.items)
    (hreports : s'.reports = s.reports) : toWrite s' count version = toWrite s count version := by
  have hlocation : s'.reportPrecedes = s.reportPrecedes := by
    funext r q
    simp only [Store.reportPrecedes, Store.location, Store.item?, hitems]
  simp only [toWrite, Store.listItems, Store.listReports, Store.itemsOf, Store.reportsOf, hitems,
    hreports, hlocation]

theorem destination?_congr {connections : Erp.Connections} {tenant : Id} {default : Option Id}
    {r : SendRequest} (hmappings : s'.mappings = s.mappings) :
    destination? connections s' tenant default r = destination? connections s tenant default r := by
  simp only [destination?, target?, Store.activeMapping?, hmappings]

end Stores

/-- Since a moment, nothing has changed of what is written back, and a count is in a stage. -/
structure Stands (s₀ : Store) (tenant : Id) (c₀ : Count) (status : Status) (s : Store) : Prop where
  items : s.items = s₀.items
  reports : s.reports = s₀.reports
  mappings : s.mappings = s₀.mappings
  count : ∃ c, s.count? tenant c₀.id = some c ∧ c.status = status ∧
    c.currentVersion = c₀.currentVersion

section Runs

variable {sources : Loading.Sources} {tenant : Id} {s₀ s : Store} {c₀ : Count} {status : Status}
  {w w' : World} {past : List Exchange}

/-- A request of a course is ready to be sent: it means a target and a connection that there is. -/
def ready (sources : Loading.Sources) (s : Store) (tenant : Id) (r : SendRequest) : Bool :=
  (destination? sources.connections s tenant (sources.settings.connection.map (·.id)) r).isSome

/-- What an event comes to: the next stage, and the statements of the session that was held. -/
structure ComesTo (sources : Loading.Sources) (s₀ : Store) (tenant : Id) (c₀ : Count)
    (status : Status) (e : Event) (past : List Exchange) (s : Store) : Prop where
  stands : Stands s₀ tenant c₀
    (e.next (toWrite s₀ c₀.id c₀.currentVersion) (ready sources s₀ tenant) status).1 s
  sendsAll : SendsAll (toWrite s₀ c₀.id c₀.currentVersion) past
  additions : additions (toWrite s₀ c₀.id c₀.currentVersion) past =
    acceptedOf (toWrite s₀ c₀.id c₀.currentVersion)
      (e.next (toWrite s₀ c₀.id c₀.currentVersion) (ready sources s₀ tenant) status).2
  attempted : attempted (toWrite s₀ c₀.id c₀.currentVersion) past =
    triedOf (toWrite s₀ c₀.id c₀.currentVersion)
      (e.next (toWrite s₀ c₀.id c₀.currentVersion) (ready sources s₀ tenant) status).2

/-- Nothing that is written back changes when an attempt is recorded or a count is put in its own
place. -/
theorem Stands.putCount (h : Stands s₀ tenant c₀ status s) {c c' : Count}
    (hc : s.count? tenant c₀.id = some c)
    (hsame : c'.id = c.id ∧ c'.tenant = c.tenant ∧ c'.currentVersion = c.currentVersion) :
    Stands s₀ tenant c₀ c'.status (s.putCount c') where
  items := h.items
  reports := h.reports
  mappings := h.mappings
  count := by
    obtain ⟨c₁, hc₁, -, hversion₁⟩ := h.count
    cases hc.symm.trans hc₁
    obtain ⟨hid, htenant, hversion⟩ := hsame
    exact ⟨c', Store.count?_putCount hc hid htenant, rfl, hversion.trans hversion₁⟩

theorem Stands.addAttempt (h : Stands s₀ tenant c₀ status s) (a : Attempt) :
    Stands s₀ tenant c₀ status (s.addAttempt a) :=
  ⟨h.items, h.reports, h.mappings, h.count⟩

/-- After an event that sends nothing, there is nothing to say but the stage of the count. -/
theorem ComesTo.of_silent {e : Event} (hsent : sent past = [])
    (hnone : (e.next (toWrite s₀ c₀.id c₀.currentVersion) (ready sources s₀ tenant) status).2 = none)
    (hstands : Stands s₀ tenant c₀
      (e.next (toWrite s₀ c₀.id c₀.currentVersion) (ready sources s₀ tenant) status).1 s) :
    ComesTo sources s₀ tenant c₀ status e past s :=
  ⟨hstands, .inl hsent, by rw [hnone]; simp [WriteBack.additions, hsent, acceptedOf, accepts],
    by rw [hnone]; simp [WriteBack.attempted, hsent, triedOf]⟩

theorem ComesTo.of_reactivate {actor : Id} (h : Stands s₀ tenant c₀ status w.store)
    (hrun : RunsAlone sources w ((Event.reactivate actor).task tenant c₀.id) past w') :
    ComesTo sources s₀ tenant c₀ status (.reactivate actor) past w'.store := by
  obtain ⟨c, hc, rfl, hversion⟩ := h.count
  obtain ⟨_, _, hsent, hstore⟩ := (leads_reactivate hc).of_runsAlone rfl hrun
  refine .of_silent hsent rfl ?_
  rcases hstore with ⟨hclosed, now, hstore⟩ | ⟨hclosed, hstore⟩
  · rw [Event.next, if_pos hclosed, show w'.store = _ from hstore]
    exact h.putCount hc reopenedBy_same
  · rw [Event.next, if_neg hclosed, show w'.store = _ from hstore]
    exact h

theorem ComesTo.of_send {r : { r : SendRequest // r.strategy = .add }} {actor : Id}
    {weather : Weather} (h : Stands s₀ tenant c₀ status w.store) (hw : w.store.Sound)
    (hrun : RunsAlone sources w ((Event.send r actor weather).task tenant c₀.id) past w')
    (hexplains : weather.Explains (toWrite s₀ c₀.id c₀.currentVersion) past) :
    ComesTo sources s₀ tenant c₀ status (.send r actor weather) past w'.store := by
  obtain ⟨r, hadd⟩ := r
  obtain ⟨c, hc, rfl, hversion⟩ := h.count
  obtain ⟨-, hid, -⟩ := Store.count?_eq_some hc
  obtain ⟨_, drawn, hcame⟩ := (leads_send hc hw).of_runsAlone rfl hrun
  rw [destination?_congr h.mappings, hadd] at hcame
  cases hcame with
  | refused hwhy hstore hsent =>
    have hnot : ¬ (c.status = .completed ∧ ready sources s₀ tenant r = true ∧ weather.opens = true) := by
      rintro ⟨hstatus, hready, -⟩
      simp [ready, hwhy hstatus] at hready
    refine .of_silent hsent (by rw [Event.next, if_neg hnot]) ?_
    rw [Event.next, if_neg hnot, show w'.store = _ from hstore]
    exact h
  | unopened hstatus hplace hopenings _ _ hstore hsent =>
    have hnot : ¬ (c.status = .completed ∧ ready sources s₀ tenant r = true ∧ weather.opens = true) := by
      rintro ⟨-, -, hopens⟩
      have hclosed := hexplains.openings false (hopenings ▸ List.mem_singleton_self false)
      rw [hopens] at hclosed
      cases hclosed
    refine .of_silent hsent (by rw [Event.next, if_neg hnot]) ?_
    rw [Event.next, if_neg hnot, show w'.store = _ from hstore]
    exact h.addAttempt _
  | @held d answers hstatus hplace hopenings hlength hsent a hattempt now hending hstore =>
    rw [hid, hversion, toWrite_congr h.items h.reports] at hlength hsent
    have hheld : c.status = .completed ∧ ready sources s₀ tenant r = true ∧
        weather.opens = true := by
      refine ⟨hstatus, by simp [ready, hplace], ?_⟩
      exact (hexplains.openings true (hopenings ▸ List.mem_singleton_self true)).symm
    have hsent : sent past = _ := hsent
    have hanswers := hexplains.answers
    rw [hsent] at hanswers
    obtain ⟨hadditions, hall⟩ := additions_written hlength hanswers
    refine ⟨?_, .inr ⟨d.target, d.dialect, by rw [hsent, map_fst_written hlength]⟩, ?_, ?_⟩
    · have hstore : w'.store = _ := hstore
      rw [Event.next, if_pos hheld, hstore, hall]
      split
      · exact (h.addAttempt a).putCount hc closedBy_same
      · exact hstatus ▸ h.addAttempt a
    · rw [Event.next, if_pos hheld, WriteBack.additions, hsent, hadditions]
      rfl
    · rw [Event.next, if_pos hheld, WriteBack.attempted, hsent, attempted_written hlength]
      rfl

theorem ComesTo.of_event {e : Event} (h : Stands s₀ tenant c₀ status w.store) (hw : w.store.Sound)
    (hrun : RunsAlone sources w (e.task tenant c₀.id) past w')
    (hexplains : e.Explains (toWrite s₀ c₀.id c₀.currentVersion) past) :
    ComesTo sources s₀ tenant c₀ status e past w'.store := by
  cases e with
  | send r actor weather => exact .of_send h hw hrun hexplains
  | reactivate actor => exact .of_reactivate h hrun

/-- In a course of events, every attempt sends all or nothing. The items that are added are those
that the sessions accept, and every session tries them all. -/
theorem Course.comesTo {events : List Event} {pasts : List (List Exchange)} {items : List Item}
    (hitems : items = toWrite s₀ c₀.id c₀.currentVersion)
    (hcourse : Course sources tenant c₀.id items w events pasts w') (hw : Reachable sources nobody w)
    (h : Stands s₀ tenant c₀ status w.store) :
    (∀ past ∈ pasts, SendsAll items past) ∧
      pasts.map (fun past => (additions items past, attempted items past)) =
        (sessions items (ready sources s₀ tenant) status events).map fun held =>
          (acceptedOf items held, triedOf items held) := by
  induction hcourse generalizing status with
  | nil => exact ⟨by simp, rfl⟩
  | cons hrun hexplains _ ih =>
    subst hitems
    have hcomes := ComesTo.of_event h hw.sound.store hrun hexplains
    obtain ⟨hsends, hviews⟩ := ih (hrun.reachable hw) hcomes.stands
    refine ⟨List.forall_mem_cons.mpr ⟨hcomes.sendsAll, hsends⟩, ?_⟩
    rw [List.map_cons, hviews, hcomes.additions, hcomes.attempted]
    rfl

end Runs

/-- The items that are written back are different ones, and their values are what they differ by. -/
theorem toWrite_nodup {s : Store} {count : Id} {version : Int} (hs : s.Sound) :
    ((toWrite s count version).map (·.id)).Nodup := by
  have hperm := List.mergeSort_perm (s.itemsOf count (some version)) Item.precedes
  refine nodup_map_filter _ ((hperm.map Item.id).nodup_iff.mpr ?_)
  exact nodup_map_filter _ hs.items_nodup

/-- What is added for an item is what was counted less what the system knows. -/
theorem valueFor_add {s : Store} {count : Id} {version : Int} (hs : s.Sound) {i : Item}
    (hi : i ∈ toWrite s count version) :
    ∃ counted, i.countedQty = some counted ∧ counted.sub i.systemQty = .ok (valueFor .add i) := by
  have hvalue := haveValues .add (fun i hi => (hs.listItems.2 i hi).2.2) i hi
  cases hcounted : i.countedQty with
  | none => simp [valueOf?, hcounted] at hvalue
  | some counted =>
    refine ⟨counted, rfl, ?_⟩
    simp only [valueOf?, hcounted] at hvalue
    cases hsub : counted.sub i.systemQty with
    | ok difference => simpa [hsub, Except.map] using hvalue
    | error o => simp [hsub, Except.map] at hvalue

section Disjoint

variable {items : List Item} {a b : Option Weather}

/-- Two sessions accept nothing twice if there is no item that both accept. -/
theorem disjoint_accepted_iff :
    List.Disjoint (acceptedOf items a) (acceptedOf items b) ↔
      ∀ i ∈ items, ¬ (accepts a i = true ∧ accepts b i = true) := by
  constructor
  · rintro hdisjoint i hi ⟨ha, hb⟩
    exact hdisjoint (List.mem_map.mpr ⟨i, List.mem_filter.mpr ⟨hi, ha⟩, rfl⟩)
      (List.mem_map.mpr ⟨i, List.mem_filter.mpr ⟨hi, hb⟩, rfl⟩)
  · intro hnone id hida hidb
    obtain ⟨i, hi, rfl⟩ := List.mem_map.mp hida
    obtain ⟨j, hj, hid⟩ := List.mem_map.mp hidb
    obtain ⟨hmem, ha⟩ := List.mem_filter.mp hi
    have hb := (List.mem_filter.mp hj).2
    unfold accepts at hb
    rw [hid] at hb
    exact hnone i hmem ⟨ha, hb⟩

/-- A session repeats nothing if the one before accepted nothing. -/
theorem disjoint_attempted_iff :
    List.Disjoint (acceptedOf items a) (triedOf items b) ↔
      (b.isSome = true → ∀ i ∈ items, accepts a i = false) := by
  cases b with
  | none => simp [triedOf]
  | some weather =>
    constructor
    · intro hdisjoint _ i hi
      by_contra ha
      exact hdisjoint (List.mem_map.mpr ⟨i, List.mem_filter.mpr ⟨hi, by simpa using ha⟩, rfl⟩)
        (List.mem_map.mpr ⟨i, hi, rfl⟩)
    · intro hnone id hid _
      obtain ⟨i, hi, rfl⟩ := List.mem_map.mp hid
      obtain ⟨hmem, ha⟩ := List.mem_filter.mp hi
      rw [hnone rfl i hmem] at ha
      cases ha

end Disjoint

/-- Every attempt that sends anything sends the addition of every item. So no item is added twice
just where no two of the sessions that are held accept the statement of one item, and none is tried
again after it was added just where every session but the last accepts nothing. -/
theorem added_once_iff {sources : Loading.Sources} {tenant count : Id} {w w' : World} {c : Count}
    {events : List Event} {pasts : List (List Exchange)} (hw : Reachable sources nobody w)
    (hc : w.store.count? tenant count = some c)
    (hcourse : Course sources tenant count (toWrite w.store count c.currentVersion) w events pasts
      w') :
    let items := toWrite w.store count c.currentVersion
    let held := sessions items (ready sources w.store tenant) c.status events
    (∀ i ∈ items, ∃ counted, i.countedQty = some counted ∧
      counted.sub i.systemQty = .ok (valueFor .add i)) ∧
    (∀ past ∈ pasts, SendsAll items past) ∧
    (AddedOnce items pasts ↔
      held.Pairwise fun a b => ∀ i ∈ items, ¬ (accepts a i = true ∧ accepts b i = true)) ∧
    (NeverRepeated items pasts ↔
      held.Pairwise fun a b => b.isSome = true → ∀ i ∈ items, accepts a i = false) := by
  intro items held
  obtain ⟨-, rfl, -⟩ := Store.count?_eq_some hc
  have hstands : Stands w.store tenant c c.status w.store := ⟨rfl, rfl, rfl, c, hc, rfl, rfl⟩
  obtain ⟨hsends, hviews⟩ := hcourse.comesTo rfl hw hstands
  have hnodup : (items.map (·.id)).Nodup := toWrite_nodup hw.sound.store
  -- what relates two attempts by the items they added and tried relates their sessions too
  have htransfer (R : List Id × List Id → List Id × List Id → Prop) :
      pasts.Pairwise (fun p q => R (additions items p, attempted items p)
        (additions items q, attempted items q)) ↔
      held.Pairwise fun a b => R (acceptedOf items a, triedOf items a)
        (acceptedOf items b, triedOf items b) := by
    rw [← List.pairwise_map (R := R), hviews, List.pairwise_map]
  refine ⟨fun i hi => valueFor_add hw.sound.store hi, hsends, ?_, ?_⟩
  · have hpast : ∀ past ∈ pasts, (additions items past).Nodup := by
      intro past hmem
      have hview := List.mem_map_of_mem hmem (f := fun past =>
        (additions items past, attempted items past))
      rw [hviews] at hview
      obtain ⟨session, -, heq⟩ := List.mem_map.mp hview
      obtain ⟨heq, -⟩ := Prod.mk.injEq _ _ _ _ ▸ heq
      exact heq ▸ nodup_map_filter _ hnodup
    rw [AddedOnce, List.nodup_flatMap, and_iff_right hpast]
    refine (htransfer fun x y => List.Disjoint x.1 y.1).trans (List.Pairwise.iff fun a b => ?_)
    exact disjoint_accepted_iff
  · refine (htransfer fun x y => List.Disjoint x.1 y.2).trans (List.Pairwise.iff fun a b => ?_)
    exact disjoint_attempted_iff

section Replay

open Concurrent (Move Aid played played_reachable goOn newCount newItem oneDigit roundSupply calm
  stormy)

variable {sources : Loading.Sources} {tenant count : Id} {items : List Item}

/-- The course of some events, if what is at hand in each brings it to its end. -/
def course? (sources : Loading.Sources) (tenant count : Id) :
    World → List (Event × List Aid) → Option (World × List (List Exchange))
  | w, [] => some (w, [])
  | w, (e, aids) :: rest =>
    (w.alone? sources (e.task tenant count) aids).bind fun (w₁, past) =>
      (course? sources tenant count w₁ rest).map fun (w₂, pasts) => (w₂, past :: pasts)

instance {weather : Weather} {past : List Exchange} : Decidable (weather.Explains items past) :=
  decidable_of_iff ((∀ opened ∈ openings past, opened = weather.opens) ∧
      ∀ entry ∈ items.zip (sent past), entry.2.2 = weather.accepts entry.1.id)
    ⟨fun h => ⟨h.1, h.2⟩, fun h => ⟨h.1, h.2⟩⟩

instance {past : List Exchange} : (e : Event) → Decidable (e.Explains items past)
  | .send _ _ weather => inferInstanceAs (Decidable (weather.Explains items past))
  | .reactivate _ => inferInstanceAs (Decidable True)

theorem Course.of_course? {w w' : World} {script : List (Event × List Aid)}
    {pasts : List (List Exchange)} (h : course? sources tenant count w script = some (w', pasts))
    (hexplains : ∀ entry ∈ (script.map Prod.fst).zip pasts, entry.1.Explains items entry.2) :
    Course sources tenant count items w (script.map Prod.fst) pasts w' := by
  induction script generalizing w pasts with
  | nil =>
    cases h
    exact .nil
  | cons entry script ih =>
    obtain ⟨e, aids⟩ := entry
    obtain ⟨⟨w₁, past⟩, halone, h⟩ := Option.bind_eq_some_iff.mp h
    obtain ⟨⟨w₂, pasts'⟩, hrest, h⟩ := Option.map_eq_some_iff.mp h
    cases h
    rw [List.map_cons, List.zip_cons_cons, List.forall_mem_cons] at hexplains
    exact .cons (World.alone?_runsAlone halone) hexplains.1 (ih hrest hexplains.2)

/-- One connection, over which quantities are written. -/
def oneConnection : Loading.Sources := ⟨[(.ofNat 9, .postgres)], {}⟩

/-- Two of each of two items are counted, and the count is completed and approved. -/
def twoItems : List Move :=
  .begin newCount :: goOn 1 0 1 ++
    .begin (newItem "A" (some (oneDigit 2))) :: goOn 2 1 8 ++
    .begin (newItem "B" (some (oneDigit 2))) :: goOn 10 2 8 ++
    .begin (.completeCount (.ofNat 1) (.ofNat 1000) (.ofNat 3)) :: goOn 18 3 3 ++
    .begin (.changeStage (.ofNat 1) (.ofNat 1000) ⟨.finalize, finalize_mem_stageChanges⟩ (.ofNat 3)) ::
      goOn 21 4 2

/-- Rounds in each of which the planning system is calm or stormy. -/
def rounds (first : Nat) (calms : List Bool) : List Aid :=
  calms.zipIdx.map fun (isCalm, k) => ⟨roundSupply (first + k), if isCalm then calm else stormy⟩

/-- Both items are sent to be added. -/
def addBoth : SendRequest := ⟨.add, some ⟨"stock", "qty", "code"⟩, some (.ofNat 9)⟩

/-- The items that are written back of the two that were counted. -/
def bothItems : List Item :=
  itemsToWrite ((played oneConnection twoItems).store.itemsOf (.ofNat 1000) (some 1))
    ((played oneConnection twoItems).store.reportsOf (.ofNat 1000) (some 1))

theorem toWrite_twoItems :
    toWrite (played oneConnection twoItems).store (.ofNat 1000) 1 = bothItems := by
  rw [toWrite, Store.listItems, Store.listReports, List.mergeSort_of_pairwise (by decide +kernel),
    List.mergeSort_of_pairwise (by decide +kernel)]
  rfl

/-- A script for the two items can be played in accordance with its weathers, with an outcome. -/
def CanBePlayed (script : List (Event × List Aid)) (outcome : List (List Exchange) → Bool) : Bool :=
  (course? oneConnection (.ofNat 1) (.ofNat 1000) (played oneConnection twoItems) script).any
    fun (_, pasts) => (∀ entry ∈ (script.map Prod.fst).zip pasts, entry.1.Explains bothItems entry.2) ∧
      outcome pasts

theorem course_of_canBePlayed {script : List (Event × List Aid)}
    {outcome : List (List Exchange) → Bool} (h : CanBePlayed script outcome = true) :
    ∃ c w' pasts, (played oneConnection twoItems).store.count? (.ofNat 1) (.ofNat 1000) = some c ∧
      c.status = .completed ∧ c.currentVersion = 1 ∧ outcome pasts = true ∧
      Course oneConnection (.ofNat 1) (.ofNat 1000)
        (toWrite (played oneConnection twoItems).store (.ofNat 1000) c.currentVersion)
        (played oneConnection twoItems) (script.map Prod.fst) pasts w' := by
  have hcount : ((played oneConnection twoItems).store.count? (.ofNat 1) (.ofNat 1000)).any
      (fun c => c.status = .completed ∧ c.currentVersion = 1) = true := by decide +kernel
  obtain ⟨c, hc, hchecked⟩ := (Option.any_eq_true _ _).mp hcount
  obtain ⟨hstatus, hversion⟩ := of_decide_eq_true hchecked
  obtain ⟨⟨w', pasts⟩, hplayed, hchecked⟩ := (Option.any_eq_true _ _).mp h
  obtain ⟨hexplains, houtcome⟩ := of_decide_eq_true hchecked
  refine ⟨c, w', pasts, hc, hstatus, hversion, houtcome, ?_⟩
  rw [hversion, toWrite_twoItems]
  exact .of_course? hplayed hexplains

/-- No session is opened in the first attempt. In the second one both additions are accepted, and
the third one finds the count closed. -/
def wholeAtOnce : List (Event × List Aid) :=
  [(.send ⟨addBoth, rfl⟩ (.ofNat 3) ⟨false, fun _ => true⟩,
      rounds 23 [true, true, true, true, true, false, true, true, true, true]),
    (.send ⟨addBoth, rfl⟩ (.ofNat 3) ⟨true, fun _ => true⟩, rounds 33 (List.replicate 13 true)),
    (.send ⟨addBoth, rfl⟩ (.ofNat 3) ⟨true, fun _ => true⟩, rounds 46 [true])]

theorem added_once_iff_wholeAtOnce :
    ∃ w' pasts, Course oneConnection (.ofNat 1) (.ofNat 1000) bothItems
        (played oneConnection twoItems) (wholeAtOnce.map Prod.fst) pasts w' ∧
      AddedOnce bothItems pasts ∧ NeverRepeated bothItems pasts ∧
      pasts.flatMap (additions bothItems) = [.ofNat 4000, .ofNat 12000] := by
  have hplayed : CanBePlayed wholeAtOnce (fun pasts =>
      pasts.flatMap (additions bothItems) = [.ofNat 4000, .ofNat 12000]) = true := by decide +kernel
  obtain ⟨c, w', pasts, hc, hstatus, hversion, houtcome, hcourse⟩ := course_of_canBePlayed hplayed
  obtain ⟨-, -, honce, hnever⟩ := added_once_iff (played_reachable fun _ _ h => h) hc hcourse
  rw [hstatus, hversion, toWrite_twoItems] at honce hnever
  rw [hversion, toWrite_twoItems] at hcourse
  exact ⟨w', pasts, hcourse, honce.mpr (by decide +kernel), hnever.mpr (by decide +kernel),
    of_decide_eq_true houtcome⟩

/-- The first attempt has the addition of one item accepted, the second one those of both. -/
def partlyThenWhole : List (Event × List Aid) :=
  [(.send ⟨addBoth, rfl⟩ (.ofNat 3) ⟨true, (· = .ofNat 4000)⟩,
      rounds 23 [true, true, true, true, true, true, true, false, true, true, true, true]),
    (.send ⟨addBoth, rfl⟩ (.ofNat 3) ⟨true, fun _ => true⟩, rounds 35 (List.replicate 13 true))]

/-- An item whose addition was accepted in an attempt that failed in part is added again by the next
one. -/
theorem not_added_once : ¬ ∀ (sources : Loading.Sources) (tenant count : Id) (w w' : World)
    (c : Count) (events : List Event) (pasts : List (List Exchange)), Reachable sources nobody w →
      w.store.count? tenant count = some c →
      Course sources tenant count (toWrite w.store count c.currentVersion) w events pasts w' →
      AddedOnce (toWrite w.store count c.currentVersion) pasts := by
  intro h
  have hplayed : CanBePlayed partlyThenWhole (fun pasts =>
      pasts.flatMap (additions bothItems) = [.ofNat 4000, .ofNat 4000, .ofNat 12000]) = true := by
    decide +kernel
  obtain ⟨c, w', pasts, hc, -, hversion, houtcome, hcourse⟩ := course_of_canBePlayed hplayed
  have honce := h _ _ _ _ _ _ _ _ (played_reachable fun _ _ h => h) hc hcourse
  rw [hversion, toWrite_twoItems, AddedOnce, of_decide_eq_true houtcome] at honce
  exact absurd honce (by decide)

end Replay

end Recount.WriteBack
