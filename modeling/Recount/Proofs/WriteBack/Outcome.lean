import Recount.Proofs.WriteBack.Replacing

/-!
# What an attempt comes to

An attempt that finds where to send is recorded once. Its answer and the count agree: the count is
closed just if the session was opened and every statement accepted, and stays as it is otherwise.
The record agrees with them too, but for one case: if no session is opened and nothing was to be
written, no item failed, so the attempt is recorded as a success.
-/

/-! ## What a session transmits

A session that is opened sends one statement for every item that differs and whose report was not
rejected, in the order in which the items are listed. Each statement names the code of its item and
denotes its quantity exactly, and what is recorded of the item tells whether its statement was
accepted. -/

namespace Recount.WriteBack

open Concurrent (Exchange Ending World Reachable nobody)

/-- An item differs, and none of these reports about it was rejected. -/
def IsDue (reports : List Report) (i : Item) : Prop :=
  i.hasVariance = true ∧ ∀ report ∈ reports, report.item = i.id → report.status ≠ .rejected

instance (reports : List Report) (i : Item) : Decidable (IsDue reports i) :=
  inferInstanceAs (Decidable (_ ∧ _))

/-- The items of a version that are due to be written back, in the order of the list of items. -/
def due (s : Store) (count : Id) (version : Int) : List Item :=
  (s.listItems count (some version)).filter (IsDue (s.listReports count (some version)))

/-- A number is what is to be written for an item: the quantity that was counted, or how much it
differs, wherever any quantity denotes that difference. -/
def Denotes (strategy : Strategy) (i : Item) (counted : Decimal) (number : ℚ) : Prop :=
  match strategy with
  | .replace => number = counted.value
  | .add => (∃ x : Decimal, x.value = counted.value - i.systemQty.value) →
      number = counted.value - i.systemQty.value

/-- A statement, with whether it was accepted, writes an item, and a detail tells of it. -/
structure Carries (d : Destination) (strategy : Strategy) (i : Item) (statement : Sql.Query × Bool)
    (detail : WriteDetail) : Prop where
  query : statement.1 = d.target.statement d.dialect strategy i.code detail.value
  parameters : ∃ first, statement.1.parameters = [first, .str i.code] ∧
    number? first = some detail.value.value
  denotes : ∃ counted, i.countedQty = some counted ∧
    Denotes strategy i counted detail.value.value
  item : detail.item = i.id ∧ detail.code = i.code
  success : detail.success = statement.2

section Items

variable {s : Store} {count : Id} {version : Int} {strategy : Strategy} {i : Item}

/-- A rejected report about an item is one of the rejected ones. -/
theorem contains_rejected_iff {reports : List Report} {item : Id} :
    ((reports.filter (·.status = .rejected)).map (·.item)).contains item = true ↔
      ∃ report ∈ reports, report.item = item ∧ report.status = .rejected := by
  simp only [List.contains_iff_mem, List.mem_map, List.mem_filter, decide_eq_true_eq]
  constructor
  · rintro ⟨report, ⟨hreport, hrejected⟩, hitem⟩
    exact ⟨report, hreport, hitem, hrejected⟩
  · rintro ⟨report, hreport, hitem, hrejected⟩
    exact ⟨report, ⟨hreport, hrejected⟩, hitem⟩

/-- Of consistent items, those are written that are due: an item that differs was counted. -/
theorem itemsToWrite_eq_filter {items : List Item} {reports : List Report}
    (hitems : ∀ i ∈ items, i.Consistent) :
    itemsToWrite items reports = items.filter (IsDue reports) := by
  unfold itemsToWrite
  refine List.filter_congr fun i hi => ?_
  have hcounted : i.hasVariance = true → i.countedQty.isSome = true := by
    intro hvariance
    cases hqty : i.countedQty with
    | none =>
      have hnone := ((hitems i hi).of_none hqty).2.2
      rw [hvariance] at hnone
      cases hnone
    | some counted => rfl
  rw [Bool.eq_iff_iff, decide_eq_true_iff, Bool.and_eq_true, Bool.and_eq_true, Bool.not_eq_true',
    ← Bool.not_eq_true, contains_rejected_iff]
  constructor
  · rintro ⟨⟨hvariance, -⟩, hnone⟩
    exact ⟨hvariance, fun report hreport hitem hrejected =>
      hnone ⟨report, hreport, hitem, hrejected⟩⟩
  · rintro ⟨hvariance, hreports⟩
    refine ⟨⟨hvariance, hcounted hvariance⟩, ?_⟩
    rintro ⟨report, hreport, hitem, hrejected⟩
    exact hreports report hreport hitem hrejected

theorem toWrite_eq_due (hs : s.Sound) : toWrite s count version = due s count version :=
  itemsToWrite_eq_filter fun i hi => (hs.listItems.2 i hi).2.2

/-- The value that is written for an item denotes what is to be written. -/
theorem denotes_valueFor (hs : s.Sound) (hi : i ∈ toWrite s count version) :
    ∃ counted, i.countedQty = some counted ∧
      Denotes strategy i counted (valueFor strategy i).value := by
  cases strategy with
  | replace => exact ⟨_, countedQty_of_mem_itemsToWrite hi, rfl⟩
  | add =>
    obtain ⟨counted, hcounted, hdifference⟩ := valueFor_add hs hi
    exact ⟨counted, hcounted, Decimal.sub_value hdifference⟩

/-- The statement for an item carries it, whatever the answer is. -/
theorem carries_written {d : Destination} {answer : Except Error (List Row)} (hs : s.Sound)
    (hi : i ∈ toWrite s count version) :
    Carries d strategy i (written d.dialect d.target strategy i answer)
      (recorded strategy i answer) := by
  have hvalue : (recorded strategy i answer).value = valueFor strategy i := by
    cases answer <;> rfl
  exact {
    query := by rw [hvalue]; rfl
    parameters := ⟨_, rfl, by rw [hvalue]; exact number?_toParameter _⟩
    denotes := by rw [hvalue]; exact denotes_valueFor hs hi
    item := by cases answer <;> exact ⟨rfl, rfl⟩
    success := by cases answer <;> rfl }

end Items

/-- Items that have a property for every answer have it with their answers. -/
theorem forall₂_zip_zipWith {α β γ δ : Type} {R : α → γ × δ → Prop} {f : α → β → γ} {g : α → β → δ}
    {items : List α} {answers : List β} (hlength : answers.length = items.length)
    (h : ∀ i ∈ items, ∀ answer, R i (f i answer, g i answer)) :
    List.Forall₂ R items ((List.zipWith f items answers).zip (List.zipWith g items answers)) := by
  induction items generalizing answers with
  | nil => exact .nil
  | cons i items ih =>
    obtain _ | ⟨answer, answers⟩ := answers
    · cases hlength
    · have hothers := ih (Nat.succ.inj hlength) fun j hj => h j (List.mem_cons_of_mem i hj)
      exact .cons (h i List.mem_cons_self answer) hothers

variable {connections : Erp.Connections} {sources : Loading.Sources} {w : World}
  {tenant count actor : Id} {default : Option Id} {r : SendRequest} {c : Count} {d : Destination}
  {ending : Ending SendOutcome} {σ : Concurrent.Scene}

/-- An attempt that opens a session sends a statement for every item that is due and for no other
one, in the order of the items, whatever was answered before, and records what became of each. -/
theorem variances_sent (hw : Reachable sources nobody w)
    (hc : w.store.count? tenant count = some c) (hstatus : c.status = .completed)
    (hd : destination? connections w.store tenant default r = some d)
    (hrun : (send connections default tenant count r actor).Runs ⟨w.store, w.drawn, []⟩ ending σ)
    (hopened : openings σ.past = [true]) :
    ∃ a, σ.store.attempts = w.store.attempts ++ [a] ∧ a.count = count ∧
      a.version = c.currentVersion ∧
      (sent σ.past).length = a.details.length ∧
      List.Forall₂ (fun i entry => Carries d r.strategy i entry.1 entry.2)
        (due w.store count c.currentVersion) ((sent σ.past).zip a.details) := by
  have hs := hw.sound.store
  obtain ⟨-, rfl, -⟩ := Store.count?_eq_some hc
  cases Action.leads_iff_runs.mp (leads_send hc hs) ending σ hrun with
  | refused hwhy =>
    have hnone := hwhy hstatus
    rw [hd] at hnone
    cases hnone
  | unopened _ _ hopenings =>
    rw [hopened] at hopenings
    cases hopenings
  | @held d' answers _ hplace _ hlength hsent a hattempt now hending hstore =>
    rw [hd] at hplace
    cases hplace
    obtain ⟨id, started, completed, rfl⟩ := hattempt
    let details := List.zipWith (recorded r.strategy) (toWrite w.store c.id c.currentVersion) answers
    refine ⟨attemptOf c r.strategy details actor id started completed, ?_, rfl, rfl, ?_, ?_⟩
    · rw [hstore]
      split <;> rfl
    · rw [hsent]
      simp [attemptOf, details]
    · rw [hsent, ← toWrite_eq_due hs]
      exact forall₂_zip_zipWith hlength fun i hi answer => carries_written hs hi

section Replay

open Concurrent (Aid played played_reachable)

/-- The first count is sent alone after some moves, which comes to an end with this outcome. -/
def SendsAlone (moves : List Concurrent.Move) (r : SendRequest) (aids : List Aid)
    (outcome : World → List Exchange → Bool) : Bool :=
  ((played oneConnection moves).alone? oneConnection
    (.send (.ofNat 1) (.ofNat 1000) r (.ofNat 3)) aids).any fun (w, past) => outcome w past

/-- A sending that is played is a run of its action. -/
theorem exists_runs_of_sendsAlone {moves : List Concurrent.Move} {r : SendRequest} {aids : List Aid}
    {outcome : World → List Exchange → Bool} (h : SendsAlone moves r aids outcome = true) :
    ∃ w' ending drawn past, outcome w' past = true ∧
      (send oneConnection.connections none (.ofNat 1) (.ofNat 1000) r (.ofNat 3)).Runs
        ⟨(played oneConnection moves).store, (played oneConnection moves).drawn, []⟩ ending
        ⟨w'.store, drawn, past⟩ := by
  obtain ⟨⟨w', past⟩, halone, houtcome⟩ := (Option.any_eq_true _ _).mp h
  obtain ⟨ending, drawn, hrun⟩ := Action.exists_runs (World.alone?_runsAlone halone) rfl
  exact ⟨w', ending, drawn, past, houtcome, hrun⟩

/-- The second item is sent although the planning system fails at the first one. -/
theorem variances_sent_firstFails :
    ∃ ending σ a, (send oneConnection.connections none (.ofNat 1) (.ofNat 1000) addBoth
        (.ofNat 3)).Runs ⟨(played oneConnection twoItems).store,
          (played oneConnection twoItems).drawn, []⟩ ending σ ∧
      (sent σ.past).map (·.2) = [false, true] ∧
      σ.store.attempts = (played oneConnection twoItems).store.attempts ++ [a] ∧
      List.Forall₂ (fun i entry => Carries ⟨⟨"stock", "qty", "code"⟩, .ofNat 9, .postgres⟩ .add i
          entry.1 entry.2)
        (due (played oneConnection twoItems).store (.ofNat 1000) 1)
        ((sent σ.past).zip a.details) := by
  have hplayed : SendsAlone twoItems addBoth
      (rounds 23 [true, true, true, true, true, true, false, true, true, true, true, true])
      (fun _ past => openings past = [true] ∧ (sent past).map (·.2) = [false, true]) = true := by
    decide +kernel
  have hcount : ((played oneConnection twoItems).store.count? (.ofNat 1) (.ofNat 1000)).any
      (fun c => c.status = .completed ∧ c.currentVersion = 1) = true := by decide +kernel
  obtain ⟨w', ending, drawn, past, houtcome, hrun⟩ := exists_runs_of_sendsAlone hplayed
  obtain ⟨hopened, haccepted⟩ := of_decide_eq_true houtcome
  obtain ⟨c, hc, hchecked⟩ := (Option.any_eq_true _ _).mp hcount
  obtain ⟨hstatus, hversion⟩ := of_decide_eq_true hchecked
  obtain ⟨a, hattempts, -, -, -, hcarries⟩ := variances_sent (played_reachable fun _ _ h => h) hc
    hstatus (d := ⟨⟨"stock", "qty", "code"⟩, .ofNat 9, .postgres⟩) (by decide +kernel) hrun hopened
  rw [hversion] at hcarries
  exact ⟨ending, _, a, hrun, haccepted, hattempts, hcarries⟩

end Replay

end Recount.WriteBack

/-! ## What is recorded -/

namespace Recount.WriteBack

open Concurrent (World Reachable nobody Scene Ending)

namespace IsAttempt

variable {c : Count} {strategy : Strategy} {details : List WriteDetail} {actor : Id} {a : Attempt}

theorem count_eq (h : IsAttempt c strategy details actor a) : a.count = c.id := by
  obtain ⟨id, started, completed, rfl⟩ := h
  rfl

/-- Every item of an attempt was either written or not. -/
theorem written_add_failed (h : IsAttempt c strategy details actor a) :
    a.written + a.failed = a.details.length := by
  obtain ⟨id, started, completed, rfl⟩ := h
  have hle : details.countP (·.success) ≤ details.length := List.countP_le_length
  simp only [attemptOf]
  omega

theorem failed_eq_zero_iff (h : IsAttempt c strategy details actor a) :
    a.failed = 0 ↔ details.all (·.success) = true := by
  obtain ⟨id, started, completed, rfl⟩ := h
  exact attemptOf_failed_eq_zero_iff

/-- An attempt is a success just if every item was written, also if there was none. -/
theorem status_eq_success_iff (h : IsAttempt c strategy details actor a) :
    a.status = .success ↔ details.all (·.success) = true := by
  rw [← h.failed_eq_zero_iff]
  obtain ⟨id, started, completed, rfl⟩ := h
  simp only [attemptOf, AttemptStatus.ofCounts, Nat.cast_eq_zero]
  split
  · next hnone => exact iff_of_true rfl hnone
  · next hsome =>
    refine iff_of_false ?_ hsome
    split <;> exact AttemptStatus.noConfusion

end IsAttempt

/-- The record, the answer and the count after an attempt agree as far as they do. -/
structure Agree (s : Store) (c : Count) (ending : Ending SendOutcome) (σ : Scene) (a : Attempt)
    (c' : Count) : Prop where
  attempts : σ.store.attempts = s.attempts ++ [a]
  count : a.count = c.id
  total : a.written + a.failed = a.details.length
  found : σ.store.count? c.tenant c.id = some c'
  closed : c'.status = .closed ∨ c' = c
  answer : (∃ o, ending = .success o ∧ o.attempt.failed = 0) ↔ c'.status = .closed
  closed_iff : c'.status = .closed ↔
    openings σ.past = [true] ∧ ∀ statement ∈ sent σ.past, statement.2 = true
  recorded : (a.status = .success ↔ c'.status = .closed) ↔
    openings σ.past = [true] ∨ due s c.id c.currentVersion ≠ []

/-- Every statement was accepted just if every answer accepts. -/
theorem all_written {dialect : Sql.Dialect} {target : Target} {strategy : Strategy}
    {items : List Item} {answers : List (Except Error (List Row))}
    (hlength : answers.length = items.length) :
    (List.zipWith (written dialect target strategy) items answers).all (·.2) =
      answers.all (·.isOk) :=
  all_zipWith (p := Prod.snd) (q := Except.isOk) (fun _ _ => rfl) hlength

section Cases

variable {s : Store} {c : Count} {strategy : Strategy} {actor : Id} {place : Option Destination}
  {ending : Ending SendOutcome} {σ : Scene} {a : Attempt}

/-- Where no session could be opened, the record disagrees just if there was nothing to write. -/
theorem agree_unopened {e : Error} (hc : s.count? c.tenant c.id = some c)
    (hstatus : c.status = .completed) (hs : s.Sound) (hopenings : openings σ.past = [false])
    (hattempt : IsAttempt c strategy
      ((toWrite s c.id c.currentVersion).map fun i => recorded strategy i (.error e)) actor a)
    (hending : ending = .failure e) (hstore : σ.store = s.addAttempt a) :
    Agree s c ending σ a c := by
  have hopen : c.status ≠ .closed := by simp [hstatus]
  have hnot : openings σ.past ≠ [true] := by simp [hopenings]
  have hsuccess : ((toWrite s c.id c.currentVersion).map fun i =>
      recorded strategy i (.error e)).all (·.success) = true ↔
      due s c.id c.currentVersion = [] := by
    rw [← toWrite_eq_due hs, List.all_map]
    cases toWrite s c.id c.currentVersion with
    | nil => exact iff_of_true rfl rfl
    | cons i items => exact iff_of_false (by simp [recorded, detailOf]) (List.cons_ne_nil i items)
  exact {
    attempts := by rw [hstore]; rfl
    count := hattempt.count_eq
    total := hattempt.written_add_failed
    found := by rw [hstore]; exact hc
    closed := .inr rfl
    answer := iff_of_false (by rintro ⟨o, ho, -⟩; rw [hending] at ho; cases ho) hopen
    closed_iff := iff_of_false hopen fun h => hnot h.1
    recorded := by
      rw [hattempt.status_eq_success_iff, hsuccess, or_iff_right hnot, iff_false_right hopen] }

/-- After a session that was opened, all agree. -/
theorem agree_held {d : Destination} {answers : List (Except Error (List Row))} {now : Time}
    (hc : s.count? c.tenant c.id = some c) (hstatus : c.status = .completed)
    (hopenings : openings σ.past = [true])
    (hlength : answers.length = (toWrite s c.id c.currentVersion).length)
    (hsent : sent σ.past = List.zipWith (written d.dialect d.target strategy)
      (toWrite s c.id c.currentVersion) answers)
    (hattempt : IsAttempt c strategy (List.zipWith (recorded strategy)
      (toWrite s c.id c.currentVersion) answers) actor a)
    (hending : ending = .success ⟨a, if answers.all (·.isOk) then closedBy c actor now else c⟩)
    (hstore : σ.store = if answers.all (·.isOk) then (s.addAttempt a).putCount (closedBy c actor now)
      else s.addAttempt a) :
    Agree s c ending σ a (if answers.all (·.isOk) then closedBy c actor now else c) := by
  have hopen : c.status ≠ .closed := by simp [hstatus]
  have hfailed : a.failed = 0 ↔ answers.all (·.isOk) = true := by
    rw [hattempt.failed_eq_zero_iff, all_recorded hlength]
  have haccepted : (∀ statement ∈ sent σ.past, statement.2 = true) ↔
      answers.all (·.isOk) = true := by
    rw [hsent, ← List.all_eq_true, all_written hlength]
  have hclosed : (if answers.all (·.isOk) then closedBy c actor now else c).status = .closed ↔
      answers.all (·.isOk) = true := by
    split
    · next hall => exact iff_of_true rfl hall
    · next hsome => exact iff_of_false hopen hsome
  exact {
    attempts := by rw [hstore]; split <;> rfl
    count := hattempt.count_eq
    total := hattempt.written_add_failed
    found := by
      rw [hstore]
      split
      · exact Store.count?_putCount hc closedBy_same.1 closedBy_same.2.1
      · exact hc
    closed := by
      split
      · exact .inl rfl
      · exact .inr rfl
    answer := by
      rw [hclosed, ← hfailed, hending]
      constructor
      · rintro ⟨o, ho, hzero⟩
        cases ho
        exact hzero
      · exact fun hzero => ⟨_, rfl, hzero⟩
    closed_iff := by rw [hclosed, and_iff_right hopenings, haccepted]
    recorded := by
      refine iff_of_true ?_ (.inl hopenings)
      rw [hclosed, hattempt.status_eq_success_iff, all_recorded hlength] }

end Cases

variable {connections : Erp.Connections} {sources : Loading.Sources} {w : World}
  {tenant count actor : Id} {default : Option Id} {r : SendRequest} {c : Count} {d : Destination}
  {ending : Ending SendOutcome} {σ : Scene}

/-- An attempt that finds where to send is recorded once, and the record, the answer and the count
agree, but for a record of success where no session was opened and nothing was due. -/
theorem outcome_agrees (hw : Reachable sources nobody w)
    (hc : w.store.count? tenant count = some c) (hstatus : c.status = .completed)
    (hd : destination? connections w.store tenant default r = some d)
    (hrun : (send connections default tenant count r actor).Runs ⟨w.store, w.drawn, []⟩ ending σ) :
    ∃ a c', Agree w.store c ending σ a c' := by
  have hs := hw.sound.store
  obtain ⟨-, rfl, rfl⟩ := Store.count?_eq_some hc
  cases Action.leads_iff_runs.mp (leads_send hc hs) ending σ hrun with
  | refused hwhy =>
    have hnone := hwhy hstatus
    rw [hd] at hnone
    cases hnone
  | unopened _ _ hopenings hattempt hending hstore =>
    exact ⟨_, c, agree_unopened hc hstatus hs hopenings hattempt hending hstore⟩
  | held _ _ hopenings hlength hsent hattempt now hending hstore =>
    exact ⟨_, _, agree_held hc hstatus hopenings hlength hsent hattempt hending hstore⟩

section Replay

open Concurrent (Move played played_reachable newCount goOn)

/-- Both statements are accepted, so the count is closed and a success is recorded. -/
theorem outcome_agrees_bothAccepted :
    ∃ ending σ a c c', (played oneConnection twoItems).store.count? (.ofNat 1) (.ofNat 1000) =
        some c ∧
      (send oneConnection.connections none (.ofNat 1) (.ofNat 1000) addBoth (.ofNat 3)).Runs
        ⟨(played oneConnection twoItems).store, (played oneConnection twoItems).drawn, []⟩ ending σ ∧
      Agree (played oneConnection twoItems).store c ending σ a c' ∧
      c'.status = .closed ∧ a.status = .success := by
  have hplayed : SendsAlone twoItems addBoth (rounds 23 (List.replicate 13 true)) (fun _ past =>
      openings past = [true] ∧ ∀ statement ∈ sent past, statement.2 = true) = true := by
    decide +kernel
  have hcount : ((played oneConnection twoItems).store.count? (.ofNat 1) (.ofNat 1000)).any
      (fun c => c.status = .completed) = true := by decide +kernel
  obtain ⟨w', ending, drawn, past, houtcome, hrun⟩ := exists_runs_of_sendsAlone hplayed
  obtain ⟨hopened, haccepted⟩ := of_decide_eq_true houtcome
  obtain ⟨c, hc, hchecked⟩ := (Option.any_eq_true _ _).mp hcount
  obtain ⟨a, c', hagree⟩ := outcome_agrees (played_reachable fun _ _ h => h) hc
    (of_decide_eq_true hchecked) (d := ⟨⟨"stock", "qty", "code"⟩, .ofNat 9, .postgres⟩)
    (by decide +kernel) hrun
  have hclosed : c'.status = .closed := hagree.closed_iff.mpr ⟨hopened, haccepted⟩
  exact ⟨ending, _, a, c, c', hc, hrun, hagree, hclosed,
    (hagree.recorded.mpr (.inl hopened)).mpr hclosed⟩

/-- A count without items is completed and approved. -/
def noItems : List Move :=
  .begin newCount :: goOn 1 0 1 ++
    .begin (.completeCount (.ofNat 1) (.ofNat 1000) (.ofNat 3)) :: goOn 2 1 3 ++
    .begin (.changeStage (.ofNat 1) (.ofNat 1000) ⟨.finalize, finalize_mem_stageChanges⟩ (.ofNat 3)) ::
      goOn 5 2 2

/-- An attempt whose session is not opened is recorded as a success if there was nothing to write,
while its answer is a failure and the count is not closed. -/
theorem not_outcome_agrees : ¬ ∀ (connections : Erp.Connections) (sources : Loading.Sources)
    (w : World) (tenant count actor : Id) (default : Option Id) (r : SendRequest) (c : Count)
    (d : Destination) (ending : Ending SendOutcome) (σ : Scene), Reachable sources nobody w →
      w.store.count? tenant count = some c → c.status = .completed →
      destination? connections w.store tenant default r = some d →
      (send connections default tenant count r actor).Runs ⟨w.store, w.drawn, []⟩ ending σ →
      ∃ (a : Attempt) (c' : Count), σ.store.attempts = w.store.attempts ++ [a] ∧
        a.written + a.failed = a.details.length ∧ σ.store.count? tenant count = some c' ∧
        (a.status = .success ↔ ∃ o, ending = .success o ∧ o.attempt.failed = 0) ∧
        (a.status = .success ↔ c'.status = .closed) ∧
        (c'.status ≠ .closed → c'.status = .completed) := by
  intro h
  have hplayed : SendsAlone noItems addBoth
      (rounds 7 [true, true, true, true, true, false, true, true, true, true]) (fun w _ =>
      (w.store.count? (.ofNat 1) (.ofNat 1000)).all (·.status = .completed) ∧
        w.store.attempts.all (·.status = .success) = true) = true := by
    decide +kernel
  have hcount : ((played oneConnection noItems).store.count? (.ofNat 1) (.ofNat 1000)).any
      (fun c => c.status = .completed) = true := by decide +kernel
  obtain ⟨w', ending, drawn, past, houtcome, hrun⟩ := exists_runs_of_sendsAlone hplayed
  obtain ⟨hstays, hrecorded⟩ := of_decide_eq_true houtcome
  obtain ⟨c, hc, hchecked⟩ := (Option.any_eq_true _ _).mp hcount
  obtain ⟨a, c', hattempts, -, hc', -, hagree, -⟩ := h _ oneConnection _ _ _ _ _ _ c
    ⟨⟨"stock", "qty", "code"⟩, .ofNat 9, .postgres⟩ ending _ (played_reachable fun _ _ h => h) hc
    (of_decide_eq_true hchecked) (by decide +kernel) hrun
  have hattempts : w'.store.attempts = _ := hattempts
  have hc' : w'.store.count? (.ofNat 1) (.ofNat 1000) = some c' := hc'
  have hsuccess : a.status = .success := by
    rw [hattempts, List.all_append, Bool.and_eq_true] at hrecorded
    simpa using hrecorded.2
  have hcompleted : c'.status = .completed := by
    rw [hc'] at hstays
    exact of_decide_eq_true hstays
  have hclosed := hagree.mp hsuccess
  rw [hcompleted] at hclosed
  cases hclosed

end Replay

end Recount.WriteBack
