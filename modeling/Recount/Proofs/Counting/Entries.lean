import Recount.Proofs.Counting.Recording

/-!
# Entries

What is recorded of an entry is told without times: then it is a function of the entry and of the
store, and the same for an entry of a batch and for one that is sent alone.
-/

/-! ## Stores without times

What was recorded is followed in a store in which no time is told and no identifier that was drawn
on the way. There it is a function of the entry. -/

namespace Recount

/-- An item without the times at which it was counted and changed. -/
def Item.untimed (i : Item) : Item :=
  { i.unstamped with countedAt := i.countedAt.map fun _ => default }

/-- A report without its times, and without an identifier that is not known. -/
def Report.untimed (known : List Id) (q : Report) : Report :=
  { q.unstamped with id := if q.id ∈ known then q.id else .nil, createdAt := default }

/-- A store without times and without the identifiers of reports that are not known. -/
def Store.untimed (known : List Id) (s : Store) : Store :=
  { s with items := s.items.map Item.untimed, reports := s.reports.map (Report.untimed known) }

/-- A report takes the place of another one. -/
def Report.replaces (r old : Report) : Bool := old.item = r.item && old.version = r.version

/-- A report with the identity of the one that it replaces. -/
def Report.inPlaceOf (r old : Report) : Report :=
  { r with id := old.id, createdAt := old.createdAt }

/-- Places a report where it replaces another one, or at the end. -/
def Report.place (r : Report) : List Report → List Report
  | [] => [r]
  | q :: rest => if r.replaces q then r.inPlaceOf q :: rest else q :: r.place rest

/-- A report waits for the item to be settled. -/
def Report.isPendingOf (i : Item) (q : Report) : Bool :=
  q.item = i.id && q.version = i.version && q.status = .pending

/-- Stores an item in the place of the one with its identifier, with its report. -/
def Store.replace (s : Store) (i : Item) (report : Option Report) : Store :=
  { s with
    items := putBy Item.id i s.items
    reports := report.elim (s.reports.filter fun q => !q.isPendingOf i) (·.place s.reports) }

variable {s : Store} {i j : Item} {r : Report} {report : Option Report} {reports : List Report}
  {known : List Id}

/-- A report with a new identifier is put where it replaces another one. -/
theorem putBy_inPlaceOf (hnodup : (reports.map Report.id).Nodup)
    (hnew : r.id ∉ reports.map Report.id) :
    putBy Report.id ((reports.find? r.replaces).elim r r.inPlaceOf) reports = r.place reports := by
  induction reports with
  | nil => rfl
  | cons q rest ih =>
    obtain ⟨hq, hrest⟩ := List.nodup_cons.mp hnodup
    obtain ⟨hne, hnew⟩ := not_or.mp fun h => hnew (List.mem_cons.mpr h)
    rw [Report.place]
    by_cases hreplaces : r.replaces q = true
    · rw [List.find?_cons_of_pos hreplaces, if_pos hreplaces]
      exact if_pos rfl
    · rw [List.find?_cons_of_neg hreplaces, if_neg hreplaces, ← ih hrest hnew]
      refine if_neg fun hid => ?_
      cases hfind : rest.find? r.replaces with
      | none =>
        rw [hfind] at hid
        exact hne hid.symm
      | some old =>
        rw [hfind] at hid
        have hid : q.id = old.id := hid
        exact hq (hid ▸ List.mem_map_of_mem (List.mem_of_find?_eq_some hfind))

theorem changeReport_eq_replace (hnodup : (s.reports.map Report.id).Nodup)
    (hnew : ∀ r ∈ report, r.id ∉ s.reports.map Report.id) :
    (s.putItem i).changeReport i (.ofReport? report) = s.replace i report := by
  cases report with
  | none => rfl
  | some r =>
    have hadopted : s.adopted r = (s.reports.find? r.replaces).elim r r.inPlaceOf := by
      have hreplaces : r.replaces = fun old => old.item = r.item && old.version = r.version := rfl
      rw [hreplaces]
      unfold Store.adopted
      cases s.reports.find? fun old => old.item = r.item && old.version = r.version <;> rfl
    unfold Store.replace
    rw [Option.elim_some, ← putBy_inPlaceOf hnodup (hnew r rfl), ← hadopted]
    rfl

/-! What is stored does not depend on times. -/

section Untimed

theorem putBy_map {α : Type} {id : α → Id} {f : α → α} (hf : ∀ a, id (f a) = id a) {a : α}
    {l : List α} : (putBy id a l).map f = putBy id (f a) (l.map f) := by
  induction l with
  | nil => rfl
  | cons b l ih =>
    rw [List.map_cons, putBy, putBy, hf, hf]
    split
    · rfl
    · rw [List.map_cons, ih]

theorem place_map : (r.place reports).map (Report.untimed known) =
    (r.untimed known).place (reports.map (Report.untimed known)) := by
  induction reports with
  | nil => rfl
  | cons q rest ih =>
    have hreplaces : (r.untimed known).replaces (q.untimed known) = r.replaces q := rfl
    rw [List.map_cons, Report.place, Report.place, hreplaces]
    split
    · rfl
    · rw [List.map_cons, ih]

theorem untimed_replace : (s.replace i report).untimed known =
    (s.untimed known).replace i.untimed (report.map (Report.untimed known)) := by
  have hitems : (putBy Item.id i s.items).map Item.untimed =
      putBy Item.id i.untimed (s.items.map Item.untimed) :=
    @putBy_map _ _ Item.untimed (fun _ => rfl) _ _
  unfold Store.untimed Store.replace
  dsimp only
  rw [hitems]
  cases report with
  | none => rw [Option.map_none, Option.elim_none, Option.elim_none, List.filter_map]; rfl
  | some r => rw [Option.map_some, Option.elim_some, Option.elim_some, place_map]

theorem item?_untimed {count id : Id} :
    (s.untimed known).item? count id = (s.item? count id).map Item.untimed := by
  unfold Store.item? Store.untimed
  dsimp only
  rw [List.find?_map, Option.filter_map]
  rfl

theorem withCounted_untimed {counted : Decimal} :
    i.untimed.withCounted counted = (i.withCounted counted).map Item.untimed := by
  unfold Item.withCounted
  change counted.sub i.systemQty >>= _ = _
  cases counted.sub i.systemQty with
  | error o => rfl
  | ok difference =>
    change variancePercent i.systemQty counted >>= _ =
      (variancePercent i.systemQty counted >>= _).map _
    cases variancePercent i.systemQty counted <;> rfl

/-- A report that is opened at some time, with an identifier that is not known. -/
theorem report?_untimed {id : Id} {now : Time} (hid : id ∉ known)
    (h : i.report? id now = .ok report) :
    i.untimed.report? .nil default = .ok (report.map (Report.untimed known)) := by
  have hvariance : i.untimed.hasVariance = i.hasVariance := rfl
  have hcounted : i.untimed.countedQty = i.countedQty := rfl
  unfold Item.report? at h ⊢
  rw [hvariance, hcounted]
  match hv : i.hasVariance, hc : i.countedQty with
  | true, some counted =>
    rw [hv, hc] at h
    obtain ⟨difference, hdifference, h⟩ := bind_eq_ok_iff.mp h
    obtain ⟨percent, hpercent, h⟩ := bind_eq_ok_iff.mp h
    cases h
    refine bind_eq_ok_iff.mpr ⟨difference, hdifference, bind_eq_ok_iff.mpr ⟨percent, hpercent, ?_⟩⟩
    rw [Option.map_some, Report.untimed, if_neg hid]
    rfl
  | true, none | false, _ =>
    rw [hv, hc] at h
    cases h
    rfl

end Untimed

/-- The identifiers of the reports differ, and were drawn. -/
structure Store.Apart (s : Store) (drawn : List Id) : Prop where
  nodup : (s.reports.map Report.id).Nodup
  drawn : ∀ q ∈ s.reports, q.id ∈ drawn

theorem map_id_place : (r.place reports).map Report.id = reports.map Report.id ∨
    (r.place reports).map Report.id = reports.map Report.id ++ [r.id] := by
  induction reports with
  | nil => exact .inr rfl
  | cons q rest ih =>
    rw [Report.place]
    split
    · exact .inl rfl
    · exact ih.imp (congrArg (q.id :: ·)) (congrArg (q.id :: ·))

/-- A report with a new identifier comes to those that are there. -/
theorem Store.Apart.replace {drawn drawn' : List Id} (h : s.Apart drawn)
    (hdrawn : ∀ id ∈ drawn, id ∈ drawn') (hnew : ∀ r ∈ report, r.id ∉ drawn ∧ r.id ∈ drawn') :
    (s.replace i report).Apart drawn' := by
  have hold : ∀ q ∈ s.reports, q.id ∈ drawn' := fun q hq => hdrawn q.id (h.drawn q hq)
  cases report with
  | none =>
    exact ⟨nodup_map_filter _ h.nodup, fun q hq => hold q (List.mem_of_mem_filter hq)⟩
  | some r =>
    obtain ⟨hfresh, hnow⟩ := hnew r rfl
    have hids : ∀ id ∈ s.reports.map Report.id, id ∈ drawn' := List.forall_mem_map.mpr hold
    rcases @map_id_place r s.reports with hplace | hplace
    · refine ⟨?_, List.forall_mem_map.mp ?_⟩
      · change ((r.place s.reports).map Report.id).Nodup
        rw [hplace]
        exact h.nodup
      · change ∀ id ∈ (r.place s.reports).map Report.id, id ∈ drawn'
        rw [hplace]
        exact hids
    · have hnot : r.id ∉ s.reports.map Report.id := fun hmem => by
        obtain ⟨q, hq, heq⟩ := List.mem_map.mp hmem
        exact hfresh (heq ▸ h.drawn q hq)
      refine ⟨?_, List.forall_mem_map.mp ?_⟩
      · change ((r.place s.reports).map Report.id).Nodup
        rw [hplace, ← List.concat_eq_append]
        exact h.nodup.concat hnot
      · change ∀ id ∈ (r.place s.reports).map Report.id, id ∈ drawn'
        rw [hplace, List.forall_mem_append]
        exact ⟨hids, List.forall_mem_singleton.mpr hnow⟩

end Recount

/-! ## Entries

An entry is recorded, refused or without a variance, and it is the same for an entry of a batch and
for one that is sent alone. -/

namespace Recount

open Counting (enteredBy)

variable {s s' : Store} {i j : Item} {report : Option Report} {known : List Id} {c : Count}
  {actor : Id} {entry : CountEntry} {counted : Decimal} {time opened now : Time} {id : Id}

/-- An entry is about an item of the current version, and its quantity is not negative. -/
def Store.accepts (s : Store) (c : Count) (entry : CountEntry) : Bool :=
  (s.item? c.id entry.item).any fun i =>
    i.version = c.currentVersion && !entry.counted.isNegative

/-- An item with a quantity, and its report. -/
def Item.noted (i : Item) (counted : Decimal) (actor : Id) :
    Except Overflow (Item × Option Report) := do
  let j ← i.withCounted counted
  let report ← (enteredBy actor default j).report? .nil default
  .ok (enteredBy actor default j, report)

/-- A store without times, in which an entry is recorded if it is accepted. -/
def Store.noted (c : Count) (actor : Id) (s : Store) (entry : CountEntry) : Store :=
  if s.accepts c entry then
    match (s.item? c.id entry.item).map fun i => i.noted entry.counted actor with
    | some (Except.ok (i, report)) => s.replace i report
    | _ => s
  else s

theorem accepts_eq_true_iff : s.accepts c entry = true ↔ entry.counted.isNegative = false ∧
    ∃ i, s.item? c.id entry.item = some i ∧ i.version = c.currentVersion := by
  unfold Store.accepts
  cases s.item? c.id entry.item with
  | none => simp
  | some i => simp [and_comm]

theorem accepts_untimed : (s.untimed known).accepts c entry = s.accepts c entry := by
  unfold Store.accepts
  rw [item?_untimed, Option.any_map]
  rfl

theorem noted_of_not_accepts (h : s.accepts c entry = false) :
    (s.untimed known).noted c actor entry = s.untimed known := by
  unfold Store.noted
  rw [if_neg (by rw [accepts_untimed, h]; simp)]

/-- What is recorded of an item is noted of it without times. -/
theorem noted_of_accepts (haccepts : s.accepts c entry = true)
    (hi : s.item? c.id entry.item = some i) (hj : i.withCounted entry.counted = .ok j)
    (hreport : (enteredBy actor time j).report? id opened = .ok report) (hid : id ∉ known) :
    (s.replace { enteredBy actor time j with updatedAt := now } report).untimed known =
      (s.untimed known).noted c actor entry := by
  have hnoted : i.untimed.noted entry.counted actor =
      .ok (enteredBy actor default j.untimed, report.map (Report.untimed known)) := by
    refine bind_eq_ok_iff.mpr ⟨j.untimed, ?_, bind_eq_ok_iff.mpr ⟨_, ?_, rfl⟩⟩
    · rw [withCounted_untimed, hj]
      rfl
    · exact report?_untimed hid hreport
  unfold Store.noted
  rw [if_pos (accepts_untimed.trans haccepts), item?_untimed, hi, Option.map_some, Option.map_some,
    hnoted, untimed_replace]
  rfl

namespace Counting

open Concurrent (Scene Ending)

variable {tenant count : Id} {σ σ' σ'' : Scene}

theorem Measured.accepts (h : Measured s s') : s'.accepts c entry = s.accepts c entry := by
  have hmeasured : ∀ s : Store, s.accepts c entry =
      ((s.items.find? (·.id = entry.item)).map fun i => (i.count, i.version, i.systemQty)).any
        fun i => i.1 = c.id && (i.2.1 = c.currentVersion && !entry.counted.isNegative) := by
    intro s
    unfold Store.accepts Store.item?
    rw [Option.any_map, Option.any_filter]
  rw [hmeasured, hmeasured, h entry.item]

/-- The counts and the items are as they were, but for what was counted, and the reports are told
apart. -/
structure Steady (σ σ' : Scene) : Prop where
  apart : σ'.store.Apart σ'.drawn
  drawn : ∀ id ∈ σ.drawn, id ∈ σ'.drawn
  counts : σ'.store.counts = σ.store.counts
  measured : Measured σ.store σ'.store

theorem Measured.trans {s'' : Store} (h : Measured s s') (h' : Measured s' s'') : Measured s s'' :=
  fun id => (h' id).trans (h id)

theorem Steady.trans (h : Steady σ σ') (h' : Steady σ' σ'') : Steady σ σ'' where
  apart := h'.apart
  drawn id hid := h'.drawn id (h.drawn id hid)
  counts := h'.counts.trans h.counts
  measured := h.measured.trans h'.measured

theorem Idle.refl (σ : Scene) : Idle σ σ := ⟨rfl, fun _ hid => hid⟩

theorem Idle.steady (h : Idle σ σ') (hσ : σ.store.Apart σ.drawn) : Steady σ σ' where
  apart := by
    rw [h.store]
    exact ⟨hσ.nodup, fun q hq => h.drawn q.id (hσ.drawn q hq)⟩
  drawn := h.drawn
  counts := by rw [h.store]
  measured id := by rw [h.store]

theorem Editable.of_counts (h : Editable s tenant count c) (hcounts : s'.counts = s.counts) :
    Editable s' tenant count c := by
  refine ⟨?_, h.2⟩
  rw [← h.1, Store.count?, Store.count?, Store.anyCount?, Store.anyCount?, hcounts]

/-- What comes of an entry. -/
inductive Recording (known : List Id) (c : Count) (actor : Id) (entry : CountEntry) (s : Store) :
    Ending Item → Store → Prop
  | recorded {result s'} (haccepts : s.accepts c entry = true)
      (hrange : ¬ Overruns s c entry.item entry.counted)
      (hstore : s'.untimed known = (s.untimed known).noted c actor entry) :
      Recording known c actor entry s (.success result) s'
  | refused {e} (hnot : s.accepts c entry = false) : Recording known c actor entry s (.failure e) s
  | overflowed {o} (hover : Overruns s c entry.item entry.counted) :
      Recording known c actor entry s (.overflow o) s

/-- The report of an item has the identifier that was drawn for it. -/
theorem Counted.report_id {recorded : Item} (h : Counted i counted recorded)
    (hreport : recorded.report? id opened = .ok report) : ∀ r ∈ report, r.id = id := by
  rintro r rfl
  rcases h.consistent.report?_cases hreport with ⟨-, q, hq, -, hid, -⟩ | ⟨-, hnone⟩
  · cases hq
    exact hid
  · cases hnone

/-- An entry that is accepted overruns just if its quantity cannot be entered. -/
theorem overruns_iff_withCounted (hsign : entry.counted.isNegative = false)
    (hi : s.item? c.id entry.item = some i) (hversion : i.version = c.currentVersion) :
    Overruns s c entry.item entry.counted ↔ ∃ o, i.withCounted entry.counted = .error o := by
  have honly : Overruns s c entry.item entry.counted ↔
      ¬ VarianceInRange i.systemQty entry.counted := by
    refine ⟨?_, fun hrange => ⟨hsign, i, hi, hversion, hrange⟩⟩
    rintro ⟨-, i', hi', -, hrange⟩
    cases hi.symm.trans hi'
    exact hrange
  rw [honly]
  rcases withCounted_cases i entry.counted with ⟨hrange, j, hj⟩ | ⟨hrange, o, ho⟩
  · refine iff_of_false (fun hnot => hnot hrange) ?_
    rintro ⟨o, ho⟩
    cases ho.symm.trans hj
  · exact iff_of_true hrange ⟨o, ho⟩

/-- A quantity that was entered is stored, with a report whose identifier is a fresh one. -/
theorem leads_recordItem_recording (hc : Editable σ.store tenant count c)
    (hσ : σ.store.Apart σ.drawn) (hknown : ∀ id ∈ known, id ∈ σ.drawn)
    (hsign : entry.counted.isNegative = false) (hi : σ.store.item? c.id entry.item = some i)
    (hversion : i.version = c.currentVersion) (hj : i.withCounted entry.counted = .ok j)
    (hreport : (enteredBy actor time j).report? id opened = .ok report) (hnew : id ∉ σ.drawn)
    (hdrawn : id ∈ σ'.drawn) (hidle : Idle σ σ') :
    Action.Leads (fun ending σ'' => Recording known c actor entry σ.store ending σ''.store ∧
        Steady σ σ'')
      (Action.counts (.recordItem (enteredBy actor time j) (.ofReport? report))) σ' := by
  have hcounted : Counted i entry.counted (enteredBy actor time j) := counted_of_withCounted hj
  have hids := hcounted.report_id hreport
  have hnewReport : ∀ r ∈ report, r.id ∉ σ.store.reports.map Report.id := by
    intro r hr hmem
    obtain ⟨q, hq, heq⟩ := List.mem_map.mp hmem
    exact hnew (hids r hr ▸ heq ▸ hσ.drawn q hq)
  obtain ⟨-, hitem, hcount⟩ := Store.item?_eq_some hi
  have hfound : σ.store.item? c.id i.id = some i := hitem.symm ▸ hi
  have hsubject := hcounted.subject
  simp only [Item.subject, Subject.mk.injEq] at hsubject
  obtain ⟨hcount', hitem', -, -⟩ := hsubject
  have hfound' : σ.store.item? (enteredBy actor time j).count (enteredBy actor time j).id =
      some i := by
    rw [hcount', hitem', hcount]
    exact hfound
  have haccepts : σ.store.accepts c entry = true :=
    accepts_eq_true_iff.mpr ⟨hsign, i, hi, hversion⟩
  have hrange : ¬ Overruns σ.store c entry.item entry.counted := by
    rw [overruns_iff_withCounted hsign hi hversion, hj]
    rintro ⟨o, ⟨⟩⟩
  refine (@Action.leads_counts σ' (.recordItem (enteredBy actor time j) (.ofReport? report))
    _).mpr fun supply _ => ?_
  have hanswer := recordItem_eq hc hfound'
    (hcount'.trans (hcount.trans (Store.count?_eq_some hc.1).2.1)) hversion (.ofReport? report)
    (supply.time 0)
  rw [changeReport_eq_replace hσ.nodup hnewReport] at hanswer
  change Action.Answered (.counts (.recordItem (enteredBy actor time j) (.ofReport? report))) _ _
    supply (σ'.store.recordItem (enteredBy actor time j) (.ofReport? report) (supply.time 0))
  rw [hidle.store, hanswer]
  have hlater : ∀ id ∈ σ'.drawn, id ∈ supply.ids σ'.store.demand ++ σ'.drawn :=
    fun id hmem => List.mem_append_right _ hmem
  refine ⟨.recorded haccepts hrange ?_, ?_⟩
  · exact noted_of_accepts haccepts hi hj hreport fun hmem => hnew (hknown id hmem)
  · exact
      { apart := hσ.replace (fun id hmem => hlater id (hidle.drawn id hmem)) fun r hr => by
          rw [hids r hr]
          exact ⟨hnew, hlater id hdrawn⟩
        drawn := fun id hmem => hlater id (hidle.drawn id hmem)
        counts := rfl
        measured := measured_of_recordItem hfound hcounted hanswer }

/-- The quantity of an item of the current version is recorded, refused or without a variance. -/
theorem leads_recordInVersion_recording (hc : Editable σ.store tenant count c)
    (hσ : σ.store.Apart σ.drawn) (hknown : ∀ id ∈ known, id ∈ σ.drawn) :
    Action.Leads (fun ending σ' => Recording known c actor entry σ.store ending σ'.store ∧
      Steady σ σ') (recordInVersion c entry.item entry.counted actor) σ := by
  have hrefused : ∀ {e σ'}, Idle σ σ' → σ.store.accepts c entry = false →
      Recording known c actor entry σ.store (.failure e) σ'.store ∧ Steady σ σ' := by
    intro e σ' hidle hnot
    rw [hidle.store]
    exact ⟨.refused hnot, hidle.steady hσ⟩
  unfold recordInVersion
  refine leads_reads (fun _ => rfl) fun σ₁ hidle => ?_
  cases hi : σ.store.item? c.id entry.item with
  | none => exact hrefused hidle (by simp [Store.accepts, hi])
  | some i =>
    change Action.Leads _ (if i.version ≠ c.currentVersion then _ else _) σ₁
    by_cases hversion : i.version = c.currentVersion
    · rw [if_neg (not_not.mpr hversion)]
      refine leads_recordQuantity_entered (fun hsign => ?_) (fun hsign o ho => ?_) ?_
      · exact hrefused hidle (by simp [Store.accepts, hi, hsign])
      · rw [hidle.store]
        exact ⟨.overflowed ((overruns_iff_withCounted hsign hi hversion).mpr ⟨o, ho⟩),
          hidle.steady hσ⟩
      · intro hsign j hj time report id opened σ₂ hreport hid hdrawn hidle₂
        exact leads_recordItem_recording hc hσ hknown hsign hi hversion hj hreport
          (fun hmem => hid (hidle.drawn id hmem)) hdrawn (hidle.trans hidle₂)
    · rw [if_pos hversion]
      exact hrefused hidle (by simp [Store.accepts, hi, hversion])

theorem leads_updateItem_recording (hc : Editable σ.store tenant count c)
    (hσ : σ.store.Apart σ.drawn) (hknown : ∀ id ∈ known, id ∈ σ.drawn) :
    Action.Leads (fun ending σ' => Recording known c actor entry σ.store ending σ'.store ∧
      Steady σ σ') (updateItem tenant count entry.item ⟨entry.counted⟩ actor) σ := by
  refine leads_checkFields (fun hfaults => ?_) fun _ =>
    leads_editableCount (fun hnone => absurd hc (hnone c)) fun c' σ₁ hc' hidle => ?_
  · have hsign : entry.counted.isNegative = true := by
      by_contra hsign
      exact hfaults (by simp [RecordQuantity.faults, faultUnless, hsign])
    refine ⟨.refused (Bool.eq_false_iff.mpr fun haccepts => ?_), (Idle.refl σ).steady hσ⟩
    rw [(accepts_eq_true_iff.mp haccepts).1] at hsign
    cases hsign
  · cases hc.1.symm.trans hc'.1
    have hsteady := hidle.steady hσ
    refine (leads_recordInVersion_recording (hc.of_counts hsteady.counts) hsteady.apart
      fun id hid => hidle.drawn id (hknown id hid)).mono fun ending σ' h => ?_
    exact ⟨hidle.store ▸ h.1, hsteady.trans h.2⟩

end Counting

end Recount

/-! ## Runs of entries

A batch that goes on over its entries and separate requests for them come to the same: each of them
does to the store without times what is noted of its entry. -/

namespace Recount.Concurrent.Ending

variable {α : Type}

/-- The result was reached. -/
def isSuccess : Ending α → Bool
  | success _ => true
  | _ => false

/-- An error was returned. -/
def isFailure : Ending α → Bool
  | failure _ => true
  | _ => false

variable {a : α} {e : Error}

@[simp] theorem isSuccess_success : (success a).isSuccess = true := rfl

@[simp] theorem isSuccess_failure : (failure e : Ending α).isSuccess = false := rfl

@[simp] theorem isFailure_success : (success a).isFailure = false := rfl

@[simp] theorem isFailure_failure : (failure e : Ending α).isFailure = true := rfl

end Recount.Concurrent.Ending

namespace Recount.Counting

open Concurrent (Scene Ending)

variable {known : List Id} {c : Count} {tenant count actor : Id} {entry : CountEntry}
  {entries done rest : List CountEntry} {σ σ' τ : Scene} {s s' : Store} {ending : Ending Item}
  {endings : List (Ending Item)} {summary after : SubmitSummary} {accepted : CountEntry → Bool}

/-- The entries are sent one by one, and what fails is passed over. -/
inductive Singly (tenant count actor : Id) :
    List CountEntry → Scene → List (Ending Item) → Scene → Prop
  | nil {σ : Scene} : Singly tenant count actor [] σ [] σ
  | cons {entry : CountEntry} {entries : List CountEntry} {σ σ₁ σ₂ : Scene} {ending : Ending Item}
      {endings : List (Ending Item)}
      (hfirst : (updateItem tenant count entry.item ⟨entry.counted⟩ actor).Runs σ ending σ₁)
      (hrest : Singly tenant count actor entries σ₁ endings σ₂) :
      Singly tenant count actor (entry :: entries) σ (ending :: endings) σ₂

/-- A summary goes on over entries that are accepted or not. -/
structure Sums (accepted : CountEntry → Bool) (entries : List CountEntry)
    (before after : SubmitSummary) : Prop where
  version : after.version = before.version
  updated : after.updated = before.updated + entries.countP accepted
  failed : after.failed = before.failed + entries.countP (!accepted ·)
  errors : after.errors.map EntryError.item =
    before.errors.map EntryError.item ++ (entries.filter (!accepted ·)).map CountEntry.item

/-- A summary of how requests ended. -/
structure Summarizes (version : Int) (entries : List CountEntry) (endings : List (Ending Item))
    (s : SubmitSummary) : Prop where
  version : s.version = version
  updated : s.updated = endings.countP Ending.isSuccess
  failed : s.failed = endings.countP Ending.isFailure
  errors : s.errors.map EntryError.item =
    ((entries.zip endings).filter fun e => e.2.isFailure).map fun e => e.1.item

/-- A request ends as its entry is accepted or not. -/
def EndsAs (accepted : CountEntry → Bool) (entry : CountEntry) : Ending Item → Prop
  | .success _ => accepted entry = true
  | .failure _ => accepted entry = false
  | .overflow _ => False

theorem Recording.noted (h : Recording known c actor entry s ending s')
    (hfree : ¬ Overruns s c entry.item entry.counted) :
    EndsAs (s.accepts c) entry ending ∧
      s'.untimed known = (s.untimed known).noted c actor entry := by
  cases h with
  | recorded haccepts _ hstore => exact ⟨haccepts, hstore⟩
  | refused hnot => exact ⟨hnot, (noted_of_not_accepts hnot).symm⟩
  | overflowed hover => exact absurd hover hfree

theorem Recording.overruns (h : Recording known c actor entry s ending s')
    (hover : Overruns s c entry.item entry.counted) : (∃ o, ending = .overflow o) ∧ s' = s := by
  cases h with
  | recorded _ hrange => exact absurd hover hrange
  | refused hnot =>
    obtain ⟨hsign, i, hi, hversion, -⟩ := hover
    rw [accepts_eq_true_iff.mpr ⟨hsign, i, hi, hversion⟩] at hnot
    cases hnot
  | overflowed => exact ⟨⟨_, rfl⟩, rfl⟩

theorem Steady.accepts (h : Steady σ σ') : σ'.store.accepts c = σ.store.accepts c :=
  funext fun _ => h.measured.accepts

theorem Sums.nil : Sums accepted [] summary summary :=
  ⟨rfl, rfl, rfl, by simp⟩

theorem Sums.cons {result : Except Error Item}
    (hresult : result.toOption.isSome = accepted entry)
    (h : Sums accepted entries (summary.add entry.item result) after) :
    Sums accepted (entry :: entries) summary after := by
  cases result with
  | ok i =>
    have haccepted : accepted entry = true := hresult.symm
    refine ⟨h.version, h.updated.trans ?_, h.failed.trans ?_, h.errors.trans ?_⟩
    · simp [SubmitSummary.add, haccepted]
      omega
    · simp [SubmitSummary.add, haccepted]
    · simp [SubmitSummary.add, haccepted]
  | error e =>
    have haccepted : accepted entry = false := hresult.symm
    refine ⟨h.version, h.updated.trans ?_, h.failed.trans ?_, h.errors.trans ?_⟩
    · simp [SubmitSummary.add, haccepted]
    · simp [SubmitSummary.add, haccepted]
      omega
    · simp [SubmitSummary.add, haccepted]

/-- A batch goes on after entries that do not overrun. -/
theorem leads_submitEntries_append {post : Ending SubmitSummary → Scene → Prop}
    (hc : Editable σ.store tenant count c) (hσ : σ.store.Apart σ.drawn)
    (hknown : ∀ id ∈ known, id ∈ σ.drawn)
    (hfree : ∀ e ∈ done, ¬ Overruns σ.store c e.item e.counted)
    (hrest : ∀ after σ', Sums (σ.store.accepts c) done summary after →
      σ'.store.untimed known = done.foldl (Store.noted c actor) (σ.store.untimed known) →
      Steady σ σ' → Action.Leads post (submitEntries c actor after rest) σ') :
    Action.Leads post (submitEntries c actor summary (done ++ rest)) σ := by
  induction done generalizing σ summary with
  | nil => exact hrest summary σ .nil rfl ((Idle.refl σ).steady hσ)
  | cons entry done ih =>
    obtain ⟨hentry, hdone⟩ := List.forall_mem_cons.mp hfree
    refine Action.leads_bind.mpr (Action.leads_attempt.mpr
      ((leads_recordInVersion_recording hc hσ hknown).mono ?_))
    rintro ending σ₁ ⟨hrecording, hsteady⟩
    obtain ⟨hends, hstore⟩ := hrecording.noted hentry
    have hnext : ∀ result : Except Error Item,
        result.toOption.isSome = σ.store.accepts c entry →
        Action.Leads post (submitEntries c actor (summary.add entry.item result) (done ++ rest))
          σ₁ := by
      intro result hresult
      refine ih (hc.of_counts hsteady.counts) hsteady.apart
        (fun id hid => hsteady.drawn id (hknown id hid)) ?_
        fun after σ₂ hsums hstore₂ hsteady₂ => ?_
      · exact fun e he hover => hdone e he (hsteady.measured.overruns_iff.mp hover)
      · rw [hsteady.accepts] at hsums
        refine hrest after σ₂ (hsums.cons hresult) ?_ (hsteady.trans hsteady₂)
        rw [hstore₂, hstore]
        rfl
    cases ending with
    | success i => exact hnext (.ok i) hends.symm
    | failure e => exact hnext (.error e) hends.symm
    | overflow o => exact hends.elim

/-- Requests that do not overrun end as their entries are accepted. -/
theorem Singly.noted (h : Singly tenant count actor entries σ endings τ)
    (hc : Editable σ.store tenant count c) (hσ : σ.store.Apart σ.drawn)
    (hknown : ∀ id ∈ known, id ∈ σ.drawn)
    (hfree : ∀ e ∈ entries, ¬ Overruns σ.store c e.item e.counted) :
    List.Forall₂ (EndsAs (σ.store.accepts c)) entries endings ∧
      τ.store.untimed known = entries.foldl (Store.noted c actor) (σ.store.untimed known) := by
  induction h with
  | nil => exact ⟨.nil, rfl⟩
  | cons hfirst _ ih =>
    obtain ⟨hentry, hentries⟩ := List.forall_mem_cons.mp hfree
    obtain ⟨hrecording, hsteady⟩ := Action.leads_iff_runs.mp
      (leads_updateItem_recording hc hσ hknown) _ _ hfirst
    obtain ⟨hends, hstore⟩ := hrecording.noted hentry
    obtain ⟨hall, hlast⟩ := ih (hc.of_counts hsteady.counts) hsteady.apart
      (fun id hid => hsteady.drawn id (hknown id hid))
      fun e he hover => hentries e he (hsteady.measured.overruns_iff.mp hover)
    rw [hsteady.accepts] at hall
    refine ⟨.cons hends hall, ?_⟩
    rw [hlast, hstore]
    rfl

/-- The summary of a batch tells how the requests for its entries end. -/
theorem Sums.summarizes {version : Int} (hall : List.Forall₂ (EndsAs accepted) entries endings)
    (h : Sums accepted entries ⟨version, 0, 0, []⟩ summary) :
    Summarizes version entries endings summary := by
  have hcounts : endings.countP Ending.isSuccess = entries.countP accepted ∧
      endings.countP Ending.isFailure = entries.countP (!accepted ·) ∧
      ((entries.zip endings).filter fun e => e.2.isFailure).map (fun e => e.1.item) =
        (entries.filter (!accepted ·)).map CountEntry.item := by
    clear h
    induction hall with
    | nil => exact ⟨rfl, rfl, rfl⟩
    | @cons entry ending entries endings hends _ ih =>
      obtain ⟨hsuccess, hfailure, herrors⟩ := ih
      cases ending with
      | success i =>
        have haccepted : accepted entry = true := hends
        simp [List.countP_cons, haccepted, hsuccess, hfailure, herrors]
      | failure e =>
        have haccepted : accepted entry = false := hends
        simp [List.countP_cons, List.filter_cons, haccepted, hsuccess, hfailure, herrors]
      | overflow o => exact hends.elim
  obtain ⟨hsuccess, hfailure, herrors⟩ := hcounts
  exact
    { version := h.version
      updated := by rw [h.updated, hsuccess, Nat.zero_add]
      failed := by rw [h.failed, hfailure, Nat.zero_add]
      errors := by
        rw [h.errors, herrors]
        rfl }

end Recount.Counting
