import Recount.Proofs.Concurrent.Sound
import Recount.Proofs.Counting.Recording
import Recount.Proofs.Reloading

/-!
# Added as a whole

A request to add an item is carried out as a whole or leaves the store as it is, except where its
quantity is negative or has no variance: then the item is there without a quantity, and the same
request with another quantity is refused.
-/

/-! ## Adding an item alone

An item is stored before its quantity is looked at. What is refused before leaves the store as it
is, and nothing can go wrong after a quantity that is not negative was entered with its variance. -/

namespace Recount.Counting

open Concurrent (Scene Ending)

/-- An item is added to a store, with its report. -/
structure Added (s : Store) (i : Item) (report : Option Report) (s' : Store) : Prop where
  new : i.id ∉ s.items.map Item.id
  described : ∀ q ∈ report, q.Describes i
  store : s' = { s with items := s.items ++ [i], reports := s.reports ++ report.toList }

/-- An item as a request enters it. -/
structure Entered (count : Id) (r : AddItem) (i : Item) : Prop where
  key : i.key = ⟨count, r.location, Text.trim r.code, i.version⟩
  known : i.known =
    ⟨Text.trim r.name, r.uom, r.packQty, r.systemQty, none, none, none, none, none⟩

/-- The identifiers of items and reports were drawn, also those that reports refer to. -/
structure Covered (σ : Scene) : Prop where
  items : ∀ i ∈ σ.store.items, i.id ∈ σ.drawn
  reports : ∀ q ∈ σ.store.reports, q.id ∈ σ.drawn ∧ q.item ∈ σ.drawn

/-- An item with the key of the request is in the count, which accepts items. -/
structure Occupied (tenant count : Id) (r : AddItem) (c : Count) (s : Store) : Prop where
  faultless : r.faults = []
  editable : Editable s tenant count c
  occupied : ∃ i ∈ s.items, i.key = ⟨count, r.location, Text.trim r.code, c.currentVersion⟩

/-- A request without faults whose count accepts items and has none with its key. -/
def Admitted (tenant count : Id) (r : AddItem) (s : Store) : Prop :=
  r.faults = [] ∧ ∃ c, Editable s tenant count c ∧
    ∀ i ∈ s.items, i.key ≠ ⟨count, r.location, Text.trim r.code, c.currentVersion⟩

/-- What comes of adding an item to a store. -/
inductive Outcome (tenant count : Id) (r : AddItem) (s : Store) : Ending Item → Store → Prop
  | refused {e} (hnot : ¬ Admitted tenant count r s) (he : e ≠ .invalid .negativeQuantity) :
      Outcome tenant count r s (.failure e) s
  | added {i report s'} (hadmitted : Admitted tenant count r s)
      (hfits : ∀ counted ∈ r.counted, counted.isNegative = false ∧
        VarianceInRange r.systemQty counted)
      (hadded : Added s i report s') (hentered : Entered count r i)
      (hcounted : i.countedQty = r.counted) : Outcome tenant count r s (.success i) s'
  | negative {i c s' counted} (hadmitted : Admitted tenant count r s)
      (hcounted : r.counted = some counted) (hsign : counted.isNegative = true)
      (hadded : Added s i none s') (hentered : Entered count r i) (huncounted : i.countedQty = none)
      (hoccupied : Occupied tenant count r c s') :
      Outcome tenant count r s (.failure (.invalid .negativeQuantity)) s'
  | overflowed {i o s' counted} (hadmitted : Admitted tenant count r s)
      (hcounted : r.counted = some counted) (hsign : counted.isNegative = false)
      (hrange : ¬ VarianceInRange r.systemQty counted) (hadded : Added s i none s')
      (hentered : Entered count r i) (huncounted : i.countedQty = none) :
      Outcome tenant count r s (.overflow o) s'

variable {tenant count actor : Id} {r : AddItem} {σ σ' : Scene} {s s' : Store} {new i : Item}
  {c : Count}

/-- Recording a quantity leaves an item as it was entered. -/
theorem Counted.entered {recorded : Item} {counted : Decimal} (h : Counted i counted recorded)
    (hi : Entered count r i) : Entered count r recorded where
  key := by
    have hversion : recorded.version = i.version := congrArg Item.Key.version h.key
    rw [h.key, hi.key, hversion]
  known := h.known.trans hi.known

/-- In every world that can be reached, the identifiers of items and reports were drawn. -/
theorem covered_of_reachable {sources : Loading.Sources} {w : Concurrent.World}
    (hw : Concurrent.Reachable sources Concurrent.nobody w) {past : List Concurrent.Exchange} :
    Covered ⟨w.store, w.drawn, past⟩ where
  items i hi := (hw.sound.known _ (Store.item_id_mem_ids hi)).1
  reports q hq := by
    obtain ⟨i, hi, hsubject⟩ := hw.sound.store.report_stored q hq
    refine ⟨(hw.sound.known _ (Store.report_id_mem_ids hq)).1, ?_⟩
    have hitem : i.id = q.item := congrArg Subject.item hsubject
    exact hitem ▸ (hw.sound.known _ (Store.item_id_mem_ids hi)).1

/-- An identifier that is drawn is that of no item and no report, and no report is about it. -/
theorem Covered.fresh (h : Covered σ) {id : Id} (hid : id ∉ σ.drawn) :
    id ∉ σ.store.items.map Item.id ∧ id ∉ σ.store.reports.map Report.id ∧
      ∀ q ∈ σ.store.reports, q.item ≠ id := by
  refine ⟨fun hmem => ?_, fun hmem => ?_, fun q hq heq => hid (heq ▸ (h.reports q hq).2)⟩
  · obtain ⟨i, hi, rfl⟩ := List.mem_map.mp hmem
    exact hid (h.items i hi)
  · obtain ⟨q, hq, rfl⟩ := List.mem_map.mp hmem
    exact hid (h.reports q hq).1

section Storing

/-- In a count that accepts items, an item is inserted unless there is one with its key. -/
theorem insertItem_cases (h : Editable s tenant count c) (hcount : new.count = count)
    (hversion : new.version = c.currentVersion) :
    s.insertItem new = if (s.itemByKey? new.key).isSome then
      .error (.refused (.clash (.existingItemAtLocation new.code new.version)))
      else .ok (new, s.putItem new) := by
  unfold Store.insertItem
  rw [hcount, hversion, checkWritable_eq h]
  rfl

/-- The entry that was put last is replaced. -/
theorem putBy_last {α : Type} {id : α → Id} {last e : α} {l : List α} (hnew : id last ∉ l.map id)
    (hid : id e = id last) : putBy id e (l ++ [last]) = l ++ [e] := by
  induction l with
  | nil => simp [putBy, hid]
  | cons a l ih =>
    obtain ⟨hne, hl⟩ := not_or.mp fun h => hnew (List.mem_cons.mpr h)
    have hne' : id a ≠ id e := fun heq => hne (hid ▸ heq.symm)
    rw [List.cons_append, putBy, if_neg hne', ih hl]
    rfl

/-- The report of an item that none is about comes after the others. -/
theorem changeReport_new {report : Option Report} (habout : ∀ q ∈ s.reports, q.item ≠ i.id)
    (hreport : ∀ q ∈ report, q.item = i.id ∧ q.id ∉ s.reports.map Report.id) :
    s.changeReport i (.ofReport? report) = { s with reports := s.reports ++ report.toList } := by
  cases report with
  | none =>
    have hall : (s.reports.filter fun q =>
        !(q.item = i.id && q.version = i.version && q.status = .pending)) = s.reports :=
      List.filter_eq_self.mpr fun q hq => by simp [habout q hq]
    unfold ReportChange.ofReport? Store.changeReport
    dsimp only
    rw [hall, Option.toList_none, List.append_nil]
  | some q =>
    obtain ⟨hitem, hnew⟩ := hreport q rfl
    have hnone : s.reports.find? (fun old => old.item = q.item && old.version = q.version) = none :=
      List.find?_eq_none.mpr fun old hold => by simp [hitem, habout old hold]
    change s.putReport q = _
    unfold Store.putReport
    rw [hnone]
    dsimp only
    rw [putBy_of_new hnew]
    rfl

/-- What is recorded of an item that was inserted is stored in its place, with its report. -/
theorem recordItem_inserted {recorded : Item} {report : Option Report} {id : Id} {time : Time}
    (now : Time) (h : Editable s tenant count c) (hcount : new.count = count)
    (hversion : new.version = c.currentVersion) (hitem : new.id ∉ s.items.map Item.id)
    (habout : ∀ q ∈ s.reports, q.item ≠ new.id) (hid : id ∉ s.reports.map Report.id)
    {counted : Decimal} (hcounted : Counted new counted recorded)
    (hreport : recorded.report? id time = .ok report) :
    ∃ s', (s.putItem new).recordItem recorded (.ofReport? report) now =
        .ok ({ recorded with updatedAt := now }, s') ∧
      Added s { recorded with updatedAt := now } report s' := by
  have hsubject := hcounted.subject
  simp only [Item.subject, Subject.mk.injEq] at hsubject
  obtain ⟨hsamecount, hsameid, -, -⟩ := hsubject
  have hfound : (s.putItem new).item? recorded.count recorded.id = some new := by
    unfold Store.item?
    rw [hsamecount, hsameid]
    change ((putBy Item.id new s.items).find? fun y => y.id = new.id).filter _ = _
    rw [find?_putBy_self]
    simp
  have hrecorded := recordItem_eq (show Editable (s.putItem new) tenant count c from h) hfound
    (hsamecount.trans hcount) hversion (.ofReport? report) now
  have hitems : putBy Item.id { recorded with updatedAt := now } (putBy Item.id new s.items) =
      s.items ++ [{ recorded with updatedAt := now }] := by
    rw [putBy_of_new hitem]
    exact putBy_last hitem hsameid
  have hdescribed : ∀ q ∈ report, q.Describes recorded ∧ q.id = id := by
    rcases hcounted.consistent.report?_cases hreport with ⟨-, q, rfl, hq, hqid, -⟩ | ⟨-, rfl⟩
    · rintro _ ⟨⟩
      exact ⟨hq, hqid⟩
    · rintro _ ⟨⟩
  refine ⟨_, hrecorded, ?_, fun q hq => ?_, ?_⟩
  · change recorded.id ∉ _
    rwa [hsameid]
  · have hq := (hdescribed q hq).1
    exact ⟨hq.subject, hq.systemQty, hq.countedQty, hq.difference, hq.variancePercent⟩
  · rw [changeReport_new]
    · unfold Store.putItem
      dsimp only
      rw [hitems]
    · intro q hq
      change q.item ≠ recorded.id
      rw [hsameid]
      exact habout q hq
    · intro q hq
      obtain ⟨hdescribes, hqid⟩ := hdescribed q hq
      exact ⟨congrArg Subject.item hdescribes.subject, hqid ▸ hid⟩

/-- An item that is only inserted is added without a report. -/
theorem added_putItem (hitem : new.id ∉ s.items.map Item.id) :
    Added s new none (s.putItem new) where
  new := hitem
  described _ h := by cases h
  store := by
    unfold Store.putItem
    rw [putBy_of_new hitem, Option.toList_none, List.append_nil]

end Storing

/-- Of an item that was just inserted, the quantity is recorded that the request says was counted,
unless it is negative or has no variance. -/
theorem leads_recordQuantity_inserted (hσ : Covered σ) (hc : Editable σ.store tenant count c)
    (hadmitted : Admitted tenant count r σ.store) {counted : Decimal}
    (hcounted : r.counted = some counted) (hentered : Entered count r new)
    (hversion : new.version = c.currentVersion) (hnew : new.id ∉ σ.drawn)
    (huncounted : new.countedQty = none) (hstore : σ'.store = σ.store.putItem new)
    (hdrawn : ∀ id ∈ σ.drawn, id ∈ σ'.drawn) :
    Action.Leads (fun ending σ' => Outcome tenant count r σ.store ending σ'.store)
      (recordQuantity new counted actor) σ' := by
  obtain ⟨hitem, -, habout⟩ := hσ.fresh hnew
  have hadded : Added σ.store new none σ'.store := hstore ▸ added_putItem hitem
  have hcount : new.count = count := congrArg Item.Key.count hentered.key
  have hsystem : new.systemQty = r.systemQty := congrArg Item.Known.systemQty hentered.known
  refine leads_recordQuantity (fun hsign => ?_) (fun hsign hrange o => ?_) ?_
  · have hoccupied : Occupied tenant count r c σ'.store := by
      rw [hstore]
      exact ⟨hadmitted.1, hc, new, mem_putBy_self, hversion ▸ hentered.key⟩
    exact .negative hadmitted hcounted hsign hadded hentered huncounted hoccupied
  · exact .overflowed hadmitted hcounted hsign (hsystem ▸ hrange) hadded hentered huncounted
  · intro hsign hrange recorded report id time σ₁ hrecorded hreport hid hidle
    refine (@Action.leads_counts σ₁ (.recordItem recorded (.ofReport? report)) _).mpr
      fun supply _ => ?_
    obtain ⟨-, hreportid, -⟩ := hσ.fresh fun hmem => hid (hdrawn id hmem)
    obtain ⟨s', hanswer, hadded'⟩ := recordItem_inserted (supply.time 0) hc hcount hversion hitem
      habout hreportid hrecorded hreport
    change Action.Answered (.counts (.recordItem recorded (.ofReport? report))) _ σ₁ supply
      (σ₁.store.recordItem recorded (.ofReport? report) (supply.time 0))
    rw [hidle.store, hstore, hanswer]
    have hentered' := hrecorded.entered hentered
    refine .added hadmitted ?_ hadded' ⟨hentered'.key, hentered'.known⟩
      (hrecorded.countedQty.trans hcounted.symm)
    rw [hcounted]
    rintro _ ⟨⟩
    exact ⟨hsign, hsystem ▸ hrange⟩

/-- Adding an item comes to one of the outcomes. -/
theorem leads_addItem (hσ : Covered σ) :
    Action.Leads (fun ending σ' => Outcome tenant count r σ.store ending σ'.store)
      (addItem tenant count r actor) σ := by
  unfold addItem
  refine leads_checkFields (fun hfaults => .refused (fun h => hfaults h.1) (by simp)) fun hfaults =>
    leads_editableCount (fun hnone e σ' he hidle => ?_) fun c σ₁ hc hidle₁ =>
    leads_now_bind fun time σ₂ hidle₂ => leads_freshId_bind fun id σ₃ hid hdrawn hidle₃ =>
    Action.leads_bind.mpr (Action.leads_counts.mpr fun supply _ => ?_)
  · rw [hidle.store]
    exact .refused (fun ⟨_, c, hc, _⟩ => hnone c hc) he
  have hidle := (hidle₁.trans hidle₂).trans hidle₃
  let new := newItem count c.currentVersion r id time
  have hnew : new.id ∉ σ.drawn := fun hmem => hid (hidle₂.drawn id (hidle₁.drawn id hmem))
  have hentered : Entered count r new := ⟨rfl, rfl⟩
  change Action.Answered (.counts (.insertItem new)) _ σ₃ supply (σ₃.store.insertItem new)
  rw [hidle.store, insertItem_cases hc rfl rfl]
  by_cases hkey : (σ.store.itemByKey? new.key).isSome = true
  · rw [if_pos hkey]
    change Outcome tenant count r σ.store _ σ₃.store
    rw [hidle.store]
    refine .refused (fun ⟨_, c', hc', hfree⟩ => ?_) (by simp)
    cases hc.1.symm.trans hc'.1
    have hnone : σ.store.itemByKey? new.key = none := Store.itemByKey?_eq_none_iff.mpr hfree
    rw [hnone] at hkey
    cases hkey
  have hadmitted : Admitted tenant count r σ.store :=
    ⟨hfaults, c, hc, Store.itemByKey?_eq_none_iff.mp (Option.not_isSome_iff_eq_none.mp hkey)⟩
  rw [if_neg hkey]
  cases hcounted : r.counted with
  | none =>
    exact .added hadmitted (by simp [hcounted]) (added_putItem (hσ.fresh hnew).1) hentered
      (by rw [hcounted]; rfl)
  | some counted =>
    change Action.Leads (fun ending σ' => Outcome tenant count r σ.store ending σ'.store)
      (recordQuantity new counted actor)
      (σ₃.called supply ⟨.store (.counts (.insertItem new)), .ok new⟩ (σ.store.putItem new))
    exact leads_recordQuantity_inserted hσ hc hadmitted hcounted hentered rfl hnew rfl rfl
      fun id hid => List.mem_append_right _ (hidle.drawn id hid)

/-- Where there is an item with its key, no item is added, whatever is said to be counted of it. -/
theorem leads_addItem_occupied (h : Occupied tenant count r c σ.store) (counted : Option Decimal) :
    Action.Leads (fun ending σ' => ending = .failure (.clash (.existingItemAtLocation
        (Text.trim r.code) c.currentVersion)) ∧ σ'.store = σ.store)
      (addItem tenant count { r with counted } actor) σ := by
  obtain ⟨old, hold, hkey⟩ := h.occupied
  unfold addItem
  refine leads_checkFields (fun hfaults => absurd h.faultless hfaults) fun _ =>
    leads_editableCount (fun hnone => absurd h.editable (hnone c)) fun c' σ₁ hc' hidle₁ =>
    leads_now_bind fun time σ₂ hidle₂ => leads_freshId_bind fun id σ₃ _ _ hidle₃ =>
    Action.leads_bind.mpr (Action.leads_counts.mpr fun supply _ => ?_)
  cases h.editable.1.symm.trans hc'.1
  have hidle := (hidle₁.trans hidle₂).trans hidle₃
  let new := newItem count c.currentVersion { r with counted } id time
  have hfound : (σ.store.itemByKey? new.key).isSome = true := by
    rw [← Option.ne_none_iff_isSome]
    exact fun hnone => Store.itemByKey?_eq_none_iff.mp hnone old hold hkey
  change Action.Answered (.counts (.insertItem new)) _ σ₃ supply (σ₃.store.insertItem new)
  rw [hidle.store, insertItem_cases h.editable rfl rfl, if_pos hfound]
  exact ⟨rfl, hidle.store⟩

theorem Added.store_ne {report : Option Report} (h : Added s i report s') : s' ≠ s := by
  intro heq
  have hlength := congrArg (List.length ∘ Store.items) (heq.symm.trans h.store)
  simp at hlength

namespace Outcome

variable {ending : Ending Item}

/-- An item that was added is as the request enters it, with its quantity. -/
theorem of_success (h : Outcome tenant count r s (.success i) s') :
    Entered count r i ∧ i.countedQty = r.counted ∧ ∃ report, Added s i report s' := by
  cases h with
  | added _ _ hadded hentered hcounted => exact ⟨hentered, hcounted, _, hadded⟩

/-- A request that fails has added nothing, unless its quantity is negative. -/
theorem of_failure {e : Error} (h : Outcome tenant count r s (.failure e) s') :
    s' = s ↔ e ≠ .invalid .negativeQuantity := by
  cases h with
  | refused _ he => exact iff_of_true rfl he
  | negative _ _ _ hadded => exact iff_of_false hadded.store_ne fun hne => hne rfl

theorem negative_iff (h : Outcome tenant count r s ending s') :
    ending = .failure (.invalid .negativeQuantity) ↔
      Admitted tenant count r s ∧ ∃ counted ∈ r.counted, counted.isNegative = true := by
  cases h with
  | refused hnot he =>
    refine iff_of_false (fun heq => ?_) fun h => hnot h.1
    cases heq
    exact he rfl
  | added _ hfits =>
    refine iff_of_false (by rintro ⟨⟩) ?_
    rintro ⟨-, counted, hgiven, hsign⟩
    rw [(hfits counted hgiven).1] at hsign
    cases hsign
  | negative hadmitted hcounted hsign => exact iff_of_true rfl ⟨hadmitted, _, hcounted, hsign⟩
  | overflowed _ hcounted hsign =>
    refine iff_of_false (by rintro ⟨⟩) ?_
    rintro ⟨-, counted, hgiven, hneg⟩
    cases hcounted.symm.trans hgiven
    rw [hsign] at hneg
    cases hneg

theorem overflows_iff (h : Outcome tenant count r s ending s') :
    (∃ o, ending = .overflow o) ↔ Admitted tenant count r s ∧ ∃ counted ∈ r.counted,
      counted.isNegative = false ∧ ¬ VarianceInRange r.systemQty counted := by
  cases h with
  | refused hnot => exact iff_of_false (by rintro ⟨_, ⟨⟩⟩) fun h => hnot h.1
  | added _ hfits =>
    refine iff_of_false (by rintro ⟨_, ⟨⟩⟩) ?_
    rintro ⟨-, counted, hgiven, -, hrange⟩
    exact hrange (hfits counted hgiven).2
  | negative _ hcounted hsign =>
    refine iff_of_false (by rintro ⟨_, ⟨⟩⟩) ?_
    rintro ⟨-, counted, hgiven, hnonneg, -⟩
    cases hcounted.symm.trans hgiven
    rw [hsign] at hnonneg
    cases hnonneg
  | overflowed hadmitted hcounted hsign hrange =>
    exact iff_of_true ⟨_, rfl⟩ ⟨hadmitted, _, hcounted, hsign, hrange⟩

/-- Where a quantity is negative, its item is there without it, and occupies its key. -/
theorem of_negative (h : Outcome tenant count r s (.failure (.invalid .negativeQuantity)) s') :
    (∃ i, Entered count r i ∧ i.countedQty = none ∧ Added s i none s') ∧
      ∃ c, Occupied tenant count r c s' := by
  cases h with
  | refused _ he => exact absurd rfl he
  | negative _ _ _ hadded hentered huncounted hoccupied =>
    exact ⟨⟨_, hentered, huncounted, hadded⟩, _, hoccupied⟩

/-- Where the variance is out of range, the item is there without its quantity. -/
theorem of_overflow {o : Overflow} (h : Outcome tenant count r s (.overflow o) s') :
    ∃ i, Entered count r i ∧ i.countedQty = none ∧ Added s i none s' := by
  cases h with
  | overflowed _ _ _ _ hadded hentered huncounted => exact ⟨_, hentered, huncounted, hadded⟩

end Outcome

theorem addItem_overflowsIff (h : Covered σ) : (addItem tenant count r actor).OverflowsIff σ
    (Admitted tenant count r σ.store ∧ ∃ counted ∈ r.counted,
      counted.isNegative = false ∧ ¬ VarianceInRange r.systemQty counted) :=
  (leads_addItem h).mono fun _ _ houtcome => houtcome.overflows_iff

end Recount.Counting

/-! ## As a whole or not at all -/

namespace Recount.Counting

open Concurrent (Scene Ending)

variable {tenant count actor : Id} {r : AddItem} {σ σ' : Scene}

/-- An item is added as a whole or not at all, unless the request is admitted with a negative
quantity: such an item has been added without its quantity when the request is refused, and then no
quantity will do. Where the variance is out of range, the item has been added as well. -/
theorem addItem_whole_iff (hσ : Covered σ) {ending : Ending Item}
    (hrun : (addItem tenant count r actor).Runs σ ending σ') :
    (∀ i, ending = .success i → Entered count r i ∧ i.countedQty = r.counted ∧
      ∃ report, Added σ.store i report σ'.store) ∧
    (∀ e, ending = .failure e → (σ'.store = σ.store ↔ e ≠ .invalid .negativeQuantity)) ∧
    (ending = .failure (.invalid .negativeQuantity) ↔ Admitted tenant count r σ.store ∧
      ∃ counted ∈ r.counted, counted.isNegative = true) ∧
    (ending = .failure (.invalid .negativeQuantity) →
      (∃ i, Entered count r i ∧ i.countedQty = none ∧ Added σ.store i none σ'.store) ∧
      ∀ counted other ending' σ'',
        (addItem tenant count { r with counted } other).Runs σ' ending' σ'' →
        σ''.store = σ'.store ∧ ∃ version, ending' =
          .failure (.clash (.existingItemAtLocation (Text.trim r.code) version))) ∧
    ((∃ o, ending = .overflow o) ↔ Admitted tenant count r σ.store ∧
      ∃ counted ∈ r.counted, counted.isNegative = false ∧ ¬ VarianceInRange r.systemQty counted) ∧
    ∀ o, ending = .overflow o →
      ∃ i, Entered count r i ∧ i.countedQty = none ∧ Added σ.store i none σ'.store := by
  have houtcome := Action.leads_iff_runs.mp (leads_addItem hσ) _ _ hrun
  refine ⟨?_, ?_, houtcome.negative_iff, ?_, houtcome.overflows_iff, ?_⟩
  · rintro i rfl
    exact houtcome.of_success
  · rintro e rfl
    exact houtcome.of_failure
  · rintro rfl
    obtain ⟨hadded, c, hoccupied⟩ := houtcome.of_negative
    refine ⟨hadded, fun counted other ending' σ'' hagain => ?_⟩
    obtain ⟨hending, hstore⟩ := Action.leads_iff_runs.mp
      (leads_addItem_occupied hoccupied counted) _ _ hagain
    exact ⟨hstore, _, hending⟩
  · rintro o rfl
    exact houtcome.of_overflow

section Replay

open Concurrent (World Surroundings played played_reachable newCount noSources goIn
  oneDigit)

/-- A count is created. -/
def drafted : World := played noSources [.begin newCount, goIn 1 0]

/-- An item is added of which the system knows none. -/
def addition (counted : Decimal) : Action Item :=
  addItem (.ofNat 1) (.ofNat 1000) ⟨.ofNat 5, "A", "A", none, none, .zero, some counted⟩ (.ofNat 3)

theorem addItem_whole_iff_drafted :
    Covered ⟨drafted.store, drafted.drawn, []⟩ ∧ ∃ i report σ',
      (addition (oneDigit 7)).Runs ⟨drafted.store, drafted.drawn, []⟩ (.success i) σ' ∧
      i.countedQty = some (oneDigit 7) ∧ Added drafted.store i report σ'.store := by
  have hfresh : (Loading.fromRound 30).FreshFor (addition (oneDigit 7)).run drafted.store
      drafted.drawn 0 := by decide +kernel
  have hcovered : Covered ⟨drafted.store, drafted.drawn, []⟩ :=
    covered_of_reachable (played_reachable fun _ _ h => h)
  have hadds : (((Loading.fromRound 30).perform (addition (oneDigit 7))
      drafted.store).1.toOption.bind Except.toOption).isSome = true := by decide +kernel
  obtain ⟨σ', hruns, -⟩ := Surroundings.exists_runs_perform hfresh
  generalize ((Loading.fromRound 30).perform (addition (oneDigit 7)) drafted.store).1 = result
    at hruns hadds
  match result with
  | .ok (.ok i) =>
    obtain ⟨-, hcounted, report, hadded⟩ := (addItem_whole_iff hcovered hruns).1 i rfl
    exact ⟨hcovered, i, report, σ', hruns, hcounted, hadded⟩
  | .ok (.error _) => cases hadds
  | .error _ => cases hadds

/-- A quantity that nobody can have counted. -/
def minusOne : Decimal := .ofParts (-1) 0

/-- An item is added with a negative quantity, and then sent again with a corrected one. -/
def sentTwice : Action (Except Error Item × Except Error Item) := do
  let first ← Action.attempt (addition minusOne)
  let second ← Action.attempt (addition (oneDigit 1))
  return (first, second)

/-- The first request is refused, but its item has been added, so the second one is refused too. -/
theorem not_addItem_whole :
    (∃ σ', (addition minusOne).Runs ⟨drafted.store, drafted.drawn, []⟩
      (.failure (.invalid .negativeQuantity)) σ' ∧ σ'.store ≠ drafted.store) ∧
    ∃ σ', sentTwice.Runs ⟨drafted.store, drafted.drawn, []⟩
      (.success (.error (.invalid .negativeQuantity),
        .error (.clash (.existingItemAtLocation "A" 1)))) σ' := by
  have hfresh : (Loading.fromRound 30).FreshFor (addition minusOne).run drafted.store
      drafted.drawn 0 := by decide +kernel
  have hfresh' : (Loading.fromRound 30).FreshFor sentTwice.run drafted.store
      drafted.drawn 0 := by decide +kernel
  obtain ⟨σ', hruns, hstore⟩ := Surroundings.exists_runs_perform hfresh
  obtain ⟨σ'', hruns', -⟩ := Surroundings.exists_runs_perform hfresh'
  refine ⟨⟨σ', hruns, fun heq => ?_⟩, σ'', hruns'⟩
  have hlength : (drafted.store.items.length, ((Loading.fromRound 30).perform
      (addition minusOne) drafted.store).2.items.length) = (0, 1) := by
    decide +kernel
  rw [← hstore, heq, Prod.mk.injEq] at hlength
  omega

end Replay

end Recount.Counting
