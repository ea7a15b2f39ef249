import Recount.Counting.Recording
import Recount.Proofs.Concurrent.Alone
import Recount.Proofs.Count.Computing

/-!
# Recording alone

What an item is added with, or what is recorded of it, passes the same checks in the same order:
the fields of the request, the count, the item, the sign of the quantity. Only then the variance is
computed, which may overflow, and the item is stored.
-/

namespace Recount

/-- An action overflows at each of its ends, or at none of them, by a condition. -/
def Action.OverflowsIff {α : Type} (x : Action α) (σ : Concurrent.Scene) (p : Prop) : Prop :=
  Action.Leads (fun ending _ => (∃ o, ending = .overflow o) ↔ p) x σ

namespace Counting

open Concurrent (Scene Ending)

/-- A scene in which the store is as it was; identifiers may have been drawn. -/
structure Idle (σ σ' : Scene) : Prop where
  store : σ'.store = σ.store
  drawn : ∀ id ∈ σ.drawn, id ∈ σ'.drawn

/-- The count of a tenant, which accepts items. -/
def Editable (s : Store) (tenant count : Id) (c : Count) : Prop :=
  s.count? tenant count = some c ∧ c.status.acceptsItems = true

variable {α β : Type} {post : Ending β → Scene → Prop} {σ σ' σ'' : Scene}

theorem Idle.trans (h : Idle σ σ') (h' : Idle σ' σ'') : Idle σ σ'' :=
  ⟨h'.store.trans h.store, fun id hid => h'.drawn id (h.drawn id hid)⟩

theorem Idle.told (σ : Scene) {e : Concurrent.Exchange} : Idle σ (σ.told e) :=
  ⟨rfl, fun _ hid => hid⟩

theorem Idle.called (σ : Scene) {supply : Supply} {e : Concurrent.Exchange} :
    Idle σ (σ.called supply e σ.store) :=
  ⟨rfl, fun _ => List.mem_append_right _⟩

theorem Idle.drew (σ : Scene) {id : Id} {e : Concurrent.Exchange} :
    Idle σ (σ.answered e σ.store (id :: σ.drawn)) :=
  ⟨rfl, fun _ => List.mem_cons_of_mem id⟩

/-- A request without faults goes on. -/
theorem leads_checkFields {faults : List FieldFault} {f : Unit → Action β}
    (hfaults : faults ≠ [] → post (.failure (.fields faults)) σ)
    (hrest : faults = [] → Action.Leads post (f ()) σ) :
    Action.Leads post (Action.checkFields faults >>= f) σ := by
  unfold Action.checkFields
  cases faults with
  | nil => exact hrest rfl
  | cons fault faults => exact hfaults (List.cons_ne_nil _ _)

theorem leads_now_bind {f : Time → Action β}
    (hrest : ∀ time σ', Idle σ σ' → Action.Leads post (f time) σ') :
    Action.Leads post (Action.now >>= f) σ :=
  Action.leads_bind.mpr (Action.leads_now.mpr fun time => hrest time _ (.told σ))

theorem leads_freshId_bind {f : Id → Action β}
    (hrest : ∀ id σ', id ∉ σ.drawn → id ∈ σ'.drawn → Idle σ σ' → Action.Leads post (f id) σ') :
    Action.Leads post (Action.freshId >>= f) σ :=
  Action.leads_bind.mpr (Action.leads_freshId.mpr fun id hid =>
    hrest id _ hid List.mem_cons_self (.drew σ))

/-- A call that only reads leaves the store as it is. -/
theorem leads_reads {call : CountCall} {result : call.Result} {f : call.Result → Action β}
    (hread : ∀ supply, σ.store.answerCounts supply call = .ok (result, σ.store))
    (hrest : ∀ σ', Idle σ σ' → Action.Leads post (f result) σ') :
    Action.Leads post (Action.counts call >>= f) σ := by
  refine Action.leads_bind.mpr (Action.leads_counts.mpr fun supply _ => ?_)
  rw [hread supply]
  exact hrest _ (.called σ)

/-- A count that accepts items is looked up, or nothing happens. -/
theorem leads_editableCount {tenant count : Id} {f : Count → Action β}
    (hrefused : (∀ c, ¬ Editable σ.store tenant count c) → ∀ e σ',
      e ≠ .invalid .negativeQuantity → Idle σ σ' → post (.failure e) σ')
    (hrest : ∀ c σ', Editable σ.store tenant count c → Idle σ σ' → Action.Leads post (f c) σ') :
    Action.Leads post (editableCount tenant count >>= f) σ := by
  unfold editableCount getCount
  refine Action.leads_bind.mpr (Action.leads_bind.mpr (leads_reads (fun _ => rfl) ?_))
  intro σ' hidle
  cases hcount : σ.store.count? tenant count with
  | none =>
    refine hrefused (fun c hc => ?_) _ σ' (by simp) hidle
    cases hcount.symm.trans hc.1
  | some c =>
    change Action.Leads _ (Action.check c.checkEditable >>= fun _ => pure c) σ'
    unfold Count.checkEditable
    by_cases haccepts : c.status.acceptsItems = true
    · rw [if_pos haccepts]
      exact hrest c σ' ⟨hcount, haccepts⟩ hidle
    · rw [if_neg haccepts]
      refine hrefused (fun c' hc' => ?_) _ σ' (by simp) hidle
      cases hcount.symm.trans hc'.1
      exact haccepts hc'.2

theorem checkWritable_eq {s : Store} {tenant count : Id} {c : Count}
    (h : Editable s tenant count c) : s.checkWritable count c.currentVersion = .ok () := by
  obtain ⟨hcount, haccepts⟩ := h
  obtain ⟨hany, -⟩ := Option.filter_eq_some_iff.mp hcount
  unfold Store.checkWritable
  rw [hany]
  exact Count.checkWritable_eq_ok_iff.mpr ⟨haccepts, rfl⟩

/-- An item of the current version of an editable count is stored, with the change to its report. -/
theorem recordItem_eq {s : Store} {tenant count : Id} {c : Count} {i recorded : Item}
    (hc : Editable s tenant count c) (hi : s.item? recorded.count recorded.id = some i)
    (hcount : recorded.count = count) (hversion : i.version = c.currentVersion)
    (change : ReportChange) (now : Time) :
    s.recordItem recorded change now = .ok ({ recorded with updatedAt := now },
      (s.putItem { recorded with updatedAt := now }).changeReport
        { recorded with updatedAt := now } change) := by
  have hchecked : s.checkWritable recorded.count i.version = .ok () := by
    rw [hcount, hversion]
    exact checkWritable_eq hc
  unfold Store.recordItem
  rw [hi]
  dsimp only
  rw [hchecked]
  rfl

/-- What is stored of an item once a quantity was recorded. -/
structure Counted (i : Item) (counted : Decimal) (recorded : Item) : Prop where
  subject : recorded.subject = i.subject
  key : recorded.key = i.key
  known : recorded.known = i.known
  countedQty : recorded.countedQty = some counted
  consistent : recorded.Consistent

/-- An item whose quantity was entered, as it is handed to the store. -/
def enteredBy (actor : Id) (time : Time) (i : Item) : Item :=
  { i with status := .counted, countedBy := some actor, countedAt := some time }

theorem counted_of_withCounted {i j : Item} {counted : Decimal} {actor : Id} {time : Time}
    (h : i.withCounted counted = .ok j) : Counted i counted (enteredBy actor time j) := by
  have hconsistent := Item.consistent_of_withCounted h
  obtain ⟨_, _, _, _, rfl⟩ := Item.withCounted_eq_ok h
  exact ⟨rfl, rfl, rfl, rfl, hconsistent⟩

/-- A quantity that is not negative is entered with its variance, and with the report of it. -/
theorem leads_recordQuantity_entered {i : Item} {counted : Decimal} {actor : Id}
    {post : Ending Item → Scene → Prop}
    (hnegative : counted.isNegative = true → post (.failure (.invalid .negativeQuantity)) σ)
    (hover : counted.isNegative = false → ∀ o, i.withCounted counted = .error o →
      post (.overflow o) σ)
    (hrecord : counted.isNegative = false → ∀ j, i.withCounted counted = .ok j →
      ∀ time report id opened σ', (enteredBy actor time j).report? id opened = .ok report →
        id ∉ σ.drawn → id ∈ σ'.drawn → Idle σ σ' →
        Action.Leads post
          (Action.counts (.recordItem (enteredBy actor time j) (.ofReport? report))) σ') :
    Action.Leads post (recordQuantity i counted actor) σ := by
  unfold recordQuantity
  cases hsign : counted.isNegative with
  | true => exact hnegative hsign
  | false =>
    rw [if_neg (by simp)]
    cases hwith : i.withCounted counted with
    | error o => exact hover hsign o hwith
    | ok j =>
      refine leads_now_bind fun time σ₁ hidle₁ => leads_freshId_bind fun id σ₂ hid hdrawn hidle₂ =>
        leads_now_bind fun opened σ₃ hidle₃ => ?_
      have hcounted : Counted i counted (enteredBy actor time j) := counted_of_withCounted hwith
      obtain ⟨report, hreport⟩ := hcounted.consistent.exists_report id opened
      change Action.Leads post (Action.arithmetic ((enteredBy actor time j).report? id opened) >>=
        fun report => Action.counts (.recordItem (enteredBy actor time j) (.ofReport? report))) σ₃
      rw [hreport]
      exact hrecord hsign j hwith time report id opened σ₃ hreport
        (fun hmem => hid (hidle₁.drawn id hmem)) (hidle₃.drawn id hdrawn)
        ((hidle₁.trans hidle₂).trans hidle₃)

/-- A quantity that is not negative and whose variance can be computed is recorded. -/
theorem leads_recordQuantity {i : Item} {counted : Decimal} {actor : Id}
    {post : Ending Item → Scene → Prop}
    (hnegative : counted.isNegative = true → post (.failure (.invalid .negativeQuantity)) σ)
    (hover : counted.isNegative = false → ¬ VarianceInRange i.systemQty counted →
      ∀ o, post (.overflow o) σ)
    (hrecord : counted.isNegative = false → VarianceInRange i.systemQty counted →
      ∀ recorded report id time σ', Counted i counted recorded →
        recorded.report? id time = .ok report → id ∉ σ.drawn → Idle σ σ' →
        Action.Leads post (Action.counts (.recordItem recorded (.ofReport? report))) σ') :
    Action.Leads post (recordQuantity i counted actor) σ := by
  refine leads_recordQuantity_entered hnegative (fun hsign o ho => ?_) ?_
  · rcases withCounted_cases i counted with ⟨-, j, hj⟩ | ⟨hrange, -⟩
    · cases ho.symm.trans hj
    · exact hover hsign hrange o
  · intro hsign j hj time report id opened σ' hreport hid _ hidle
    rcases withCounted_cases i counted with ⟨hrange, -⟩ | ⟨-, o, ho⟩
    · exact hrecord hsign hrange _ report id opened σ' (counted_of_withCounted hj) hreport hid hidle
    · cases ho.symm.trans hj

/-- The items of a store are as they were, but for what was counted of them. -/
def Measured (s s' : Store) : Prop :=
  ∀ id, (s'.items.find? (·.id = id)).map (fun i => (i.count, i.version, i.systemQty)) =
    (s.items.find? (·.id = id)).map fun i => (i.count, i.version, i.systemQty)

/-- A quantity that is accepted has no variance from what the system knows of its item. -/
def Overruns (s : Store) (c : Count) (item : Id) (counted : Decimal) : Prop :=
  counted.isNegative = false ∧ ∃ i, s.item? c.id item = some i ∧ i.version = c.currentVersion ∧
    ¬ VarianceInRange i.systemQty counted

theorem Measured.overruns_iff {s s' : Store} (h : Measured s s') {c : Count} {item : Id}
    {counted : Decimal} : Overruns s' c item counted ↔ Overruns s c item counted := by
  have hmeasured : ∀ s : Store, Overruns s c item counted ↔ counted.isNegative = false ∧
      ∃ system, (s.items.find? (·.id = item)).map (fun i => (i.count, i.version, i.systemQty)) =
        some (c.id, c.currentVersion, system) ∧ ¬ VarianceInRange system counted := by
    intro s
    unfold Overruns Store.item?
    cases s.items.find? (·.id = item) with
    | none => simp
    | some i =>
      simp [Option.filter_some]
      tauto
  rw [hmeasured, hmeasured, h item]

theorem find?_putBy_of_ne {ι : Type} {id : ι → Id} {e : ι} {l : List ι} {a : Id} (h : a ≠ id e) :
    (putBy id e l).find? (fun x => id x = a) = l.find? fun x => id x = a := by
  have he : decide (id e = a) = false := decide_eq_false fun heq => h heq.symm
  induction l with
  | nil => simp [putBy, he]
  | cons x l ih =>
    unfold putBy
    split
    · next hx => simp [hx, he]
    · rw [List.find?_cons, List.find?_cons, ih]

/-- Recording a quantity of an item changes only what was counted of it. -/
theorem measured_of_recordItem {s s' : Store} {count : Id} {i recorded result : Item}
    {counted : Decimal} {change : ReportChange} {now : Time}
    (hi : s.item? count i.id = some i) (hcounted : Counted i counted recorded)
    (h : s.recordItem recorded change now = .ok (result, s')) : Measured s s' := by
  obtain ⟨-, -, -, -, -, -, -, -, -, rfl, rfl⟩ := Store.recordItem_eq_ok h
  have hsubject := hcounted.subject
  simp only [Item.subject, Subject.mk.injEq] at hsubject
  obtain ⟨hcount, hid, hversion, -⟩ := hsubject
  have hknown : recorded.systemQty = i.systemQty := congrArg Item.Known.systemQty hcounted.known
  obtain ⟨hfound, -⟩ := Option.filter_eq_some_iff.mp hi
  intro id
  rw [Store.changeReport_items]
  let stored : Item := { recorded with updatedAt := now }
  change ((putBy Item.id stored s.items).find? fun j => j.id = id).map _ = _
  have hstored : stored.id = i.id := hid
  by_cases heq : id = i.id
  · have hnew : (putBy Item.id stored s.items).find? (fun j => j.id = id) = some stored := by
      rw [heq, ← hstored]
      exact find?_putBy_self
    rw [hnew, heq, hfound, Option.map_some, Option.map_some, ← hcount, ← hversion, ← hknown]
  · rw [find?_putBy_of_ne (hstored ▸ heq)]

theorem recordItem_ne_overflow {s : Store} {i : Item} {change : ReportChange} {now : Time}
    {o : Overflow} : s.recordItem i change now ≠ .error (.overflow o) := by
  intro h
  unfold Store.recordItem at h
  split at h
  · next stored _ =>
    cases hcheck : s.checkWritable i.count stored.version <;> rw [hcheck] at h <;> cases h
  · cases h

/-- The quantity of an item of the current version is recorded, refused or without a variance. -/
theorem leads_recordInVersion {c : Count} {item actor : Id} {counted : Decimal}
    {post : Ending Item → Scene → Prop}
    (hover : Overruns σ.store c item counted → ∀ o σ', post (.overflow o) σ')
    (hrest : ¬ Overruns σ.store c item counted → ∀ ending σ', (∀ o, ending ≠ .overflow o) →
      Measured σ.store σ'.store → post ending σ') :
    Action.Leads post (recordInVersion c item counted actor) σ := by
  have hsame : ∀ {σ' : Scene}, Idle σ σ' → Measured σ.store σ'.store := fun h id => by rw [h.store]
  unfold recordInVersion
  refine leads_reads (fun _ => rfl) fun σ₁ hidle => ?_
  cases hfound : σ.store.item? c.id item with
  | none =>
    refine hrest (fun h => ?_) _ σ₁ (by rintro _ ⟨⟩) (hsame hidle)
    obtain ⟨-, i, hi, -⟩ := h
    cases hfound.symm.trans hi
  | some i =>
    change Action.Leads post (if i.version ≠ c.currentVersion then _ else _) σ₁
    by_cases hversion : i.version = c.currentVersion
    · rw [if_neg (not_not.mpr hversion)]
      have hid : i.id = item := (Store.item?_eq_some hfound).2.1
      refine leads_recordQuantity (fun hsign => ?_) (fun hsign hrange o => ?_) ?_
      · refine hrest (fun h => ?_) _ σ₁ (by rintro _ ⟨⟩) (hsame hidle)
        rw [h.1] at hsign
        cases hsign
      · exact hover ⟨hsign, i, hfound, hversion, hrange⟩ o σ₁
      · intro _ hrange recorded report _ _ σ₂ hcounted _ _ hidle₂
        have hnot : ¬ Overruns σ.store c item counted := by
          rintro ⟨-, i', hi', -, hrange'⟩
          cases hfound.symm.trans hi'
          exact hrange' hrange
        have hstore := (hidle.trans hidle₂).store
        refine (@Action.leads_counts σ₂ (.recordItem recorded (.ofReport? report)) _).mpr
          fun supply _ => ?_
        change Action.Answered (.counts (.recordItem recorded (.ofReport? report))) _ _ supply
          (σ₂.store.recordItem recorded (.ofReport? report) (supply.time 0))
        rw [hstore]
        cases hanswer : σ.store.recordItem recorded (.ofReport? report) (supply.time 0) with
        | ok answer =>
          exact hrest hnot _ _ (by rintro _ ⟨⟩)
            (measured_of_recordItem (hid.symm ▸ hfound) hcounted hanswer)
        | error halt =>
          cases halt with
          | refused e =>
            refine hrest hnot _ _ (by rintro _ ⟨⟩) fun id => ?_
            change (σ₂.store.items.find? _).map _ = _
            rw [hstore]
          | overflow o => exact absurd hanswer recordItem_ne_overflow
    · rw [if_pos hversion]
      refine hrest (fun h => ?_) _ σ₁ (by rintro _ ⟨⟩) (hsame hidle)
      obtain ⟨-, i', hi', hversion', -⟩ := h
      cases hfound.symm.trans hi'
      exact hversion hversion'

section Entries

variable {tenant count actor : Id} {c : Count}

theorem updateItem_overflowsIff {item : Id} {r : RecordQuantity} :
    Action.OverflowsIff (updateItem tenant count item r actor) σ
      (∃ c, Editable σ.store tenant count c ∧ Overruns σ.store c item r.counted) := by
  refine leads_checkFields (fun hfaults => iff_of_false (by rintro ⟨_, ⟨⟩⟩) ?_) fun _ =>
    leads_editableCount (fun hnone e σ' _ _ => ?_) fun c σ₁ hc hidle => ?_
  · rintro ⟨c, -, hsign, -⟩
    exact hfaults (by simp [RecordQuantity.faults, faultUnless, hsign])
  · exact iff_of_false (by rintro ⟨_, ⟨⟩⟩) fun ⟨c, hc, _⟩ => hnone c hc
  · have honly : (∃ c, Editable σ.store tenant count c ∧ Overruns σ.store c item r.counted) ↔
        Overruns σ₁.store c item r.counted := by
      rw [hidle.store]
      refine ⟨?_, fun h => ⟨c, hc, h⟩⟩
      rintro ⟨c', hc', h⟩
      cases hc.1.symm.trans hc'.1
      exact h
    rw [honly]
    refine leads_recordInVersion (fun h o σ' => iff_of_true ⟨o, rfl⟩ h) fun h ending σ' hnot _ =>
      iff_of_false (fun ⟨o, ho⟩ => hnot o ho) h

/-- The first entry that has no variance ends a batch. -/
theorem submitEntries_overflowsIff {summary : SubmitSummary} {entries : List CountEntry} :
    Action.OverflowsIff (submitEntries c actor summary entries) σ
      (∃ entry ∈ entries, Overruns σ.store c entry.item entry.counted) := by
  induction entries generalizing σ summary with
  | nil => exact iff_of_false (by rintro ⟨_, ⟨⟩⟩) (by simp)
  | cons entry entries ih =>
    refine Action.leads_bind.mpr (Action.leads_attempt.mpr
      (leads_recordInVersion (fun h o σ' => ?_) fun h ending σ' hnot hmeasured => ?_))
    · exact iff_of_true ⟨o, rfl⟩ ⟨entry, List.mem_cons_self, h⟩
    · have hrest : (∃ e ∈ entry :: entries, Overruns σ.store c e.item e.counted) ↔
          ∃ e ∈ entries, Overruns σ'.store c e.item e.counted := by
        simp only [List.mem_cons, exists_eq_or_imp, h, false_or, hmeasured.overruns_iff]
      cases ending with
      | success i => exact (ih (σ := σ')).mono fun ending _ hiff => hiff.trans hrest.symm
      | failure e => exact (ih (σ := σ')).mono fun ending _ hiff => hiff.trans hrest.symm
      | overflow o => exact absurd rfl (hnot o)

theorem submit_overflowsIff {version : Int} {r : SubmitEntries} :
    Action.OverflowsIff (submit tenant count version r actor) σ
      (∃ c, Editable σ.store tenant count c ∧ version = c.currentVersion ∧
        ∃ entry ∈ r.entries, Overruns σ.store c entry.item entry.counted) := by
  refine leads_checkFields (fun hfaults => iff_of_false (by rintro ⟨_, ⟨⟩⟩) ?_) fun _ =>
    leads_editableCount (fun hnone e σ' _ _ => ?_) fun c σ₁ hc hidle => ?_
  · rintro ⟨c, -, -, entry, hentry, -⟩
    refine hfaults ?_
    have hsome : r.entries.isEmpty = false := by
      rw [List.isEmpty_eq_false_iff]
      exact List.ne_nil_of_mem hentry
    simp [SubmitEntries.faults, faultUnless, hsome]
  · exact iff_of_false (by rintro ⟨_, ⟨⟩⟩) fun ⟨c, hc, _⟩ => hnone c hc
  by_cases hversion : version = c.currentVersion
  · rw [if_neg (not_not.mpr hversion)]
    refine submitEntries_overflowsIff.mono fun ending _ hiff => hiff.trans ?_
    rw [hidle.store]
    refine ⟨fun h => ⟨c, hc, hversion, h⟩, ?_⟩
    rintro ⟨c', hc', -, h⟩
    cases hc.1.symm.trans hc'.1
    exact h
  · rw [if_pos hversion]
    refine iff_of_false (by rintro ⟨_, ⟨⟩⟩) ?_
    rintro ⟨c', hc', hversion', -⟩
    cases hc.1.symm.trans hc'.1
    exact hversion hversion'

end Entries

end Counting
end Recount
