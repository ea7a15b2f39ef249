import Recount.Proofs.Count.Item
import Recount.Store.Counts
import Recount.Proofs.Store.Fitting

/-!
# A record in a store

An item that is inserted or refreshed stands under its key with what the system knows by then and
with what was counted before. Its report says what the variance is by then, so that doing the same
once more changes only the times of the last change.
-/

/-! ## Recordings and loads of one item

A recording changes what was counted of an item, and a load changes what the system knows
of it. Done one after the other, in whichever order, they leave the item with what the
system was told by the load. This tells them from a recording that overwrites a load.
-/

namespace Recount

/-- What the system knows of an item. -/
structure Item.Known where
  name : String
  uom : Option String
  packQty : Option Decimal
  systemQty : Decimal
  cost : Option Decimal
  price : Option Decimal
  barcodes : Option String
  category : Option String
  brand : Option String
deriving DecidableEq

/-- What the system knows of an item. -/
def Item.known (i : Item) : Item.Known :=
  ⟨i.name, i.uom, i.packQty, i.systemQty, i.cost, i.price, i.barcodes, i.category, i.brand⟩

/-- An item with its times left aside. -/
def Item.timeless (i : Item) : Item :=
  { i with countedAt := i.countedAt.map fun _ => default, createdAt := default, updatedAt := default }

/-- What an item becomes when an actor records a quantity of it. -/
inductive Recorded (qty : Decimal) (actor : Id) (i : Item) : Item → Prop
  | mk (counted : Item) (countedAt updatedAt : Time) (h : i.withCounted qty = .ok counted) :
      Recorded qty actor i
        { counted with
          status := .counted, countedBy := some actor, countedAt := some countedAt, updatedAt }

/-- What an item becomes when another one is loaded in its place, or what there is then if there was
none. -/
inductive Loaded (new : Item) : Option Item → Item → Prop
  | inserted : Loaded new none new
  | refreshed {old : Item} (now : Time) (hqty : old.countedQty = none) :
      Loaded new (some old) (Store.refresh old new now)
  | recomputed {old i : Item} {qty : Decimal} (now : Time) (hqty : old.countedQty = some qty)
      (hi : (Store.refresh old new now).withCounted qty = .ok i) : Loaded new (some old) i

/-- A recording of a quantity: of an item that is there, or of one that it adds first. -/
structure Recording where
  added : Option Item
  qty : Decimal
  actor : Id

/-- What a recording leaves where there was an item, or none. -/
inductive Recording.Leaves (r : Recording) : Option Item → Item → Prop
  | updated {i j : Item} (hadded : r.added = none) (h : Recorded r.qty r.actor i j) :
      Leaves r (some i) j
  | added {i j : Item} (hadded : r.added = some i) (h : Recorded r.qty r.actor i j) :
      Leaves r none j

/-- What a recording and a load leave when one comes after the other. -/
inductive Serial (r : Recording) (new : Item) (before : Option Item) (after : Item) : Prop
  | load_record {i : Item} (hload : Loaded new before i) (hrecord : r.Leaves (some i) after)
  | record_load {i : Item} (hrecord : r.Leaves before i) (hload : Loaded new (some i) after)

variable {r : Recording} {i j old new : Item} {before : Option Item} {qty : Decimal} {actor : Id}

theorem Item.known_eq_of_timeless_eq (h : i.timeless = j.timeless) : i.known = j.known := by
  simp only [timeless, Item.mk.injEq] at h
  simp only [known, h]

theorem Item.withCounted_known (h : i.withCounted qty = .ok j) : j.known = i.known := by
  obtain ⟨_, _, _, _, rfl⟩ := withCounted_eq_ok h
  rfl

theorem Recorded.known (h : Recorded qty actor i j) : j.known = i.known := by
  cases h with
  | mk counted countedAt updatedAt h =>
    have hknown := Item.withCounted_known h
    exact hknown

theorem Recorded.key (h : Recorded qty actor i j) : j.key = i.key := by
  cases h with
  | mk counted countedAt updatedAt h => exact (Item.withCounted_same h).2.1

theorem Recorded.countedQty (h : Recorded qty actor i j) : j.countedQty = some qty := by
  cases h with
  | mk counted countedAt updatedAt h => exact (Item.withCounted_same h).2.2.2

/-- After a load the system knows what it was told. -/
theorem Loaded.known (h : Loaded new before i) : i.known = new.known := by
  cases h with
  | inserted => rfl
  | refreshed => rfl
  | recomputed now hqty hi =>
    have hknown := Item.withCounted_known hi
    exact hknown

/-- A load keeps what was counted. -/
theorem Loaded.countedQty (h : Loaded new (some old) i) : i.countedQty = old.countedQty := by
  cases h with
  | refreshed => rfl
  | recomputed now hqty hi => exact (Item.withCounted_same hi).2.2.2.trans hqty.symm

/-- In both orders, the system knows in the end what the load told it. -/
theorem Serial.known (h : Serial r new before i) : i.known = new.known := by
  cases h with
  | load_record hload hrecord =>
    cases hrecord with
    | updated hadded hrecorded => exact hrecorded.known.trans hload.known
  | record_load hrecord hload => exact hload.known

theorem refresh_of_known_eq (h : old.known = new.known) (now : Time) :
    Store.refresh old new now = { old with updatedAt := now } := by
  simp only [Item.known, Item.Known.mk.injEq] at h
  obtain ⟨hname, huom, hpack, hsystem, hcost, hprice, hbarcodes, hcategory, hbrand⟩ := h
  unfold Store.refresh
  rw [← hname, ← huom, ← hpack, ← hsystem, ← hcost, ← hprice, ← hbarcodes, ← hcategory, ← hbrand]

/-- What was recorded is loaded without any change, times aside, if the system knew it already. -/
theorem Recorded.exists_loaded (h : Recorded qty actor i j) (hknown : j.known = new.known) :
    ∃ k, Loaded new (some j) k ∧ k.timeless = j.timeless := by
  have hcounted : j.countedQty = some qty := h.countedQty
  have hagain : ({ j with updatedAt := default } : Item).withCounted qty =
      .ok { j with updatedAt := default } := by
    cases h with
    | mk counted countedAt updatedAt h =>
      obtain ⟨difference, percent, hdifference, hpercent, rfl⟩ := Item.withCounted_eq_ok h
      simp only [Item.withCounted, hdifference, hpercent]
      rfl
  refine ⟨{ j with updatedAt := default }, .recomputed default hcounted ?_, rfl⟩
  rw [refresh_of_known_eq hknown]
  exact hagain

end Recount

/-! ## Records -/

namespace Recount

/-- What a load leaves of an item: its identity, and what was counted of it. -/
structure Item.Tally where
  id : Id
  countedQty : Option Decimal
  previousQty : Option Decimal
  status : ItemStatus
  countedBy : Option Id
  countedAt : Option Time
  createdAt : Time
deriving DecidableEq

/-- What a load leaves of an item. -/
def Item.tally (i : Item) : Item.Tally :=
  ⟨i.id, i.countedQty, i.previousQty, i.status, i.countedBy, i.countedAt, i.createdAt⟩

/-- An item with the time of its last change left aside. -/
def Item.unstamped (i : Item) : Item := { i with updatedAt := default }

/-- A report with the time of its last change left aside. -/
def Report.unstamped (r : Report) : Report := { r with updatedAt := default }

/-- A store with the times of the last changes left aside. -/
def Store.unstamped (s : Store) : Store :=
  { s with items := s.items.map Item.unstamped, reports := s.reports.map Report.unstamped }

/-- A variance can be computed from two quantities. -/
def Computes (system counted : Decimal) : Prop :=
  (∃ difference, counted.sub system = .ok difference) ∧
    ∃ percent, variancePercent system counted = .ok percent

instance (system counted : Decimal) : Decidable (Computes system counted) :=
  decidable_of_iff ((counted.sub system).isOk = true ∧ (variancePercent system counted).isOk = true)
    (and_congr isOk_iff isOk_iff)

/-- A report of an item is as it is opened: pending, and nobody has resolved it. -/
structure Report.Opens (r : Report) (i : Item) : Prop extends r.Describes i where
  status : r.status = .pending
  resolution : r.resolution = none
  resolvedBy : r.resolvedBy = none
  resolvedAt : r.resolvedAt = none

/-- The reports have what is to be said about the variance of an item. -/
structure Store.Current (s : Store) (i : Item) : Prop where
  opened : i.hasVariance = true → ∃ r ∈ s.reports, r.Opens i
  cleared : i.countedQty ≠ none → i.hasVariance = false →
    ∀ r ∈ s.reports, r.item = i.id → r.status ≠ .pending

section Items

variable {i j old new : Item} {r q : Report} {counted : Decimal} {id : Id} {now : Time}

theorem exists_withCounted (h : Computes i.systemQty counted) :
    ∃ j, i.withCounted counted = .ok j := by
  obtain ⟨⟨difference, hdifference⟩, percent, hpercent⟩ := h
  unfold Item.withCounted
  rw [hdifference, hpercent]
  exact ⟨_, rfl⟩

/-- The variance of a counted item was computed before. -/
theorem Item.Consistent.computes (hi : i.Consistent) (hcounted : i.countedQty = some counted) :
    Computes i.systemQty counted := by
  obtain ⟨difference, percent, hdifference, hpercent, -⟩ := hi.of_some hcounted
  exact ⟨⟨difference, hdifference⟩, percent, hpercent⟩

/-- What was counted of a consistent item is entered without any change. -/
theorem Item.Consistent.withCounted_eq (hi : i.Consistent)
    (hcounted : i.countedQty = some counted) : i.withCounted counted = .ok i := by
  obtain ⟨difference, percent, hdifference, hpercent, hd, hp, hvariance⟩ := hi.of_some hcounted
  unfold Item.withCounted
  rw [hdifference, hpercent]
  change Except.ok { i with
    countedQty := some counted
    difference := some difference
    variancePercent := some percent
    hasVariance := !difference.isZero } = _
  rw [← hcounted, ← hd, ← hp, ← hvariance]

theorem withCounted_tally (h : i.withCounted counted = .ok j)
    (hcounted : i.countedQty = some counted) : j.tally = i.tally := by
  obtain ⟨_, _, _, _, rfl⟩ := Item.withCounted_eq_ok h
  simp only [Item.tally, hcounted]

/-- A consistent item can be reported, and is if it has a variance. -/
theorem Item.Consistent.report?_eq (hi : i.Consistent) (id : Id) (now : Time) :
    (i.hasVariance = true ∧ ∃ r, i.report? id now = .ok (some r) ∧ r.Opens i ∧ r.id = id) ∨
      (i.hasVariance = false ∧ i.report? id now = .ok none) := by
  cases hcounted : i.countedQty with
  | none =>
    have hvariance := (hi.of_none hcounted).2.2
    refine .inr ⟨hvariance, ?_⟩
    unfold Item.report?
    rw [hvariance]
  | some counted =>
    cases hvariance : i.hasVariance with
    | false =>
      refine .inr ⟨rfl, ?_⟩
      unfold Item.report?
      rw [hvariance]
    | true =>
      obtain ⟨difference, percent, hdifference, hpercent, hd, hp, -⟩ := hi.of_some hcounted
      refine .inl ⟨rfl, ?_⟩
      unfold Item.report?
      rw [hvariance, hcounted]
      dsimp only
      rw [hdifference, hpercent]
      exact ⟨_, rfl, ⟨⟨rfl, rfl, hcounted, hd, hp⟩, rfl, rfl, rfl, rfl⟩, rfl⟩

/-- Reports that are opened for one item differ in their identity and their times. -/
theorem Report.Opens.unstamped_eq (hr : r.Opens i) (hq : q.Opens i) :
    ({ r with id := q.id, createdAt := q.createdAt } : Report).unstamped = q.unstamped := by
  have hsubject := hr.subject.trans hq.subject.symm
  have hcounted := hr.countedQty.symm.trans hq.countedQty
  have hdifference := hr.difference.symm.trans hq.difference
  have hpercent := hr.variancePercent.symm.trans hq.variancePercent
  simp only [Report.subject, Subject.mk.injEq] at hsubject
  simp only [Report.unstamped, hsubject, hr.systemQty, hq.systemQty, Option.some.inj hcounted,
    Option.some.inj hdifference, Option.some.inj hpercent, hr.status, hq.status, hr.resolution,
    hq.resolution, hr.resolvedBy, hq.resolvedBy, hr.resolvedAt, hq.resolvedAt]

end Items

namespace Store

variable {s s' : Store} {c : Count} {i old new : Item} {report : Option Report} {id : Id}
  {now : Time} {ids : List Id} {supply : Supply} {outcome : UpsertOutcome}

theorem Current.congr (h : s.Current i)
    (hreports : ∀ r, r.item = i.id → (r ∈ s'.reports ↔ r ∈ s.reports)) : s'.Current i where
  opened hvariance := by
    obtain ⟨r, hr, hopens⟩ := h.opened hvariance
    have hitem : r.item = i.id := congrArg Subject.item hopens.subject
    exact ⟨r, (hreports r hitem).mpr hr, hopens⟩
  cleared hcounted hvariance r hr hitem :=
    h.cleared hcounted hvariance r ((hreports r hitem).mp hr) hitem

/-- An item that has not been counted needs no report. -/
theorem current_of_uncounted (hvariance : i.hasVariance = false) (hnone : i.countedQty = none) :
    s.Current i where
  opened htrue := by
    rw [hvariance] at htrue
    cases htrue
  cleared hcounted := absurd hnone hcounted

section Reports

variable (h : s.Sound) (hi : i.Consistent) (hreport : i.report? id now = .ok report)

include h hi hreport

/-- With its report, an item has what is to be said about its variance, and the reports of other
items stay. -/
theorem Sound.current_changeReport (hstored : ∃ j ∈ s.items, j.subject = i.subject)
    (hfresh : ∀ q ∈ s.reports, q.id ≠ id) :
    (s.changeReport i (.ofReport? report)).Current i ∧
      ∀ q, q.item ≠ i.id →
        (q ∈ (s.changeReport i (.ofReport? report)).reports ↔ q ∈ s.reports) := by
  rcases hi.report?_eq id now with ⟨hvariance, r, heq, hopens, hid⟩ | ⟨hvariance, heq⟩
  · cases Except.ok.inj (hreport.symm.trans heq)
    have hr : ∃ j ∈ s.items, j.subject = r.subject := hopens.subject ▸ hstored
    have hnew : ∀ q ∈ s.reports, q.id ≠ r.id := hid ▸ hfresh
    obtain ⟨id', createdAt, hadopted⟩ := adopted_eq (s := s) (r := r)
    have hput := (h.mem_putReport_iff hr hnew).mpr (.inl rfl)
    refine ⟨⟨fun _ => ⟨s.adopted r, hput, ?_⟩, fun _ hnot => ?_⟩,
      fun q hne => h.mem_changeReport_iff (fun p hp => ?_) hne⟩
    · rw [hadopted]
      exact { hopens with }
    · rw [hvariance] at hnot
      cases hnot
    · cases hp
      exact ⟨congrArg Subject.item hopens.subject, hr, hnew⟩
  · cases Except.ok.inj (hreport.symm.trans heq)
    refine ⟨⟨fun hnot => ?_, fun _ _ q hq hitem hpending => ?_⟩,
      fun q hne => h.mem_changeReport_iff (fun p hp => ?_) hne⟩
    · rw [hvariance] at hnot
      cases hnot
    · obtain ⟨hq, hkept⟩ := List.mem_filter.mp hq
      obtain ⟨j, hj, hsubject⟩ := hstored
      have hsame := h.subject_eq hq hj (hitem.trans (congrArg Subject.item hsubject).symm)
      have hversion : q.version = i.version := congrArg Subject.version (hsame.trans hsubject)
      simp [hitem, hversion, hpending] at hkept
    · cases hp

/-- A report that is opened once more differs in the time of its last change. -/
theorem Sound.unstamped_changeReport (hcurrent : s.Current i) (hcounted : i.countedQty ≠ none) :
    (s.changeReport i (.ofReport? report)).reports.map Report.unstamped =
      s.reports.map Report.unstamped := by
  rcases hi.report?_eq id now with ⟨hvariance, r, heq, hopens, -⟩ | ⟨hvariance, heq⟩
  · cases Except.ok.inj (hreport.symm.trans heq)
    obtain ⟨q, hq, hqopens⟩ := hcurrent.opened hvariance
    have hsubject : q.subject = r.subject := hqopens.subject.trans hopens.subject.symm
    have hitem : q.item = r.item := congrArg Subject.item hsubject
    have hversion : q.version = r.version := congrArg Subject.version hsubject
    have hadopted : s.adopted r = { r with id := q.id, createdAt := q.createdAt } := by
      unfold adopted
      split
      · next old hold =>
        have hfound := List.find?_some hold
        simp only [Bool.and_eq_true, decide_eq_true_eq] at hfound
        have holdmem := List.mem_of_find?_eq_some hold
        have hoid := h.report_unique old holdmem q hq (hfound.1.trans hitem.symm)
        rw [eq_of_id_eq h.reports_nodup holdmem hq hoid]
      · next hnone =>
        simpa [hitem, hversion] using List.find?_eq_none.mp hnone q hq
    change (s.putReport r).reports.map Report.unstamped = _
    rw [putReport_reports, hadopted]
    exact map_putBy_of_eq h.reports_nodup hq rfl (hopens.unstamped_eq hqopens)
  · cases Except.ok.inj (hreport.symm.trans heq)
    have hkept : (s.changeReport i .clear).reports = s.reports := by
      refine List.filter_eq_self.mpr fun q hq => ?_
      have hresolved := hcurrent.cleared hcounted hvariance q hq
      simp only [Bool.not_eq_true', Bool.and_eq_false_iff, decide_eq_false_iff_not]
      by_cases hitem : q.item = i.id
      · exact .inr (hresolved hitem)
      · exact .inl (.inl hitem)
    exact congrArg (List.map Report.unstamped) hkept

end Reports

/-- An item is put into the store under the key and with what the system knows by then, and it has
its own identifier or that of the item in its place. -/
structure PutsItem (s : Store) (new i : Item) (s' : Store) : Prop where
  key : i.key = new.key
  known : i.known = new.known
  id : i.id = new.id ∨ ∃ old ∈ s.items, old.key = new.key ∧ i.id = old.id
  items : s'.items = putBy Item.id i s.items
  counts : s'.counts = s.counts

theorem putsItem_of_upsertItem (h : s.upsertItem new supply = .ok ((i, outcome), s')) :
    PutsItem s new i s' := by
  obtain ⟨-, -, -, -, -, hcases⟩ := upsertItem_eq_ok h
  rcases hcases with ⟨-, rfl, rfl⟩ | ⟨old, hold, hkey, ⟨-, rfl, rfl⟩ | ⟨_, _, -, hwith, -, rfl⟩⟩
  · exact ⟨rfl, rfl, .inl rfl, rfl, rfl⟩
  · exact ⟨hkey, rfl, .inr ⟨old, hold, hkey, rfl⟩, rfl, rfl⟩
  · obtain ⟨hid, hikey, -, -⟩ := Item.withCounted_same hwith
    have hknown := Item.withCounted_known hwith
    refine ⟨hikey.trans hkey, hknown, .inr ⟨old, hold, hkey, hid⟩, ?_, ?_⟩
    · rw [← changeReport_items (s := s) (i := i)]
      rfl
    · rw [← changeReport_counts (s := s) (i := i)]
      rfl

/-- The items have identifiers of their own, all of which were drawn. -/
structure Identified (s : Store) (drawn : List Id) : Prop where
  nodup : (s.items.map Item.id).Nodup
  drawn : ∀ i ∈ s.items, i.id ∈ drawn

/-- Items were stored: under each key that there was there still is an item, and the counts are as
they were. -/
structure Grows (s s' : Store) : Prop where
  counts : s'.counts = s.counts
  keys : s.items.map Item.key ⊆ s'.items.map Item.key

section Growing

variable {s'' : Store} {drawn drawn' : List Id}

theorem Grows.refl : s.Grows s := ⟨rfl, fun _ hkey => hkey⟩

theorem Grows.trans (h : s.Grows s') (h' : s'.Grows s'') : s.Grows s'' :=
  ⟨h'.counts.trans h.counts, fun _ hkey => h'.keys (h.keys hkey)⟩

theorem Grows.count?_eq (h : s.Grows s') {tenant count : Id} :
    s'.count? tenant count = s.count? tenant count := by
  simp only [count?, anyCount?, h.counts]

theorem Identified.mono (h : s.Identified drawn) (hsub : drawn ⊆ drawn') : s.Identified drawn' :=
  ⟨h.nodup, fun i hi => hsub (h.drawn i hi)⟩

theorem PutsItem.identified (h : PutsItem s new i s') (hs : s.Identified drawn)
    (hnew : new.id ∈ drawn) : s'.Identified drawn := by
  refine ⟨h.items ▸ nodup_putBy hs.nodup, fun j hj => ?_⟩
  rcases mem_of_mem_putBy (h.items ▸ hj) with rfl | hj
  · rcases h.id with hid | ⟨old, hold, -, hid⟩
    · exact hid ▸ hnew
    · exact hid ▸ hs.drawn old hold
  · exact hs.drawn j hj

/-- An item takes the place of the one under its key, or it has an identifier that no other has. -/
theorem PutsItem.grows (h : PutsItem s new i s') (hs : s.Identified drawn) (hnew : new.id ∉ drawn) :
    s.Grows s' ∧ new.key ∈ s'.items.map Item.key := by
  have hi : new.key ∈ s'.items.map Item.key := by
    rw [h.items, ← h.key]
    exact List.mem_map_of_mem mem_putBy_self
  refine ⟨⟨h.counts, fun key hkey => ?_⟩, hi⟩
  obtain ⟨j, hj, rfl⟩ := List.mem_map.mp hkey
  by_cases hid : j.id = i.id
  · rcases h.id with hown | ⟨old, hold, hkey, hown⟩
    · exact absurd (hid.trans hown ▸ hs.drawn j hj) hnew
    · rw [eq_of_id_eq hs.nodup hj hold (hid.trans hown), hkey]
      exact hi
  · rw [h.items]
    exact List.mem_map_of_mem (mem_putBy_of_ne hj hid)

end Growing

/-- What storing a record makes of a store: there is one item under its key, with what the system
knows by then, what was counted before and the report that belongs to it. Nothing else changes, and
an item that had all this already changes only its times. -/
structure Upserted (s : Store) (new i : Item) (outcome : UpsertOutcome) (s' : Store) : Prop where
  key : i.key = new.key
  known : i.known = new.known
  kept : ∀ old ∈ s.items, old.key = new.key → i.tally = old.tally
  current : s'.Current i
  items : ∀ j, j ∈ s'.items ↔ j = i ∨ (j ∈ s.items ∧ j.key ≠ new.key)
  reports : ∀ r, r.item ≠ i.id → (r ∈ s'.reports ↔ r ∈ s.reports)
  others : s' = { s with items := s'.items, reports := s'.reports }
  again : ∀ old ∈ s.items, old.key = new.key → old.known = new.known → s.Current old →
    outcome = .updated ∧ s'.unstamped = s.unstamped

section Upserting

variable (h : s.Sound)

include h

/-- The item under a key is the only one. -/
theorem Sound.eq_of_key {j : Item} (hi : i ∈ s.items) (hj : j ∈ s.items) (hkey : i.key = j.key) :
    i = j :=
  eq_of_id_eq h.items_nodup hi hj (h.key_unique i hi j hj hkey)

/-- An item takes the place of the one under its key. -/
theorem Sound.upserted_old {reports : List Report} (hold : old ∈ s.items) (hkey : old.key = new.key)
    (hikey : i.key = old.key) (hknown : i.known = new.known) (htally : i.tally = old.tally)
    (hs' : s' = { s with items := putBy Item.id i s.items, reports }) (hcurrent : s'.Current i)
    (hreports : ∀ r, r.item ≠ i.id → (r ∈ reports ↔ r ∈ s.reports))
    (hagain : old.known = new.known → s.Current old → i.unstamped = old.unstamped ∧
      reports.map Report.unstamped = s.reports.map Report.unstamped) :
    Upserted s new i .updated s' := by
  have hid : i.id = old.id := congrArg Item.Tally.id htally
  have honly : ∀ {j : Item}, j ∈ s.items → j.key = new.key → j = old := fun hj hjkey =>
    h.eq_of_key hj hold (hjkey.trans hkey.symm)
  subst hs'
  refine ⟨hikey.trans hkey, hknown, fun j hj hjkey => by rw [honly hj hjkey, htally], hcurrent,
    fun j => ?_, hreports, rfl, fun j hj hjkey hjknown hjcurrent => ⟨rfl, ?_⟩⟩
  · refine (mem_putBy_iff h.items_nodup).trans (or_congr_right (and_congr_right fun hj => ?_))
    rw [hid, ← hkey]
    exact not_congr ⟨fun hjid => congrArg Item.key (eq_of_id_eq h.items_nodup hj hold hjid),
      h.key_unique j hj old hold⟩
  · cases honly hj hjkey
    obtain ⟨hitem, hsame⟩ := hagain hjknown hjcurrent
    unfold unstamped
    dsimp only
    rw [map_putBy_of_eq h.items_nodup hold hid.symm hitem, hsame]

/-- What the system knows is entered for an item, or the item if there was none. -/
theorem Sound.upserted (hfits : new.Uncounted ∧ s.AreNew ids [new.id])
    (hsupply : s.AreNew ids (supply.ids s.demand))
    (hanswer : s.upsertItem new supply = .ok ((i, outcome), s')) : Upserted s new i outcome s' := by
  obtain ⟨huncounted, hnew⟩ := hfits
  obtain ⟨-, -, -, -, -, hcases⟩ := upsertItem_eq_ok hanswer
  rcases hcases with ⟨hkey, rfl, rfl⟩ | ⟨old, hold, hkey, hcases⟩
  · refine ⟨rfl, rfl, fun old hold hokey => absurd hokey (hkey old hold),
      current_of_uncounted huncounted.hasVariance huncounted.countedQty, fun j => ?_,
      fun r _ => Iff.rfl, rfl, fun old hold hokey => absurd hokey (hkey old hold)⟩
    refine (mem_putBy_iff h.items_nodup).trans (or_congr_right (and_congr_right fun hj => ?_))
    exact iff_of_true (hnew.item_ne (List.mem_singleton_self _) hj) (hkey j hj)
  have hconsistent := h.consistent old hold
  obtain rfl : outcome = .updated := by
    have hsome : (s.itemByKey? new.key).isSome := by
      rw [Option.isSome_iff_ne_none, Ne, itemByKey?_eq_none_iff]
      exact fun hnone => hnone old hold hkey
    rw [upsertItem_outcome hanswer, if_pos hsome]
  rcases hcases with ⟨hnone, rfl, rfl⟩ | ⟨counted, report, hcounted, hwith, hreport, rfl⟩
  · refine h.upserted_old hold hkey rfl rfl rfl rfl ?_ (fun r _ => Iff.rfl) fun hknown _ => ?_
    · exact current_of_uncounted (hconsistent.of_none hnone).2.2 hnone
    · rw [refresh_of_known_eq hknown]
      exact ⟨rfl, rfl⟩
  · have hi : i.Consistent := Item.consistent_of_withCounted hwith
    have htally := withCounted_tally hwith hcounted
    have hknown := Item.withCounted_known hwith
    obtain ⟨hid, hikey, -, hicounted⟩ := Item.withCounted_same hwith
    have hstored : ∃ j ∈ s.items, j.subject = i.subject :=
      ⟨old, hold, Item.subject_eq_of_key hid.symm hikey.symm⟩
    have hfresh : ∀ q ∈ s.reports, q.id ≠ supply.id 0 := fun q hq =>
      hsupply.report_ne (Supply.id_mem_ids (Nat.succ_pos _)) hq
    obtain ⟨hcurrent, hreports⟩ := h.current_changeReport hi hreport hstored hfresh
    have hs' : (s.changeReport i (.ofReport? report)).putItem i =
        { s with
          items := putBy Item.id i s.items
          reports := (s.changeReport i (.ofReport? report)).reports } := by
      rw [changeReport_eq]
      rfl
    refine h.upserted_old hold hkey hikey hknown htally hs'
      (hcurrent.congr fun r _ => Iff.rfl) hreports fun hknown hcurrent => ?_
    rw [refresh_of_known_eq hknown] at hwith
    have hsame : i = { old with updatedAt := supply.time 0 } := by
      have hagain : ({ old with updatedAt := supply.time 0 } : Item).Consistent := hconsistent
      exact Except.ok.inj (hwith.symm.trans (hagain.withCounted_eq hcounted))
    refine ⟨by rw [hsame]; rfl, h.unstamped_changeReport hi hreport ?_ ?_⟩
    · rw [hsame]
      exact ⟨fun hvariance => (hcurrent.opened hvariance).imp fun r hr => ⟨hr.1, { hr.2 with }⟩,
        hcurrent.cleared⟩
    · rw [hicounted]
      exact Option.some_ne_none counted

/-- A record is stored where items are accepted, unless the variance of what was counted before
cannot be computed. -/
theorem Sound.exists_upsertItem (hc : c ∈ s.counts) (hid : c.id = new.count)
    (hopen : c.status.acceptsItems = true) (hversion : c.currentVersion = new.version)
    (hcomputes : ∀ old ∈ s.items, old.key = new.key → ∀ counted, old.countedQty = some counted →
      Computes new.systemQty counted) :
    ∃ i outcome s', s.upsertItem new supply = .ok ((i, outcome), s') := by
  have hfound : s.anyCount? new.count = some c :=
    (find?_id_eq_some_iff h.counts_nodup).mpr ⟨hc, hid⟩
  have hcheck : Halt.ofCheck (s.checkWritable new.count new.version) = .ok () := by
    refine Halt.ofCheck_eq_ok_iff.mpr (bind_eq_ok_iff.mpr ⟨c, elim_eq_ok_iff.mpr hfound, ?_⟩)
    exact Count.checkWritable_eq_ok_iff.mpr ⟨hopen, hversion⟩
  cases hfind : s.itemByKey? new.key with
  | none =>
    refine ⟨new, .inserted, s.putItem new, bind_eq_ok_iff.mpr ⟨(), hcheck, ?_⟩⟩
    rw [hfind]
  | some old =>
    obtain ⟨hold, hkey⟩ := itemByKey?_eq_some hfind
    let refreshed := refresh old new (supply.time 0)
    cases hcounted : old.countedQty with
    | none =>
      refine ⟨refreshed, .updated, s.putItem refreshed, bind_eq_ok_iff.mpr ⟨(), hcheck, ?_⟩⟩
      have hnone : refreshed.countedQty = none := hcounted
      rw [hfind]
      dsimp only
      rw [hnone]
    | some counted =>
      have hsome : refreshed.countedQty = some counted := hcounted
      obtain ⟨i, hwith⟩ :=
        @exists_withCounted refreshed counted (hcomputes old hold hkey counted hcounted)
      obtain ⟨report, hreport⟩ : ∃ r, i.report? (supply.id 0) (supply.time 1) = .ok r := by
        rcases (Item.consistent_of_withCounted hwith).report?_eq (supply.id 0) (supply.time 1) with
          ⟨-, r, hr, -⟩ | ⟨-, hr⟩ <;> exact ⟨_, hr⟩
      refine ⟨i, .updated, (s.changeReport i (.ofReport? report)).putItem i,
        bind_eq_ok_iff.mpr ⟨(), hcheck, ?_⟩⟩
      rw [hfind]
      dsimp only
      rw [hsome]
      exact bind_eq_ok_iff.mpr ⟨i, Halt.ofArithmetic_eq_ok_iff.mpr hwith,
        bind_eq_ok_iff.mpr ⟨report, Halt.ofArithmetic_eq_ok_iff.mpr hreport, rfl⟩⟩

end Upserting

end Store
end Recount
