import Recount.Proofs.Store.Fitting

/-!
# Reported variances

Every item that has a variance has one report, which states it, and no other item has a
report. A report that becomes superfluous is removed only while it is pending, so this
rests on a second fact: as long as a version is under way, nobody has resolved a report of
it. Each call that fits a sound store keeps both, except that a report may be saved only
if it was not touched since it was read.
-/

namespace Recount

variable {i j : Item}

/-- A report that describes an item has all that the item knows of its variance. -/
theorem Report.Describes.of_same {r : Report} (h : r.Describes i) {id : Id} {createdAt : Time} :
    Report.Describes { r with id, createdAt } i :=
  ⟨h.subject, h.systemQty, h.countedQty, h.difference, h.variancePercent⟩

theorem Report.Describes.item {r : Report} (h : r.Describes i) : r.item = i.id :=
  congrArg Subject.item h.subject

/-- Consistent items with the same quantities both differ or both agree. -/
theorem Item.Consistent.hasVariance_eq (hi : i.Consistent) (hj : j.Consistent)
    (hsystem : j.systemQty = i.systemQty) (hcounted : j.countedQty = i.countedQty) :
    j.hasVariance = i.hasVariance := by
  cases hqty : i.countedQty with
  | none => rw [(hi.of_none hqty).2.2, (hj.of_none (hcounted.trans hqty)).2.2]
  | some counted =>
    obtain ⟨difference, _, hdifference, -, -, -, hvariance⟩ := hi.of_some hqty
    obtain ⟨difference', _, hdifference', -, -, -, hvariance'⟩ := hj.of_some (hcounted.trans hqty)
    rw [hsystem, hdifference] at hdifference'
    cases hdifference'
    rw [hvariance, hvariance']

namespace Store

variable {s s' : Store} {new : List Id} {supply : Supply} {c : Count} {r : Report}
  {reports : List Report}

/-- An item with a variance is described by a report, and no other item is reported. -/
def Accounts (s : Store) (i : Item) : Prop :=
  (i.hasVariance = true ∧ ∃ r ∈ s.reports, r.Describes i) ∨
    (i.hasVariance = false ∧ ∀ r ∈ s.reports, r.item ≠ i.id)

/-- Every item is accounted for, and no report of a version that is under way is resolved. -/
structure Reported (s : Store) : Prop where
  accounts : ∀ i ∈ s.items, s.Accounts i
  pending : ∀ c ∈ s.counts, c.status.isUnderWay = true → ∀ r ∈ s.reports, r.count = c.id →
    r.version = c.currentVersion → r.status = .pending

theorem Reported.empty : Reported .empty where
  accounts _ hi := absurd hi List.not_mem_nil
  pending _ hc := absurd hc List.not_mem_nil

/-- A store that changed neither counts nor items nor reports. -/
theorem Reported.of_same (h : s.Reported) (hcounts : s'.counts = s.counts)
    (hitems : s'.items = s.items) (hreports : s'.reports = s.reports) : s'.Reported where
  accounts := by
    unfold Accounts
    rw [hitems, hreports]
    exact h.accounts
  pending := by
    rw [hcounts, hreports]
    exact h.pending

/-- An item stays accounted for where the reports about it stay the same. -/
theorem Accounts.congr (h : s.Accounts i)
    (hreports : ∀ r, r.item = i.id → (r ∈ s'.reports ↔ r ∈ s.reports)) : s'.Accounts i := by
  rcases h with ⟨hvariance, r, hr, hdescribes⟩ | ⟨hvariance, hnone⟩
  · exact .inl ⟨hvariance, r, (hreports r hdescribes.item).mpr hr, hdescribes⟩
  · exact .inr ⟨hvariance, fun r hr hitem => hnone r ((hreports r hitem).mp hr) hitem⟩

/-- When an item was written last is nothing that a report says. -/
theorem Accounts.of_written (h : s.Accounts i) {now : Time} :
    s.Accounts { i with updatedAt := now } := by
  rcases h with ⟨hvariance, r, hr, hdescribes⟩ | hnone
  · exact .inl ⟨hvariance, r, hr, { hdescribes with }⟩
  · exact .inr hnone

section PutReports

/-- A report that is there after reports were put was put, or it was there and its item is none of
theirs. -/
theorem Sound.mem_putReports (h : s.Sound) (hreports : s.AcceptsReports new reports)
    (hr : r ∈ (s.putReports reports).reports) :
    (∃ q ∈ reports, ∃ id createdAt, r = { q with id, createdAt }) ∨
      (r ∈ s.reports ∧ ∀ q ∈ reports, r.item ≠ q.item) := by
  induction reports generalizing s with
  | nil => exact .inr ⟨hr, fun q hq => absurd hq List.not_mem_nil⟩
  | cons q reports ih =>
    have hq := hreports.stored q List.mem_cons_self
    have hfresh := hreports.fresh q List.mem_cons_self
    rcases ih (hreports.head h).sound (hreports.tail h) hr with ⟨p, hp, hrp⟩ | ⟨hr', hne⟩
    · exact .inl ⟨p, List.mem_cons_of_mem q hp, hrp⟩
    · rcases (h.mem_putReport_iff hq hfresh).mp hr' with rfl | ⟨hr', hne'⟩
      · exact .inl ⟨q, List.mem_cons_self, adopted_eq⟩
      · refine .inr ⟨hr', fun p hp => ?_⟩
        rcases List.mem_cons.mp hp with rfl | hp
        · exact hne'
        · exact hne p hp

theorem Sound.mem_putReports_of_ne (h : s.Sound) (hreports : s.AcceptsReports new reports)
    (hr : r ∈ s.reports) (hne : ∀ q ∈ reports, r.item ≠ q.item) :
    r ∈ (s.putReports reports).reports := by
  induction reports generalizing s with
  | nil => exact hr
  | cons q reports ih =>
    have hq := hreports.stored q List.mem_cons_self
    have hfresh := hreports.fresh q List.mem_cons_self
    refine ih (hreports.head h).sound (hreports.tail h) ?_ fun p hp =>
      hne p (List.mem_cons_of_mem q hp)
    exact (h.mem_putReport_iff hq hfresh).mpr (.inr ⟨hr, hne q List.mem_cons_self⟩)

/-- Reports of different items do not replace each other. -/
theorem Sound.exists_mem_putReports (h : s.Sound) (hreports : s.AcceptsReports new reports)
    (hnodup : (reports.map Report.item).Nodup) (hr : r ∈ reports) :
    ∃ id createdAt, { r with id, createdAt } ∈ (s.putReports reports).reports := by
  induction reports generalizing s with
  | nil => exact absurd hr List.not_mem_nil
  | cons q reports ih =>
    obtain ⟨hnot, hnodup⟩ := List.nodup_cons.mp hnodup
    rcases List.mem_cons.mp hr with rfl | hr
    · have hput := (h.mem_putReport_iff (hreports.stored r List.mem_cons_self)
        (hreports.fresh r List.mem_cons_self)).mpr (.inl rfl)
      obtain ⟨id, createdAt, heq⟩ := adopted_eq (s := s) (r := r)
      refine ⟨id, createdAt, heq ▸ ?_⟩
      refine (hreports.head h).sound.mem_putReports_of_ne (hreports.tail h) hput fun p hp => ?_
      rw [adopted_item]
      exact fun hitem => hnot (hitem ▸ List.mem_map_of_mem hp)
    · exact ih (hreports.head h).sound (hreports.tail h) hnodup hr

end PutReports

section Recording

/-- When an item of a version under way gets the report that belongs to it, or loses the one that it
had, it is accounted for, and the reports of other items stay as they are. -/
theorem Reported.changeReport (h : s.Sound) (hr : s.Reported) (hc : c ∈ s.counts)
    (hcount : c.id = i.count) (hunder : c.status.isUnderWay = true)
    (hversion : c.currentVersion = i.version) (hstored : ∃ j ∈ s.items, j.subject = i.subject)
    (hconsistent : i.Consistent) {id : Id} {created : Time} {report : Option Report}
    (hreport : i.report? id created = .ok report) (hfresh : ∀ q ∈ s.reports, q.id ≠ id) :
    (s.changeReport i (.ofReport? report)).Accounts i ∧
      (∀ r, r.item ≠ i.id →
        (r ∈ (s.changeReport i (.ofReport? report)).reports ↔ r ∈ s.reports)) ∧
      ∀ r ∈ (s.changeReport i (.ofReport? report)).reports, r ∈ s.reports ∨ r.status = .pending := by
  rcases hconsistent.report?_cases hreport with
    ⟨hvariance, r, rfl, hdescribes, hid, hpending⟩ | ⟨hvariance, rfl⟩
  · have hmem := fun q => h.mem_putReport_iff (hdescribes.subject ▸ hstored) (hid ▸ hfresh) (q := q)
    obtain ⟨id', createdAt, heq⟩ := adopted_eq (s := s) (r := r)
    refine ⟨.inl ⟨hvariance, s.adopted r, (hmem _).mpr (.inl rfl), heq ▸ hdescribes.of_same⟩,
      fun q hne => h.mem_changeReport_iff (fun p hp => ?_) hne, fun q hq => ?_⟩
    · cases hp
      exact ⟨hdescribes.item, hdescribes.subject ▸ hstored, hid ▸ hfresh⟩
    · rcases (hmem q).mp hq with rfl | ⟨hq, -⟩
      · exact .inr (by rw [heq]; exact hpending)
      · exact .inl hq
  · refine ⟨.inr ⟨hvariance, fun r hr' hitem => ?_⟩,
      fun r hne => h.mem_changeReport_iff (fun p hp => ?_) hne,
      fun r hr' => .inl (List.mem_of_mem_filter hr')⟩
    · obtain ⟨hr', hkept⟩ := List.mem_filter.mp hr'
      obtain ⟨j, hj, hsubject⟩ := hstored
      have hsame : r.subject = i.subject :=
        (h.subject_eq hr' hj (hitem.trans (congrArg Subject.item hsubject).symm)).trans hsubject
      have hrversion : r.version = i.version := congrArg Subject.version hsame
      have hrcount : r.count = i.count := congrArg Subject.count hsame
      -- Nobody has resolved the report, so it was removed.
      have hpending := hr.pending c hc hunder r hr' (hrcount.trans hcount.symm)
        (hrversion.trans hversion.symm)
      simp [hitem, hrversion, hpending] at hkept
    · cases hp

/-- An item of a version under way is stored together with its report. -/
theorem Reported.record (h : s.Sound) (hr : s.Reported) (hc : c ∈ s.counts) (hcount : c.id = i.count)
    (hunder : c.status.isUnderWay = true) (hversion : c.currentVersion = i.version)
    (hstored : ∃ j ∈ s.items, j.subject = i.subject) (hconsistent : i.Consistent) {id : Id}
    {created : Time} {report : Option Report} (hreport : i.report? id created = .ok report)
    (hfresh : ∀ q ∈ s.reports, q.id ≠ id) (hcounts : s'.counts = s.counts)
    (hitems : s'.items = putBy Item.id i s.items)
    (hreports : s'.reports = (s.changeReport i (.ofReport? report)).reports) : s'.Reported := by
  obtain ⟨haccounts, hothers, hpending⟩ :=
    hr.changeReport h hc hcount hunder hversion hstored hconsistent hreport hfresh
  constructor
  · intro j hj
    rw [hitems] at hj
    rcases (mem_putBy_iff h.items_nodup).mp hj with rfl | ⟨hj, hne⟩
    · exact haccounts.congr fun r _ => by rw [hreports]
    · refine (hr.accounts j hj).congr fun r hitem => ?_
      rw [hreports]
      exact hothers r (hitem ▸ hne)
  · intro d hd hunder' r hr' hrcount hrversion
    rw [hcounts] at hd
    rw [hreports] at hr'
    rcases hpending r hr' with hold | hpending
    · exact hr.pending d hd hunder' r hold hrcount hrversion
    · exact hpending

/-- Items without a variance are stored that have no reports. -/
theorem Reported.putItems {items : List Item} (h : s.Sound) (hr : s.Reported)
    (hnodup : (items.map Item.id).Nodup)
    (hitems : ∀ i ∈ items, i.hasVariance = false ∧ ∀ r ∈ s.reports, r.item ≠ i.id) :
    (s.putItems items).Reported := by
  constructor
  · intro i hi
    unfold Accounts
    rw [putItems_reports]
    rcases (h.mem_putItems_iff hnodup).mp hi with hi | ⟨hi, -⟩
    · exact .inr (hitems i hi)
    · exact hr.accounts i hi
  · rw [putItems_counts, putItems_reports]
    exact hr.pending

theorem Reported.putItem (h : s.Sound) (hr : s.Reported) (hvariance : i.hasVariance = false)
    (hnone : ∀ r ∈ s.reports, r.item ≠ i.id) : (s.putItem i).Reported := by
  have hnodup : ([i].map Item.id).Nodup := List.nodup_singleton i.id
  exact hr.putItems h hnodup fun j hj => List.mem_singleton.mp hj ▸ ⟨hvariance, hnone⟩

/-- There is no report of an item that is not stored. -/
theorem Sound.report_item_ne (h : s.Sound) {id : Id} (hid : ∀ j ∈ s.items, j.id ≠ id)
    (hr : r ∈ s.reports) : r.item ≠ id := by
  obtain ⟨j, hj, hsubject⟩ := h.report_stored r hr
  exact fun hitem => hid j hj ((congrArg Subject.item hsubject).trans hitem)

theorem Reported.upsertItem {new' i : Item} {outcome : UpsertOutcome} (h : s.Sound)
    (hr : s.Reported) (hfits : new'.Uncounted ∧ s.AreNew new [new'.id])
    (hsupply : s.AreNew new (supply.ids s.demand))
    (hanswer : s.upsertItem new' supply = .ok ((i, outcome), s')) : s'.Reported := by
  obtain ⟨huncounted, hnew⟩ := hfits
  obtain ⟨c, hc, hcid, haccepts, hversion, hcases⟩ := upsertItem_eq_ok hanswer
  have hunder := isUnderWay_of_acceptsItems haccepts
  rcases hcases with ⟨-, rfl, rfl⟩ | ⟨old, hold, hkey, hcases⟩
  · refine hr.putItem h huncounted.hasVariance fun r hr' => h.report_item_ne (fun j hj => ?_) hr'
    exact hnew.item_ne (List.mem_singleton_self _) hj
  rcases hcases with ⟨hnone, rfl, rfl⟩ | ⟨counted, report, hcounted, hwith, hreport, rfl⟩
  · have hvariance : old.hasVariance = false := ((h.consistent old hold).of_none hnone).2.2
    refine hr.putItem h hvariance ?_
    rcases hr.accounts old hold with ⟨htrue, -⟩ | ⟨-, hnone⟩
    · rw [hvariance] at htrue
      cases htrue
    · exact hnone
  · obtain ⟨hid, hikey, -, -⟩ := Item.withCounted_same hwith
    have hstored : old.subject = i.subject := Item.subject_eq_of_key hid.symm hikey.symm
    have hkey' : i.key = new'.key := hikey.trans hkey
    simp only [Item.key, Item.Key.mk.injEq] at hkey'
    have hmem : supply.id 0 ∈ supply.ids s.demand := Supply.id_mem_ids (Nat.succ_pos _)
    refine hr.record h hc (hcid.trans hkey'.1.symm) hunder (hversion.trans hkey'.2.2.2.symm)
      ⟨old, hold, hstored⟩ (Item.consistent_of_withCounted hwith) hreport
      (fun q hq => hsupply.report_ne hmem hq) ?_ ?_ rfl
    · exact changeReport_counts
    · exact congrArg (putBy Item.id i) changeReport_items

theorem Reported.insertItem {new' i : Item} (h : s.Sound) (hr : s.Reported)
    (hfits : new'.Uncounted ∧ s.AreNew new [new'.id])
    (hanswer : s.insertItem new' = .ok (i, s')) : s'.Reported := by
  obtain ⟨huncounted, hnew⟩ := hfits
  obtain ⟨c, -, -, -, -, -, rfl, rfl⟩ := insertItem_eq_ok hanswer
  refine hr.putItem h huncounted.hasVariance fun r hr' => h.report_item_ne (fun j hj => ?_) hr'
  exact hnew.item_ne (List.mem_singleton_self _) hj

theorem Reported.recordItem {new' i : Item} {change : ReportChange} {now : Time} (h : s.Sound)
    (hr : s.Reported) (hfits : FitsRecord s new new' change)
    (hanswer : s.recordItem new' change now = .ok (i, s')) : s'.Reported := by
  obtain ⟨stored, hstored, hid, -, c, hc, hcid, haccepts, hversion, rfl, rfl⟩ :=
    recordItem_eq_ok hanswer
  have hkey := hfits.key stored hstored hid
  obtain ⟨id, created, report, hnew, hreport, rfl⟩ := hfits.report
  have hsubject : stored.subject = new'.subject := Item.subject_eq_of_key hid hkey
  simp only [Item.key, Item.Key.mk.injEq] at hkey
  refine hr.record (i := { new' with updatedAt := now }) h hc hcid
    (isUnderWay_of_acceptsItems haccepts) (hversion.trans hkey.2.2.2) ⟨stored, hstored, hsubject⟩
    hfits.consistent hreport (fun q hq => hnew.report_ne (List.mem_singleton_self _) hq) ?_ ?_ ?_
  · exact changeReport_counts
  · exact changeReport_items
  · cases report <;> rfl

end Recording

section Changing

/-- A count is put whose version has only pending reports if it is under way. -/
theorem Reported.putCount (hr : s.Reported)
    (hpending : c.status.isUnderWay = true → ∀ r ∈ s.reports, r.count = c.id →
      r.version = c.currentVersion → r.status = .pending) : (s.putCount c).Reported where
  accounts := hr.accounts
  pending d hd hunder := by
    rcases mem_of_mem_putBy hd with rfl | hd
    · exact hpending hunder
    · exact hr.pending d hd hunder

/-- A settled item without a variance had none before. -/
theorem Sound.hasVariance_of_settle (h : s.Sound) (hi : i ∈ s.items) {actor : Id} {now : Time}
    (hsettle : i.settle actor now = .ok j) (hvariance : j.hasVariance = false) :
    i.hasVariance = false := by
  obtain ⟨-, -, hsystem, hcounted, hconsistent, -⟩ := Item.settle_eq_ok hsettle
  cases hqty : i.countedQty with
  | none => exact ((h.consistent i hi).of_none hqty).2.2
  | some counted =>
    rw [hqty] at hcounted
    rw [← (h.consistent i hi).hasVariance_eq hconsistent hsystem (hcounted.trans hqty.symm)]
    exact hvariance

section Settling

variable {actor : Id} {now : Time} {entries : List (Item × Id)} {items : List Item}

/-- The reports of a settlement are about its items. -/
theorem Settlement.report_item (ht : Settlement s new c actor now entries items reports)
    (hr : r ∈ reports) : r.item ∈ items.map Item.id := by
  obtain ⟨j, hj, -, hdescribes, -⟩ := Item.settleAll_describes ht.settled hr
  exact hdescribes.item ▸ List.mem_map_of_mem hj

theorem Settlement.reports_nodup (ht : Settlement s new c actor now entries items reports)
    (h : s.Sound) : (reports.map Report.item).Nodup := by
  have hids : (items.map Item.id).Nodup := written_ids ▸ (ht.accepts h).nodup
  rw [Item.settleAll_ids ht.settled] at hids
  exact (Item.settleAll_report_items ht.settled).nodup hids

/-- A settled item is reported if it has a variance. If it has none, it had none before, so there
was no report of it. -/
theorem Reported.accounts_settled (h : s.Sound) (hr : s.Reported)
    (ht : Settlement s new c actor now entries items reports) (hj : j ∈ items) :
    ((s.putItems (written items now)).putReports reports).Accounts j := by
  have hsound : (s.putItems (written items now)).Sound := (h.putItems (ht.accepts h)).sound
  have hreports : (s.putItems (written items now)).AcceptsReports new reports := ht.acceptsReports h
  cases hvariance : j.hasVariance with
  | true =>
    obtain ⟨r, hmem, hdescribes⟩ := Item.settleAll_exists_report ht.settled hj hvariance
    obtain ⟨id, createdAt, hput⟩ := hsound.exists_mem_putReports hreports (ht.reports_nodup h) hmem
    exact .inl ⟨hvariance, _, hput, hdescribes.of_same⟩
  | false =>
    refine .inr ⟨hvariance, fun r hmem hitem => ?_⟩
    rcases hsound.mem_putReports hreports hmem with ⟨q, hq, _, _, rfl⟩ | ⟨hmem, -⟩
    · obtain ⟨k, hk, htrue, hdescribes, -⟩ := Item.settleAll_describes ht.settled hq
      have hids : (items.map Item.id).Nodup := written_ids ▸ (ht.accepts h).nodup
      cases eq_of_id_eq hids hk hj (hdescribes.item.symm.trans hitem)
      rw [hvariance] at htrue
      cases htrue
    · obtain ⟨old, hold, -, -, hsettle⟩ := ht.exists_old hj
      rw [putItems_reports] at hmem
      rcases hr.accounts old hold with ⟨htrue, -⟩ | ⟨-, hnone⟩
      · rw [h.hasVariance_of_settle hold hsettle hvariance] at htrue
        cases htrue
      · exact hnone r hmem (hitem.trans (Item.settle_eq_ok hsettle).1)

/-- The reports of other items stay as they are when a version is settled. -/
theorem Settlement.mem_reports_iff (h : s.Sound)
    (ht : Settlement s new c actor now entries items reports) (hout : r.item ∉ items.map Item.id) :
    r ∈ ((s.putItems (written items now)).putReports reports).reports ↔ r ∈ s.reports := by
  have hsound : (s.putItems (written items now)).Sound := (h.putItems (ht.accepts h)).sound
  have hsame : (s.putItems (written items now)).reports = s.reports := putItems_reports
  rw [← hsame]
  constructor
  · intro hmem
    rcases hsound.mem_putReports (ht.acceptsReports h) hmem with ⟨q, hq, _, _, rfl⟩ | ⟨hmem, -⟩
    · exact absurd (ht.report_item hq) hout
    · exact hmem
  · exact fun hmem => hsound.mem_putReports_of_ne (ht.acceptsReports h) hmem fun q hq heq =>
      hout (heq ▸ ht.report_item hq)

/-- The items of a version are settled, and those with a variance get reports. -/
theorem Reported.settle (h : s.Sound) (hr : s.Reported)
    (ht : Settlement s new c actor now entries items reports) :
    ((s.putItems (written items now)).putReports reports).Reported := by
  constructor
  · intro j hj
    rw [putReports_items] at hj
    rcases ht.mem_putItems h hj with ⟨k, hk, rfl⟩ | ⟨hj, hout, -⟩
    · exact (hr.accounts_settled h ht hk).of_written
    · exact (hr.accounts j hj).congr fun r hitem => ht.mem_reports_iff h (hitem ▸ hout)
  · intro d hd hunder r hmem hcount hversion
    rw [putReports_counts, putItems_counts] at hd
    rcases (h.putItems (ht.accepts h)).sound.mem_putReports (ht.acceptsReports h) hmem with
      ⟨q, hq, _, _, rfl⟩ | ⟨hmem, -⟩
    · obtain ⟨_, -, -, -, hpending⟩ := Item.settleAll_describes ht.settled hq
      exact hpending
    · exact hr.pending d hd hunder r (putItems_reports ▸ hmem) hcount hversion

end Settling

/-- There is no report of a version that is not yet open. -/
theorem Sound.report_version_le (h : s.Sound) (hc : c ∈ s.counts) (hr : r ∈ s.reports)
    (hcount : r.count = c.id) : r.version ≤ c.currentVersion := by
  obtain ⟨i, hi, hsubject⟩ := h.report_stored r hr
  obtain ⟨d, hd, hid, hversion⟩ := h.item_stored i hi
  have hicount : i.count = r.count := congrArg Subject.count hsubject
  have hiversion : i.version = r.version := congrArg Subject.version hsubject
  rw [← eq_of_id_eq h.counts_nodup hd hc (hid.trans (hicount.trans hcount)), ← hiversion]
  exact hversion

theorem Reported.change {tenant id : Id} {t : Transition} {c' : Count} (h : s.Sound)
    (hr : s.Reported) (hfits : FitsChange s new id t) (hsupply : s.AreNew new (supply.ids s.demand))
    (hanswer : s.change tenant id t supply = .ok (c', s')) : s'.Reported := by
  obtain ⟨c, hc, -, -, -, hchanged⟩ := hfits.changed hsupply hanswer
  have hput : Next new s (s.putCount (t.change.apply c (supply.time 0))) :=
    h.putChanged hc t.change (supply.time 0)
  have hsound := hput.sound
  cases hchanged with
  | stage hsettles hitems hopens hunder =>
    refine hr.putCount fun hafter r hr' hcount hrversion => ?_
    rw [StatusChange.apply_status] at hafter
    rw [StatusChange.apply_id] at hcount
    rw [StatusChange.apply_currentVersion, hopens] at hrversion
    exact hr.pending c hc (hunder hafter) r hr' hcount (hrversion.trans (Int.add_zero _))
  | completion hsettles hitems hopens hover ht =>
    refine Reported.settle hsound (hr.putCount fun hafter => ?_) ht
    rw [StatusChange.apply_status, hover] at hafter
    cases hafter
  | recount hsettles hopens hunder haccepts hitems =>
    refine Reported.putItems hsound (hr.putCount fun _ r hr' hcount hrversion => ?_)
      haccepts.nodup fun i hi => ?_
    · rw [StatusChange.apply_id] at hcount
      rw [StatusChange.apply_currentVersion, hopens] at hrversion
      have hle : r.version ≤ c.currentVersion := h.report_version_le hc hr' hcount
      have hopened : r.version = c.currentVersion + 1 := hrversion
      omega
    · obtain ⟨k, hk, rfl⟩ := mem_written.mp hi
      obtain ⟨hvariance, hfresh⟩ := hitems k hk
      exact ⟨hvariance, fun r hr' => h.report_item_ne hfresh hr'⟩

theorem Reported.deleteCount (hr : s.Reported) (id : Id) :
    Reported { s with
      counts := s.counts.filter (·.id ≠ id)
      items := s.items.filter (·.count ≠ id)
      reports := s.reports.filter (·.count ≠ id)
      attempts := s.attempts.filter (·.count ≠ id) } where
  accounts i hi := by
    obtain ⟨hi, hne⟩ := List.mem_filter.mp hi
    rcases hr.accounts i hi with ⟨hvariance, r, hr', hdescribes⟩ | ⟨hvariance, hnone⟩
    · have hcount : r.count = i.count := congrArg Subject.count hdescribes.subject
      exact .inl ⟨hvariance, r, List.mem_filter.mpr ⟨hr', by simpa [hcount] using hne⟩, hdescribes⟩
    · exact .inr ⟨hvariance, fun r hr' => hnone r (List.mem_of_mem_filter hr')⟩
  pending c hc hunder r hr' :=
    hr.pending c (List.mem_of_mem_filter hc) hunder r (List.mem_of_mem_filter hr')

/-- A stored report may be saved with another resolution once its count is not under way. -/
theorem Reported.saveReport (h : s.Sound) (hr : s.Reported) (hr' : r ∈ s.reports)
    {status : ReportStatus} {resolution : Option String} {resolvedBy : Option Id}
    {resolvedAt : Option Time} {now : Time}
    (hover : ∀ c ∈ s.counts, c.id = r.count → c.status.isUnderWay = false) :
    Reported { s with
      reports := putBy Report.id
        { r with status, resolution, resolvedBy, resolvedAt, updatedAt := now } s.reports } := by
  have hmem := fun q => mem_putBy_iff h.reports_nodup (x := q)
    (e := { r with status, resolution, resolvedBy, resolvedAt, updatedAt := now })
  constructor
  · intro i hi
    rcases hr.accounts i hi with ⟨hvariance, q, hq, hdescribes⟩ | ⟨hvariance, hnone⟩
    · refine .inl ⟨hvariance, ?_⟩
      by_cases hid : q.id = r.id
      · cases eq_of_id_eq h.reports_nodup hq hr' hid
        exact ⟨_, (hmem _).mpr (.inl rfl), { hdescribes with }⟩
      · exact ⟨q, (hmem q).mpr (.inr ⟨hq, hid⟩), hdescribes⟩
    · refine .inr ⟨hvariance, fun q hq => ?_⟩
      rcases (hmem q).mp hq with rfl | ⟨hq, -⟩
      · exact hnone r hr'
      · exact hnone q hq
  · intro c hc hunder q hq hcount hversion
    rcases (hmem q).mp hq with rfl | ⟨hq, -⟩
    · rw [hover c hc hcount.symm] at hunder
      cases hunder
    · exact hr.pending c hc hunder q hq hcount hversion

end Changing

/-- A call that fits is answered so that all items stay accounted for, unless it saves a report. -/
theorem Reported.answer {call : CountCall} {result} (h : s.Sound) (hr : s.Reported)
    (hfits : s.Fits new call) (hsave : ∀ r, call ≠ .saveReport r)
    (hsupply : s.AreNew new (supply.ids s.demand))
    (hanswer : s.answer supply (.counts call) = .ok (result, s')) : s'.Reported := by
  cases call with
  | create new' =>
    cases hanswer
    have hmem : supply.id 0 ∈ supply.ids s.demand := Supply.id_mem_ids (Nat.succ_pos _)
    refine Reported.putCount (hr.of_same rfl rfl rfl) fun _ r hr' hcount => ?_
    obtain ⟨i, hi, hsubject⟩ := h.report_stored r hr'
    obtain ⟨c, hc, hid, -⟩ := h.item_stored i hi
    have hicount : i.count = r.count := congrArg Subject.count hsubject
    exact absurd (hid.trans (hicount.trans hcount)) (hsupply.count_ne hmem hc)
  | change tenant id t => exact hr.change h hfits hsupply hanswer
  | delete tenant id allowed =>
    obtain ⟨c, -, -, -, -, rfl⟩ := deleteCount_eq_ok hanswer
    exact hr.deleteCount id
  | upsertItem i => exact hr.upsertItem h hfits hsupply hanswer
  | insertItem i => exact hr.insertItem h hfits hanswer
  | recordItem i change => exact hr.recordItem h hfits hanswer
  | saveReport r => exact absurd rfl (hsave r)
  | addAttempt a =>
    cases hanswer
    exact hr.of_same rfl rfl rfl
  | _ =>
    cases hanswer
    exact hr

end Store
end Recount
