import Recount.Count.Version
import Recount.Proofs.Result
import Mathlib.Data.List.Nodup
import Mathlib.Data.List.Perm.Basic

/-!
# Items and their variances

An item is consistent if its variance is the one of its quantities. Counting and
settling make an item consistent, and its report states just what the item states.
-/

namespace Recount

variable {i j : Item}

/-- What an item is, or a report is about. -/
structure Subject where
  count : Id
  item : Id
  version : Int
  code : String
deriving DecidableEq

/-- What an item is. -/
def Item.subject (i : Item) : Subject := ⟨i.count, i.id, i.version, i.code⟩

/-- What a report is about. -/
def Report.subject (r : Report) : Subject := ⟨r.count, r.item, r.version, r.code⟩

/-- The variance of an item is that of its quantities, and it has none before it is counted. -/
def Item.Consistent (i : Item) : Prop :=
  match i.countedQty with
  | none => i.difference = none ∧ i.variancePercent = none ∧ i.hasVariance = false
  | some counted => ∃ difference percent, counted.sub i.systemQty = .ok difference ∧
      Recount.variancePercent i.systemQty counted = .ok percent ∧ i.difference = some difference ∧
      i.variancePercent = some percent ∧ i.hasVariance = !difference.isZero

/-- A report is about an item and states its quantities and its variance. -/
structure Report.Describes (r : Report) (i : Item) : Prop where
  subject : r.subject = i.subject
  systemQty : r.systemQty = i.systemQty
  countedQty : i.countedQty = some r.countedQty
  difference : i.difference = some r.difference
  variancePercent : i.variancePercent = some r.variancePercent

namespace Item

/-- An item is known by its identifier and its key. -/
theorem subject_eq_of_key (hid : i.id = j.id) (hkey : i.key = j.key) : i.subject = j.subject := by
  simp only [key, Key.mk.injEq] at hkey
  simp only [subject, hid, hkey]

theorem withCounted_eq_ok {counted : Decimal} (h : i.withCounted counted = .ok j) :
    ∃ difference percent, counted.sub i.systemQty = .ok difference ∧
      Recount.variancePercent i.systemQty counted = .ok percent ∧
      j = { i with
        countedQty := some counted
        difference := some difference
        variancePercent := some percent
        hasVariance := !difference.isZero } := by
  obtain ⟨difference, hdifference, h⟩ := bind_eq_ok_iff.mp h
  obtain ⟨percent, hpercent, h⟩ := bind_eq_ok_iff.mp h
  cases h
  exact ⟨difference, percent, hdifference, hpercent, rfl⟩

theorem consistent_of_withCounted {counted : Decimal} (h : i.withCounted counted = .ok j) :
    j.Consistent := by
  obtain ⟨difference, percent, hdifference, hpercent, rfl⟩ := withCounted_eq_ok h
  exact ⟨difference, percent, hdifference, hpercent, rfl, rfl, rfl⟩

/-- Counting an item changes nothing but what was counted and its variance. -/
theorem withCounted_same {counted : Decimal} (h : i.withCounted counted = .ok j) :
    j.id = i.id ∧ j.key = i.key ∧ j.systemQty = i.systemQty ∧ j.countedQty = some counted := by
  obtain ⟨_, _, _, _, rfl⟩ := withCounted_eq_ok h
  exact ⟨rfl, rfl, rfl, rfl⟩

theorem Consistent.of_none (hi : i.Consistent) (hnone : i.countedQty = none) :
    i.difference = none ∧ i.variancePercent = none ∧ i.hasVariance = false := by
  unfold Consistent at hi
  rwa [hnone] at hi

theorem Consistent.of_some {counted : Decimal} (hi : i.Consistent)
    (hsome : i.countedQty = some counted) :
    ∃ difference percent, counted.sub i.systemQty = .ok difference ∧
      Recount.variancePercent i.systemQty counted = .ok percent ∧ i.difference = some difference ∧
      i.variancePercent = some percent ∧ i.hasVariance = !difference.isZero := by
  unfold Consistent at hi
  rwa [hsome] at hi

/-- A consistent item is reported if it has a variance, and only then. -/
theorem Consistent.report?_cases (hi : i.Consistent) {id : Id} {now : Time} {report : Option Report}
    (h : i.report? id now = .ok report) :
    (i.hasVariance = true ∧ ∃ r, report = some r ∧ r.Describes i ∧ r.id = id ∧
        r.status = .pending) ∨
      (i.hasVariance = false ∧ report = none) := by
  unfold Item.report? at h
  split at h
  · next counted hvariance hcounted =>
    obtain ⟨difference, percent, hdifference, hpercent, hd, hp, -⟩ := hi.of_some hcounted
    obtain ⟨difference', hdifference', h⟩ := bind_eq_ok_iff.mp h
    obtain ⟨percent', hpercent', h⟩ := bind_eq_ok_iff.mp h
    cases h
    rw [hdifference] at hdifference'
    rw [hpercent] at hpercent'
    cases hdifference'
    cases hpercent'
    exact .inl ⟨hvariance, _, rfl, ⟨rfl, rfl, hcounted, hd, hp⟩, rfl, rfl⟩
  · next hnot =>
    cases h
    refine .inr ⟨?_, rfl⟩
    cases hcounted : i.countedQty with
    | none => exact (hi.of_none hcounted).2.2
    | some counted =>
      cases hvariance : i.hasVariance with
      | false => rfl
      | true => exact (hnot counted hvariance hcounted).elim

/-- The stage that its variance gives an item when it is settled. -/
def judged (i : Item) : Item := { i with status := if i.hasVariance then .variance else .approved }

/-- An item without a quantity that has been counted as zero. -/
def unseen (i : Item) (actor : Id) (now : Time) : Item :=
  { i with countedBy := some actor, countedAt := some now }

theorem settle_of_counted {actor : Id} {now : Time} {counted : Decimal}
    (h : i.countedQty = some counted) :
    i.settle actor now = i.withCounted counted >>= fun k => .ok k.judged := by
  unfold Item.settle
  rw [h]
  rfl

theorem settle_of_uncounted {actor : Id} {now : Time} (h : i.countedQty = none) :
    i.settle actor now = (i.unseen actor now).withCounted .zero >>= fun k => .ok k.judged := by
  unfold Item.settle
  rw [h]
  rfl

/-- A settled item is consistent; it keeps what was counted, or else counts as zero. -/
theorem settle_eq_ok {actor : Id} {now : Time} (h : i.settle actor now = .ok j) :
    j.id = i.id ∧ j.key = i.key ∧ j.systemQty = i.systemQty ∧
      j.countedQty = some (i.countedQty.getD .zero) ∧ j.Consistent ∧
      j.status = if j.hasVariance then .variance else .approved := by
  unfold Item.settle at h
  split at h
  · next counted hcounted =>
    obtain ⟨settled, hsettled, h⟩ := bind_eq_ok_iff.mp h
    cases h
    have hconsistent : settled.Consistent := consistent_of_withCounted hsettled
    obtain ⟨_, _, _, _, rfl⟩ := withCounted_eq_ok hsettled
    exact ⟨rfl, rfl, rfl, by rw [hcounted]; rfl, hconsistent, rfl⟩
  · next hnone =>
    obtain ⟨settled, hsettled, h⟩ := bind_eq_ok_iff.mp h
    cases h
    have hconsistent : settled.Consistent := consistent_of_withCounted hsettled
    obtain ⟨_, _, _, _, rfl⟩ := withCounted_eq_ok hsettled
    exact ⟨rfl, rfl, rfl, by rw [hnone]; rfl, hconsistent, rfl⟩

theorem settleAll_cons_eq_ok {actor id : Id} {now : Time} {rest : List (Item × Id)}
    {items : List Item} {reports : List Report}
    (h : settleAll actor now ((i, id) :: rest) = .ok (items, reports)) :
    ∃ settled report items' reports', i.settle actor now = .ok settled ∧
      settled.report? id now = .ok report ∧ settleAll actor now rest = .ok (items', reports') ∧
      items = settled :: items' ∧ reports = report.toList ++ reports' := by
  obtain ⟨settled, hsettled, h⟩ := bind_eq_ok_iff.mp h
  obtain ⟨report, hreport, h⟩ := bind_eq_ok_iff.mp h
  obtain ⟨⟨items', reports'⟩, hrest, h⟩ := bind_eq_ok_iff.mp h
  cases h
  exact ⟨settled, report, items', reports', hsettled, hreport, hrest, rfl, rfl⟩

section SettleAll

variable {actor : Id} {now : Time} {entries entries' : List (Item × Id)} {items : List Item}
  {reports : List Report}

theorem settleAll_ids (h : settleAll actor now entries = .ok (items, reports)) :
    items.map Item.id = entries.map (·.1.id) := by
  induction entries generalizing items reports with
  | nil => cases h; rfl
  | cons entry rest ih =>
    obtain ⟨settled, report, items', reports', hsettled, -, hrest, rfl, rfl⟩ :=
      settleAll_cons_eq_ok h
    rw [List.map_cons, List.map_cons, ih hrest, (settle_eq_ok hsettled).1]

/-- Every settled item comes from an item of the version. -/
theorem settleAll_mem_items (h : settleAll actor now entries = .ok (items, reports))
    (hj : j ∈ items) : ∃ entry ∈ entries, entry.1.settle actor now = .ok j := by
  induction entries generalizing items reports with
  | nil => cases h; exact absurd hj List.not_mem_nil
  | cons entry rest ih =>
    obtain ⟨settled, report, items', reports', hsettled, -, hrest, rfl, rfl⟩ :=
      settleAll_cons_eq_ok h
    rcases List.mem_cons.mp hj with rfl | hj
    · exact ⟨entry, List.mem_cons_self, hsettled⟩
    · obtain ⟨entry', hentry', hsettle⟩ := ih hrest hj
      exact ⟨entry', List.mem_cons_of_mem entry hentry', hsettle⟩

/-- Every item of the version is settled, and its report is among the reports if it has one. -/
theorem settleAll_mem_entries (h : settleAll actor now entries = .ok (items, reports))
    {entry : Item × Id} (hentry : entry ∈ entries) :
    ∃ j ∈ items, entry.1.settle actor now = .ok j ∧
      ∃ report, j.report? entry.2 now = .ok report ∧ ∀ r, report = some r → r ∈ reports := by
  induction entries generalizing items reports with
  | nil => exact absurd hentry List.not_mem_nil
  | cons first rest ih =>
    obtain ⟨settled, report, items', reports', hsettled, hreport, hrest, rfl, rfl⟩ :=
      settleAll_cons_eq_ok h
    rcases List.mem_cons.mp hentry with rfl | hentry
    · refine ⟨settled, List.mem_cons_self, hsettled, report, hreport, ?_⟩
      rintro r rfl
      exact List.mem_append_left _ (List.mem_singleton_self r)
    · obtain ⟨j, hj, hsettle, report', hreport', hmem⟩ := ih hrest hentry
      exact ⟨j, List.mem_cons_of_mem settled hj, hsettle, report', hreport',
        fun r hr => List.mem_append_right _ (hmem r hr)⟩

/-- Every report of a settlement is the one of a settled item. -/
theorem settleAll_mem_reports (h : settleAll actor now entries = .ok (items, reports))
    {r : Report} (hr : r ∈ reports) :
    ∃ entry ∈ entries, ∃ j ∈ items, entry.1.settle actor now = .ok j ∧
      j.report? entry.2 now = .ok (some r) := by
  induction entries generalizing items reports with
  | nil => cases h; exact absurd hr List.not_mem_nil
  | cons first rest ih =>
    obtain ⟨settled, report, items', reports', hsettled, hreport, hrest, rfl, rfl⟩ :=
      settleAll_cons_eq_ok h
    rcases List.mem_append.mp hr with hr | hr
    · rw [Option.mem_toList] at hr
      cases hr
      exact ⟨first, List.mem_cons_self, settled, List.mem_cons_self, hsettled, hreport⟩
    · obtain ⟨entry, hentry, j, hj, hsettle, hr⟩ := ih hrest hr
      exact ⟨entry, List.mem_cons_of_mem first hentry, j, List.mem_cons_of_mem settled hj, hsettle,
        hr⟩

/-- The reports of settled items are pending and describe items with a variance. -/
theorem settleAll_describes (h : settleAll actor now entries = .ok (items, reports)) {r : Report}
    (hr : r ∈ reports) : ∃ j ∈ items, j.hasVariance = true ∧ r.Describes j ∧ r.status = .pending := by
  obtain ⟨entry, -, j, hj, hsettle, hreport⟩ := settleAll_mem_reports h hr
  obtain ⟨-, -, -, -, hconsistent, -⟩ := settle_eq_ok hsettle
  rcases hconsistent.report?_cases hreport with ⟨hvariance, q, heq, hdescribes, -, hpending⟩ | ⟨-, hnone⟩
  · cases heq
    exact ⟨j, hj, hvariance, hdescribes, hpending⟩
  · cases hnone

/-- A settled item with a variance has a report. -/
theorem settleAll_exists_report (h : settleAll actor now entries = .ok (items, reports))
    (hj : j ∈ items) (hvariance : j.hasVariance = true) : ∃ r ∈ reports, r.Describes j := by
  obtain ⟨entry, hentry, hsettle⟩ := settleAll_mem_items h hj
  obtain ⟨j', -, hsettle', report, hreport, hmem⟩ := settleAll_mem_entries h hentry
  cases hsettle.symm.trans hsettle'
  obtain ⟨-, -, -, -, hconsistent, -⟩ := settle_eq_ok hsettle
  rcases hconsistent.report?_cases hreport with ⟨-, r, heq, hdescribes, -, -⟩ | ⟨hnone, -⟩
  · exact ⟨r, hmem r heq, hdescribes⟩
  · rw [hvariance] at hnone
    cases hnone

/-- Each entry has one report at most, about its item and with the identifier given for it. -/
theorem settleAll_reports_sublist (h : settleAll actor now entries = .ok (items, reports)) :
    (reports.map fun r => (r.item, r.id)).Sublist (entries.map fun entry => (entry.1.id, entry.2)) := by
  induction entries generalizing items reports with
  | nil => cases h; exact .slnil
  | cons entry rest ih =>
    obtain ⟨settled, report, items', reports', hsettled, hreport, hrest, rfl, rfl⟩ :=
      settleAll_cons_eq_ok h
    obtain ⟨hid, -, -, -, hconsistent, -⟩ := settle_eq_ok hsettled
    rcases hconsistent.report?_cases hreport with ⟨-, r, rfl, hdescribes, hrid, -⟩ | ⟨-, rfl⟩
    · have hitem : r.item = entry.1.id := (congrArg Subject.item hdescribes.subject).trans hid
      simpa [hrid, hitem] using ih hrest
    · simpa using (ih hrest).cons (entry.1.id, entry.2)

theorem settleAll_report_ids (h : settleAll actor now entries = .ok (items, reports)) :
    (reports.map Report.id).Sublist (entries.map (·.2)) := by
  have hsub := (settleAll_reports_sublist h).map Prod.snd
  rw [List.map_map, List.map_map] at hsub
  exact hsub

theorem settleAll_report_items (h : settleAll actor now entries = .ok (items, reports)) :
    (reports.map Report.item).Sublist (entries.map (·.1.id)) := by
  have hsub := (settleAll_reports_sublist h).map Prod.fst
  rw [List.map_map, List.map_map] at hsub
  exact hsub

/-- Items are settled one by one, each with its report. -/
theorem settleAll_eq_ok_iff :
    settleAll actor now entries = .ok (items, reports) ↔
      ∃ results : List (Item × Option Report),
        List.Forall₂ (fun entry result => entry.1.settle actor now = .ok result.1 ∧
          result.1.report? entry.2 now = .ok result.2) entries results ∧
        items = results.map Prod.fst ∧ reports = results.flatMap fun result => result.2.toList := by
  induction entries generalizing items reports with
  | nil =>
    simp only [List.forall₂_nil_left_iff, exists_eq_left]
    constructor
    · rintro ⟨⟩
      exact ⟨rfl, rfl⟩
    · rintro ⟨rfl, rfl⟩
      rfl
  | cons entry entries ih =>
    constructor
    · intro h
      obtain ⟨settled, report, items', reports', hsettled, hreport, hrest, rfl, rfl⟩ :=
        settleAll_cons_eq_ok h
      obtain ⟨results, hall, rfl, rfl⟩ := ih.mp hrest
      exact ⟨(settled, report) :: results, .cons ⟨hsettled, hreport⟩ hall, rfl, rfl⟩
    · rintro ⟨_, hall, rfl, rfl⟩
      cases hall with
      | @cons _ result _ results hresult hall =>
        have hrest := ih.mpr ⟨results, hall, rfl, rfl⟩
        exact bind_eq_ok_iff.mpr ⟨result.1, hresult.1, bind_eq_ok_iff.mpr ⟨result.2, hresult.2,
          bind_eq_ok_iff.mpr ⟨_, hrest, rfl⟩⟩⟩

/-- Items are settled in any order. -/
theorem settleAll_perm (hperm : entries.Perm entries')
    (h : settleAll actor now entries = .ok (items, reports)) :
    ∃ items' reports', settleAll actor now entries' = .ok (items', reports') ∧
      items.Perm items' ∧ reports.Perm reports' := by
  obtain ⟨results, hall, rfl, rfl⟩ := settleAll_eq_ok_iff.mp h
  obtain ⟨results', hall', hresults⟩ := List.perm_comp_forall₂ hperm.symm hall
  exact ⟨_, _, settleAll_eq_ok_iff.mpr ⟨results', hall', rfl, rfl⟩, (hresults.map _).symm,
    (hresults.flatMap_right _).symm⟩

end SettleAll

/-- An item of the next version keeps its place, and is consistent if the one before was. -/
theorem next_key {version : Int} {id : Id} {now : Time} :
    (i.next version id now).key = { i.key with version } := by
  unfold next
  split <;> rfl

theorem next_id {version : Int} {id : Id} {now : Time} : (i.next version id now).id = id := by
  unfold next
  split <;> rfl

theorem next_hasVariance {version : Int} {id : Id} {now : Time} :
    (i.next version id now).hasVariance = false := by
  unfold next
  split
  · rfl
  · next hvariance => exact Bool.eq_false_iff.mpr hvariance

theorem Consistent.next (hi : i.Consistent) {version : Int} {id : Id} {now : Time} :
    (i.next version id now).Consistent := by
  unfold Item.next
  split
  · exact ⟨rfl, rfl, rfl⟩
  · exact hi

/-- The items of the next version that follow items, with the identifiers for them. -/
def nextAll (version : Int) (now : Time) (items : List Item) (ids : List Id) : List Item :=
  List.zipWith (fun i id => i.next version id now) items ids

section NextAll

variable {version : Int} {now : Time} {items : List Item} {ids : List Id}

theorem mem_nextAll (h : j ∈ nextAll version now items ids) :
    ∃ i ∈ items, ∃ id ∈ ids, j = i.next version id now := by
  induction items generalizing ids with
  | nil => exact absurd h List.not_mem_nil
  | cons i items ih =>
    cases ids with
    | nil => exact absurd h List.not_mem_nil
    | cons id ids =>
      rcases List.mem_cons.mp h with rfl | h
      · exact ⟨i, List.mem_cons_self, id, List.mem_cons_self, rfl⟩
      · obtain ⟨k, hk, id', hid', rfl⟩ := ih h
        exact ⟨k, List.mem_cons_of_mem i hk, id', List.mem_cons_of_mem id hid', rfl⟩

theorem map_id_nextAll (hlength : ids.length = items.length) :
    (nextAll version now items ids).map Item.id = ids := by
  induction items generalizing ids with
  | nil => exact (List.length_eq_zero_iff.mp hlength).symm
  | cons i items ih =>
    cases ids with
    | nil => cases hlength
    | cons id ids =>
      rw [nextAll, List.zipWith_cons_cons, List.map_cons, next_id]
      exact congrArg _ (ih (Nat.succ.inj hlength))

theorem map_key_nextAll (hlength : ids.length = items.length) :
    (nextAll version now items ids).map Item.key =
      items.map fun i => { i.key with version := version } := by
  induction items generalizing ids with
  | nil => rfl
  | cons i items ih =>
    cases ids with
    | nil => cases hlength
    | cons id ids =>
      rw [nextAll, List.zipWith_cons_cons, List.map_cons, List.map_cons, next_key]
      exact congrArg _ (ih (Nat.succ.inj hlength))

/-- Items that differ in one version are followed by items that differ. -/
theorem nodup_key_nextAll {before : Int} (hlength : ids.length = items.length)
    (hversion : ∀ i ∈ items, i.version = before) (hkeys : (items.map Item.key).Nodup) :
    ((nextAll version now items ids).map Item.key).Nodup := by
  rw [map_key_nextAll hlength]
  refine List.Nodup.map_on (fun i hi j hj heq => ?_) (List.Nodup.of_map Item.key hkeys)
  refine List.inj_on_of_nodup_map hkeys hi hj ?_
  simp only [Item.key, Item.Key.mk.injEq] at heq ⊢
  exact ⟨heq.1, heq.2.1, heq.2.2.1, (hversion i hi).trans (hversion j hj).symm⟩

end NextAll
end Item
end Recount
