import Recount.Proofs.Count.Item
import Recount.Proofs.Count.Stages
import Recount.Proofs.Store.Effects

/-!
# Sound stores

In a sound store, identifiers and keys tell entries apart, an item belongs to a stored
count and to a version that this count has reached, a report is about a stored item, and
every item is consistent. Each kind of write keeps a store sound, and what an entry
belongs to never changes as long as there is an entry with its identifier.
-/

namespace Recount.Store

variable {s s' s₁ : Store} {new : List Id} {c : Count} {i : Item} {r : Report}

/-- What holds of the entries of a store at any time. -/
structure Sound (s : Store) : Prop where
  counts_nodup : (s.counts.map Count.id).Nodup
  items_nodup : (s.items.map Item.id).Nodup
  reports_nodup : (s.reports.map Report.id).Nodup
  key_unique : ∀ i ∈ s.items, ∀ j ∈ s.items, i.key = j.key → i.id = j.id
  /-- An item has one report at most. -/
  report_unique : ∀ r ∈ s.reports, ∀ q ∈ s.reports, r.item = q.item → r.id = q.id
  item_stored : ∀ i ∈ s.items, ∃ c ∈ s.counts, c.id = i.count ∧ i.version ≤ c.currentVersion
  report_stored : ∀ r ∈ s.reports, ∃ i ∈ s.items, i.subject = r.subject
  consistent : ∀ i ∈ s.items, i.Consistent

theorem Sound.empty : Sound .empty where
  counts_nodup := List.nodup_nil
  items_nodup := List.nodup_nil
  reports_nodup := List.nodup_nil
  key_unique _ hi := absurd hi List.not_mem_nil
  report_unique _ hr := absurd hr List.not_mem_nil
  item_stored _ hi := absurd hi List.not_mem_nil
  report_stored _ hr := absurd hr List.not_mem_nil
  consistent _ hi := absurd hi List.not_mem_nil

theorem Sound.keys_nodup (h : s.Sound) : (s.items.map Item.key).Nodup :=
  List.Nodup.map_on
    (fun i hi j hj heq => eq_of_id_eq h.items_nodup hi hj (h.key_unique i hi j hj heq))
    (List.Nodup.of_map Item.id h.items_nodup)

/-- Items that are listed are different items of the version. -/
theorem Sound.listItems {count : Id} {version : Int} (h : s.Sound) :
    ((s.listItems count (some version)).map Item.key).Nodup ∧
      ∀ i ∈ s.listItems count (some version),
        i.count = count ∧ i.version = version ∧ i.Consistent := by
  have hperm := List.mergeSort_perm (s.itemsOf count (some version)) Item.precedes
  constructor
  · exact (hperm.map Item.key).nodup_iff.mpr (nodup_map_filter _ h.keys_nodup)
  · intro i hi
    obtain ⟨hmem, hcount, hversion⟩ := mem_itemsOf.mp (hperm.subset hi)
    exact ⟨hcount, hversion version rfl, h.consistent i hmem⟩

/-- Reports of one item are about the same. -/
theorem Sound.subject_eq (h : s.Sound) (hr : r ∈ s.reports) (hi : i ∈ s.items)
    (hitem : r.item = i.id) : r.subject = i.subject := by
  obtain ⟨j, hj, hsubject⟩ := h.report_stored r hr
  have hid : j.id = i.id := by
    rw [← hitem]
    exact congrArg Subject.item hsubject
  rw [← hsubject, eq_of_id_eq h.items_nodup hj hi hid]

/-- Whatever became of a store, an entry is new or belongs where the one with its identifier
belonged before. -/
structure Evolves (new : List Id) (s s' : Store) : Prop where
  counts : ∀ d ∈ s'.counts, d.id ∈ new ∨ ∃ c ∈ s.counts, c.id = d.id ∧ c.tenant = d.tenant ∧
    c.warehouse = d.warehouse ∧ c.currentVersion ≤ d.currentVersion
  items : ∀ j ∈ s'.items, j.id ∈ new ∨ ∃ i ∈ s.items, i.id = j.id ∧ i.key = j.key
  reports : ∀ q ∈ s'.reports, q.id ∈ new ∨ ∃ r ∈ s.reports, r.id = q.id ∧ r.subject = q.subject

theorem Evolves.refl : Evolves new s s where
  counts d hd := .inr ⟨d, hd, rfl, rfl, rfl, Int.le_refl _⟩
  items j hj := .inr ⟨j, hj, rfl, rfl⟩
  reports q hq := .inr ⟨q, hq, rfl, rfl⟩

theorem Evolves.trans (h : Evolves new s s₁) (h' : Evolves new s₁ s') : Evolves new s s' where
  counts e he := by
    rcases h'.counts e he with hnew | ⟨d, hd, hid, htenant, hwarehouse, hversion⟩
    · exact .inl hnew
    rcases h.counts d hd with hnew | ⟨c, hc, hid', htenant', hwarehouse', hversion'⟩
    · exact .inl (hid ▸ hnew)
    · exact .inr ⟨c, hc, hid'.trans hid, htenant'.trans htenant, hwarehouse'.trans hwarehouse,
        Int.le_trans hversion' hversion⟩
  items k hk := by
    rcases h'.items k hk with hnew | ⟨j, hj, hid, hkey⟩
    · exact .inl hnew
    rcases h.items j hj with hnew | ⟨i, hi, hid', hkey'⟩
    · exact .inl (hid ▸ hnew)
    · exact .inr ⟨i, hi, hid'.trans hid, hkey'.trans hkey⟩
  reports p hp := by
    rcases h'.reports p hp with hnew | ⟨q, hq, hid, hsubject⟩
    · exact .inl hnew
    rcases h.reports q hq with hnew | ⟨r, hr, hid', hsubject'⟩
    · exact .inl (hid ▸ hnew)
    · exact .inr ⟨r, hr, hid'.trans hid, hsubject'.trans hsubject⟩

/-- The identifiers of all entries. -/
def ids (s : Store) : List Id :=
  s.counts.map Count.id ++ s.items.map Item.id ++ s.reports.map Report.id

theorem count_id_mem_ids (h : c ∈ s.counts) : c.id ∈ s.ids :=
  List.mem_append_left _ (List.mem_append_left _ (List.mem_map_of_mem h))

theorem item_id_mem_ids (h : i ∈ s.items) : i.id ∈ s.ids :=
  List.mem_append_left _ (List.mem_append_right _ (List.mem_map_of_mem h))

theorem report_id_mem_ids (h : r ∈ s.reports) : r.id ∈ s.ids :=
  List.mem_append_right _ (List.mem_map_of_mem h)

/-- The identifiers of a store are new or were there before. -/
theorem Evolves.mem_ids (h : Evolves new s s') {id : Id} (hid : id ∈ s'.ids) :
    id ∈ new ∨ id ∈ s.ids := by
  rcases List.mem_append.mp hid with hid | hid
  · rcases List.mem_append.mp hid with hid | hid
    · obtain ⟨d, hd, rfl⟩ := List.mem_map.mp hid
      refine (h.counts d hd).imp_right ?_
      rintro ⟨c, hc, heq, -⟩
      exact heq ▸ count_id_mem_ids hc
    · obtain ⟨j, hj, rfl⟩ := List.mem_map.mp hid
      refine (h.items j hj).imp_right ?_
      rintro ⟨i, hi, heq, -⟩
      exact heq ▸ item_id_mem_ids hi
  · obtain ⟨q, hq, rfl⟩ := List.mem_map.mp hid
    refine (h.reports q hq).imp_right ?_
    rintro ⟨r, hr, heq, -⟩
    exact heq ▸ report_id_mem_ids hr

/-- A sound store that a store evolved into. -/
structure Next (new : List Id) (s s' : Store) : Prop where
  sound : s'.Sound
  evolves : Evolves new s s'

theorem Next.refl (h : s.Sound) : Next new s s := ⟨h, .refl⟩

theorem Next.trans (h : Next new s s₁) (h' : Next new s₁ s') : Next new s s' :=
  ⟨h'.sound, h.evolves.trans h'.evolves⟩

/-- Entries that are neither counts, items nor reports do not matter. -/
theorem Sound.next_of_same (h : s.Sound) (hcounts : s'.counts = s.counts)
    (hitems : s'.items = s.items) (hreports : s'.reports = s.reports) : Next new s s' where
  sound :=
    { counts_nodup := hcounts ▸ h.counts_nodup
      items_nodup := hitems ▸ h.items_nodup
      reports_nodup := hreports ▸ h.reports_nodup
      key_unique := hitems ▸ h.key_unique
      report_unique := hreports ▸ h.report_unique
      item_stored := hcounts ▸ hitems ▸ h.item_stored
      report_stored := hitems ▸ hreports ▸ h.report_stored
      consistent := hitems ▸ h.consistent }
  evolves := by
    constructor
    · rw [hcounts]
      exact (Evolves.refl (s := s)).counts
    · rw [hitems]
      exact (Evolves.refl (s := s)).items
    · rw [hreports]
      exact (Evolves.refl (s := s)).reports

/-- A count is put: a new one, or a later state of one that is there. -/
theorem Sound.putCount (h : s.Sound)
    (hc : (c.id ∈ new ∧ ∀ d ∈ s.counts, d.id ≠ c.id) ∨ ∃ d ∈ s.counts, d.id = c.id ∧
      d.tenant = c.tenant ∧ d.warehouse = c.warehouse ∧ d.currentVersion ≤ c.currentVersion) :
    Next new s (s.putCount c) where
  sound :=
    { h with
      counts_nodup := nodup_putBy h.counts_nodup
      item_stored := by
        intro i hi
        obtain ⟨d, hd, hid, hversion⟩ := h.item_stored i hi
        by_cases hsame : d.id = c.id
        · rcases hc with ⟨-, hfresh⟩ | ⟨e, he, heid, -, -, hle⟩
          · exact absurd hsame (hfresh d hd)
          · have hde : d = e := eq_of_id_eq h.counts_nodup hd he (hsame.trans heid.symm)
            exact ⟨c, mem_putBy_self, hsame ▸ hid, Int.le_trans (hde ▸ hversion) hle⟩
        · exact ⟨d, mem_putBy_of_ne hd hsame, hid, hversion⟩ }
  evolves :=
    { items := Evolves.refl.items
      reports := Evolves.refl.reports
      counts := by
        intro d hd
        rcases mem_of_mem_putBy hd with rfl | hd
        · exact hc.imp And.left id
        · exact Evolves.refl.counts d hd }

/-- Items may be put together: each is consistent, its count is stored, and it takes the place of
an item with its identifier and key, or identifier and key are both new. -/
structure Accepts (s : Store) (new : List Id) (items : List Item) : Prop where
  nodup : (items.map Item.id).Nodup
  consistent : ∀ i ∈ items, i.Consistent
  stored : ∀ i ∈ items, ∃ c ∈ s.counts, c.id = i.count ∧ i.version ≤ c.currentVersion
  place : ∀ i ∈ items, (∃ j ∈ s.items, j.id = i.id ∧ j.key = i.key) ∨
    (i.id ∈ new ∧ (∀ j ∈ s.items, j.id ≠ i.id ∧ j.key ≠ i.key) ∧
      ∀ k ∈ items, k.key = i.key → k.id = i.id)

theorem Sound.mem_putItems_iff {items : List Item} (h : s.Sound) (hnodup : (items.map Item.id).Nodup) :
    i ∈ (s.putItems items).items ↔ i ∈ items ∨ (i ∈ s.items ∧ i.id ∉ items.map Item.id) := by
  rw [putItems_items]
  exact mem_putAll_iff hnodup h.items_nodup

section Items

variable {items : List Item} {j : Item}

/-- An item that is put has the key of the item with its identifier. -/
theorem Accepts.key_eq (h : s.Sound) (hitems : s.Accepts new items) (hi : i ∈ items)
    (hj : j ∈ s.items) (hid : j.id = i.id) : j.key = i.key := by
  rcases hitems.place i hi with ⟨k, hk, hkid, hkkey⟩ | ⟨-, hfresh, -⟩
  · rw [eq_of_id_eq h.items_nodup hj hk (hid.trans hkid.symm), hkkey]
  · exact absurd hid (hfresh j hj).1

/-- An item that is put has the identifier of the item with its key. -/
theorem Accepts.id_eq (h : s.Sound) (hitems : s.Accepts new items) (hi : i ∈ items)
    (hj : j ∈ s.items) (hkey : i.key = j.key) : i.id = j.id := by
  rcases hitems.place i hi with ⟨k, hk, hkid, hkkey⟩ | ⟨-, hfresh, -⟩
  · exact hkid.symm.trans (h.key_unique k hk j hj (hkkey.trans hkey))
  · exact absurd hkey.symm (hfresh j hj).2

/-- Items that are put together have one identifier if they have one key. -/
theorem Accepts.id_eq_of_both (h : s.Sound) (hitems : s.Accepts new items) (hi : i ∈ items)
    (hj : j ∈ items) (hkey : i.key = j.key) : i.id = j.id := by
  rcases hitems.place j hj with ⟨k, hk, hkid, hkkey⟩ | ⟨-, -, honly⟩
  · rw [← hkid]
    exact hitems.id_eq h hi hk (hkey.trans hkkey.symm)
  · exact honly i hi hkey

theorem Sound.putItems (h : s.Sound) (hitems : s.Accepts new items) :
    Next new s (s.putItems items) := by
  have hmem := fun i => h.mem_putItems_iff (i := i) hitems.nodup
  constructor
  · refine ⟨?counts_nodup, ?items_nodup, ?reports_nodup, ?key_unique, ?report_unique, ?item_stored,
      ?report_stored, ?consistent⟩
    case counts_nodup =>
      rw [putItems_counts]
      exact h.counts_nodup
    case items_nodup =>
      rw [putItems_items]
      exact nodup_putAll h.items_nodup
    case reports_nodup =>
      rw [putItems_reports]
      exact h.reports_nodup
    case key_unique =>
      intro i hi j hj hkey
      rcases (hmem i).mp hi with hi | ⟨hi, -⟩ <;> rcases (hmem j).mp hj with hj | ⟨hj, -⟩
      · exact hitems.id_eq_of_both h hi hj hkey
      · exact hitems.id_eq h hi hj hkey
      · exact (hitems.id_eq h hj hi hkey.symm).symm
      · exact h.key_unique i hi j hj hkey
    case report_unique =>
      rw [putItems_reports]
      exact h.report_unique
    case item_stored =>
      rw [putItems_counts]
      intro i hi
      rcases (hmem i).mp hi with hi | ⟨hi, -⟩
      · exact hitems.stored i hi
      · exact h.item_stored i hi
    case report_stored =>
      rw [putItems_reports]
      intro r hr
      obtain ⟨i, hi, hsubject⟩ := h.report_stored r hr
      by_cases hput : i.id ∈ items.map Item.id
      · obtain ⟨j, hj, hid⟩ := List.mem_map.mp hput
        refine ⟨j, (hmem j).mpr (.inl hj), ?_⟩
        rw [← hsubject, Item.subject_eq_of_key hid.symm (hitems.key_eq h hj hi hid.symm)]
      · exact ⟨i, (hmem i).mpr (.inr ⟨hi, hput⟩), hsubject⟩
    case consistent =>
      intro i hi
      rcases (hmem i).mp hi with hi | ⟨hi, -⟩
      · exact hitems.consistent i hi
      · exact h.consistent i hi
  · constructor
    · rw [putItems_counts]
      exact Evolves.refl.counts
    · intro j hj
      rcases (hmem j).mp hj with hj | ⟨hj, -⟩
      · exact (hitems.place j hj).symm.imp And.left id
      · exact Evolves.refl.items j hj
    · rw [putItems_reports]
      exact Evolves.refl.reports

end Items

section Reports

/-- A report as it is put: it takes over the identity of the one that its item has. -/
def adopted (s : Store) (r : Report) : Report :=
  match s.reports.find? fun old => old.item = r.item && old.version = r.version with
  | some old => { r with id := old.id, createdAt := old.createdAt }
  | none => r

theorem putReport_reports : (s.putReport r).reports = putBy Report.id (s.adopted r) s.reports := rfl

theorem adopted_eq : ∃ id createdAt, s.adopted r = { r with id, createdAt } := by
  unfold adopted
  split
  · exact ⟨_, _, rfl⟩
  · exact ⟨_, _, rfl⟩

@[simp] theorem adopted_item : (s.adopted r).item = r.item := by
  obtain ⟨_, _, heq⟩ := adopted_eq (s := s) (r := r)
  rw [heq]

@[simp] theorem adopted_subject : (s.adopted r).subject = r.subject := by
  obtain ⟨_, _, heq⟩ := adopted_eq (s := s) (r := r)
  rw [heq]
  rfl

/-- A report that is put has the identifier of the only report of its item, or its own one if there
is none. -/
theorem Sound.adopted_id (h : s.Sound) (hr : ∃ i ∈ s.items, i.subject = r.subject) :
    (∃ q ∈ s.reports, q.item = r.item ∧ (s.adopted r).id = q.id) ∨
      ((∀ q ∈ s.reports, q.item ≠ r.item) ∧ (s.adopted r).id = r.id) := by
  obtain ⟨i, hi, hsubject⟩ := hr
  unfold adopted
  split
  · next old hold =>
    have hfound := List.find?_some hold
    simp only [Bool.and_eq_true, decide_eq_true_eq] at hfound
    exact .inl ⟨old, List.mem_of_find?_eq_some hold, hfound.1, rfl⟩
  · next hnone =>
    refine .inr ⟨fun q hq hitem => ?_, rfl⟩
    have hid : q.item = i.id := hitem.trans (congrArg Subject.item hsubject).symm
    have hversion : q.version = r.version :=
      congrArg Subject.version ((h.subject_eq hq hi hid).trans hsubject)
    simpa [hitem, hversion] using List.find?_eq_none.mp hnone q hq

/-- Putting a report replaces the one of its item and leaves the others alone. -/
theorem Sound.mem_putReport_iff (h : s.Sound) (hr : ∃ i ∈ s.items, i.subject = r.subject)
    (hid : ∀ q ∈ s.reports, q.id ≠ r.id) {q : Report} :
    q ∈ (s.putReport r).reports ↔ q = s.adopted r ∨ (q ∈ s.reports ∧ q.item ≠ r.item) := by
  rw [putReport_reports, mem_putBy_iff h.reports_nodup]
  refine or_congr_right (and_congr_right fun hq => not_congr ?_)
  rcases h.adopted_id hr with ⟨old, hold, hitem, heq⟩ | ⟨hnone, heq⟩
  · rw [heq]
    constructor
    · intro hqid
      rw [eq_of_id_eq h.reports_nodup hq hold hqid, hitem]
    · exact fun hqitem => h.report_unique q hq old hold (hqitem.trans hitem.symm)
  · rw [heq]
    exact ⟨fun hqid => absurd hqid (hid q hq), fun hqitem => absurd hqitem (hnone q hq)⟩

/-- A report of a stored item is put. -/
theorem Sound.putReport (h : s.Sound) (hr : ∃ i ∈ s.items, i.subject = r.subject)
    (hnew : r.id ∈ new) (hid : ∀ q ∈ s.reports, q.id ≠ r.id) : Next new s (s.putReport r) := by
  have hmem := fun q => h.mem_putReport_iff hr hid (q := q)
  constructor
  · refine { h with
      reports_nodup := nodup_putBy h.reports_nodup, report_unique := ?_, report_stored := ?_ }
    · intro p hp q hq hitem
      rcases (hmem p).mp hp with rfl | ⟨hp, hpitem⟩ <;> rcases (hmem q).mp hq with rfl | ⟨hq, hqitem⟩
      · rfl
      · exact absurd (hitem.symm.trans adopted_item) hqitem
      · exact absurd (hitem.trans adopted_item) hpitem
      · exact h.report_unique p hp q hq hitem
    · intro q hq
      rcases (hmem q).mp hq with rfl | ⟨hq, -⟩
      · rw [adopted_subject]
        exact hr
      · exact h.report_stored q hq
  · refine { counts := Evolves.refl.counts, items := Evolves.refl.items, reports := ?_ }
    intro q hq
    rcases (hmem q).mp hq with rfl | ⟨hq, -⟩
    · rcases h.adopted_id hr with ⟨old, hold, hitem, heq⟩ | ⟨-, heq⟩
      · obtain ⟨i, hi, hsubject⟩ := hr
        have hitem' : old.item = i.id := hitem.trans (congrArg Subject.item hsubject).symm
        refine .inr ⟨old, hold, heq.symm, ?_⟩
        rw [adopted_subject, h.subject_eq hold hi hitem', hsubject]
      · exact .inl (heq ▸ hnew)
    · exact Evolves.refl.reports q hq

/-- Reports may be put one after the other: they are about stored items, and their identifiers are
new and differ. -/
structure AcceptsReports (s : Store) (new : List Id) (reports : List Report) : Prop where
  nodup : (reports.map Report.id).Nodup
  mem : ∀ r ∈ reports, r.id ∈ new
  stored : ∀ r ∈ reports, ∃ i ∈ s.items, i.subject = r.subject
  fresh : ∀ r ∈ reports, ∀ q ∈ s.reports, q.id ≠ r.id

theorem AcceptsReports.head {reports : List Report} (h : s.Sound)
    (hreports : s.AcceptsReports new (r :: reports)) : Next new s (s.putReport r) :=
  h.putReport (hreports.stored r List.mem_cons_self) (hreports.mem r List.mem_cons_self)
    (hreports.fresh r List.mem_cons_self)

theorem AcceptsReports.tail {reports : List Report} (h : s.Sound)
    (hreports : s.AcceptsReports new (r :: reports)) :
    (s.putReport r).AcceptsReports new reports := by
  obtain ⟨hnot, hnodup⟩ := List.nodup_cons.mp hreports.nodup
  have hr := hreports.stored r List.mem_cons_self
  have hfresh := hreports.fresh r List.mem_cons_self
  refine ⟨hnodup, fun q hq => hreports.mem q (List.mem_cons_of_mem r hq),
    fun q hq => hreports.stored q (List.mem_cons_of_mem r hq), fun q hq p hp => ?_⟩
  -- A report that is there by now has an identifier from before, or the one that was just put.
  rcases (h.mem_putReport_iff hr hfresh).mp hp with rfl | ⟨hp, -⟩
  · rcases h.adopted_id hr with ⟨old, hold, -, heq⟩ | ⟨-, heq⟩
    · rw [heq]
      exact hreports.fresh q (List.mem_cons_of_mem r hq) old hold
    · rw [heq]
      exact fun hid => hnot (hid ▸ List.mem_map_of_mem hq)
  · exact hreports.fresh q (List.mem_cons_of_mem r hq) p hp

theorem Sound.putReports {reports : List Report} (h : s.Sound)
    (hreports : s.AcceptsReports new reports) : Next new s (s.putReports reports) := by
  induction reports generalizing s with
  | nil => exact .refl h
  | cons r reports ih =>
    have hhead := hreports.head h
    exact hhead.trans (ih hhead.sound (hreports.tail h))

/-- Reports are removed. -/
theorem Sound.filterReports (h : s.Sound) (p : Report → Bool) :
    Next new s { s with reports := s.reports.filter p } where
  sound :=
    { h with
      reports_nodup := nodup_map_filter p h.reports_nodup
      report_unique := fun r hr q hq =>
        h.report_unique r (List.mem_of_mem_filter hr) q (List.mem_of_mem_filter hq)
      report_stored := fun r hr => h.report_stored r (List.mem_of_mem_filter hr) }
  evolves :=
    { counts := Evolves.refl.counts
      items := Evolves.refl.items
      reports := fun q hq => Evolves.refl.reports q (List.mem_of_mem_filter hq) }

theorem Sound.changeReport {change : ReportChange} (h : s.Sound)
    (hchange : ∀ r, change = .put r → r.id ∈ new ∧ (∃ i ∈ s.items, i.subject = r.subject) ∧
      ∀ q ∈ s.reports, q.id ≠ r.id) : Next new s (s.changeReport i change) := by
  cases change with
  | put r =>
    obtain ⟨hnew, hr, hid⟩ := hchange r rfl
    exact h.putReport hr hnew hid
  | clear => exact h.filterReports _

/-- The change to the report of an item lets the reports of other items stay. -/
theorem Sound.mem_changeReport_iff {change : ReportChange} {q : Report} (h : s.Sound)
    (hchange : ∀ r, change = .put r → r.item = i.id ∧ (∃ j ∈ s.items, j.subject = r.subject) ∧
      ∀ q ∈ s.reports, q.id ≠ r.id) (hne : q.item ≠ i.id) :
    q ∈ (s.changeReport i change).reports ↔ q ∈ s.reports := by
  cases change with
  | put r =>
    obtain ⟨hitem, hr, hid⟩ := hchange r rfl
    refine (h.mem_putReport_iff hr hid).trans ⟨?_, fun hq => .inr ⟨hq, hitem ▸ hne⟩⟩
    rintro (rfl | ⟨hq, -⟩)
    · exact absurd (adopted_item.trans hitem) hne
    · exact hq
  | clear => exact ⟨List.mem_of_mem_filter, fun hq => List.mem_filter.mpr ⟨hq, by simp [hne]⟩⟩

/-- A report takes the place of one about the same. -/
theorem Sound.saveReport (h : s.Sound) (hr : ∃ q ∈ s.reports, q.id = r.id ∧ q.subject = r.subject) :
    Next new s { s with reports := putBy Report.id r s.reports } := by
  have hmem := fun q => mem_putBy_iff h.reports_nodup (e := r) (x := q)
  obtain ⟨old, hold, hid, hsubject⟩ := hr
  have hitem : old.item = r.item := congrArg Subject.item hsubject
  constructor
  · refine { h with
      reports_nodup := nodup_putBy h.reports_nodup, report_unique := ?_, report_stored := ?_ }
    · intro p hp q hq hpq
      rcases (hmem p).mp hp with hpr | ⟨hp', -⟩ <;> rcases (hmem q).mp hq with hqr | ⟨hq', -⟩
      · rw [hpr, hqr]
      · rw [hpr] at hpq ⊢
        exact hid.symm.trans (h.report_unique old hold q hq' (hitem.trans hpq))
      · rw [hqr] at hpq ⊢
        exact (h.report_unique p hp' old hold (hpq.trans hitem.symm)).trans hid
      · exact h.report_unique p hp' q hq' hpq
    · intro q hq
      rcases (hmem q).mp hq with rfl | ⟨hq, -⟩
      · exact hsubject ▸ h.report_stored old hold
      · exact h.report_stored q hq
  · refine { counts := Evolves.refl.counts, items := Evolves.refl.items, reports := ?_ }
    intro q hq
    rcases (hmem q).mp hq with rfl | ⟨hq, -⟩
    · exact .inr ⟨old, hold, hid, hsubject⟩
    · exact Evolves.refl.reports q hq

end Reports

/-- A count is deleted with all that belongs to it. -/
theorem Sound.deleteCount (h : s.Sound) (id : Id) :
    Next new s { s with
      counts := s.counts.filter (·.id ≠ id)
      items := s.items.filter (·.count ≠ id)
      reports := s.reports.filter (·.count ≠ id)
      attempts := s.attempts.filter (·.count ≠ id) } where
  sound :=
    { counts_nodup := nodup_map_filter _ h.counts_nodup
      items_nodup := nodup_map_filter _ h.items_nodup
      reports_nodup := nodup_map_filter _ h.reports_nodup
      key_unique := fun i hi j hj =>
        h.key_unique i (List.mem_of_mem_filter hi) j (List.mem_of_mem_filter hj)
      report_unique := fun r hr q hq =>
        h.report_unique r (List.mem_of_mem_filter hr) q (List.mem_of_mem_filter hq)
      item_stored := by
        intro i hi
        obtain ⟨hi, hne⟩ := List.mem_filter.mp hi
        obtain ⟨c, hc, hid, hversion⟩ := h.item_stored i hi
        exact ⟨c, List.mem_filter.mpr ⟨hc, by simpa [hid] using hne⟩, hid, hversion⟩
      report_stored := by
        intro r hr
        obtain ⟨hr, hne⟩ := List.mem_filter.mp hr
        obtain ⟨i, hi, hsubject⟩ := h.report_stored r hr
        have hcount : i.count = r.count := congrArg Subject.count hsubject
        exact ⟨i, List.mem_filter.mpr ⟨hi, by simpa [hcount] using hne⟩, hsubject⟩
      consistent := fun i hi => h.consistent i (List.mem_of_mem_filter hi) }
  evolves :=
    { counts := fun d hd => Evolves.refl.counts d (List.mem_of_mem_filter hd)
      items := fun j hj => Evolves.refl.items j (List.mem_of_mem_filter hj)
      reports := fun q hq => Evolves.refl.reports q (List.mem_of_mem_filter hq) }

end Recount.Store
