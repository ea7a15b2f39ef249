import Recount.Proofs.Concurrent.Replay
import Recount.Proofs.Concurrent.Sound
import Recount.Proofs.Count.Stages
import Recount.Proofs.Store.Effects

/-!
# Stores stay intact

A store finds its entries by their identifiers alone. That no two items have one key, that
an item has no second report and a count no second number, is left to the calls. They
all see to it, however stale what a task writes may be by the time it writes.
-/

/-! ## Numbers of counts

A store numbers the counts that it creates. Its own number only grows, and no count has
a greater one, so that the number of the next count is new. -/

namespace Recount.Store

variable {s s' : Store} {supply : Supply}

/-- Numbers tell counts apart, and none is greater than that of the count created last. -/
structure Sequenced (s : Store) : Prop where
  unique : ∀ c ∈ s.counts, ∀ d ∈ s.counts, c.sequence = d.sequence → c.id = d.id
  le : ∀ c ∈ s.counts, c.sequence ≤ s.sequence

theorem Sequenced.empty : Sequenced .empty where
  unique _ hc := absurd hc List.not_mem_nil
  le _ hc := absurd hc List.not_mem_nil

/-- Counts may be changed and removed, as long as none gets another number. -/
theorem Sequenced.of_forall_exists (h : s.Sequenced)
    (hcounts : ∀ d ∈ s'.counts, ∃ c ∈ s.counts, c.id = d.id ∧ c.sequence = d.sequence)
    (hle : s.sequence ≤ s'.sequence) : s'.Sequenced where
  unique d hd e he hsequence := by
    obtain ⟨c, hc, hid, hnumber⟩ := hcounts d hd
    obtain ⟨c', hc', hid', hnumber'⟩ := hcounts e he
    rw [← hid, ← hid']
    exact h.unique c hc c' hc' (hnumber.trans (hsequence.trans hnumber'.symm))
  le d hd := by
    obtain ⟨c, hc, -, hnumber⟩ := hcounts d hd
    exact hnumber ▸ Int.le_trans (h.le c hc) hle

/-- A count is created with the next number. -/
theorem Sequenced.createCount (h : s.Sequenced) {new : NewCount} {id : Id} {now : Time} :
    (s.createCount new id now).2.Sequenced := by
  have hnext : ∀ c ∈ s.counts, c.sequence ≠ s.sequence + 1 :=
    fun c hc heq => Int.not_lt.mpr (h.le c hc) (heq.symm ▸ Int.lt_succ _)
  constructor
  · intro c hc d hd hsequence
    rcases mem_of_mem_putBy hc with rfl | hc <;> rcases mem_of_mem_putBy hd with rfl | hd
    · rfl
    · exact absurd hsequence.symm (hnext d hd)
    · exact absurd hsequence (hnext c hc)
    · exact h.unique c hc d hd hsequence
  · intro c hc
    rcases mem_of_mem_putBy hc with rfl | hc
    · exact Int.le_refl _
    · exact Int.le_trans (h.le c hc) (Int.le_of_lt (Int.lt_succ _))

/-- The number of a store grows only when a count is created. -/
theorem answerCounts_sequence {call : CountCall} {result}
    (h : s.answerCounts supply call = .ok (result, s')) :
    s'.sequence = s.sequence ∨ ∃ new, call = .create new := by
  cases call with
  | create new => exact .inr ⟨new, rfl⟩
  | change tenant id t =>
    obtain ⟨_, -, -, -, -, -, -, -, _, _, -, -, rfl⟩ := change_eq_ok h
    rw [putReports_eq, putItems_eq]
    exact .inl rfl
  | delete tenant id allowed =>
    obtain ⟨_, -, -, -, -, rfl⟩ := deleteCount_eq_ok h
    exact .inl rfl
  | upsertItem new =>
    obtain ⟨_, _, _, _, _, ⟨_, _, rfl⟩ | ⟨_, _, _, ⟨_, _, rfl⟩ | ⟨_, _, _, _, _, rfl⟩⟩⟩ :=
      upsertItem_eq_ok h
    · exact .inl rfl
    · exact .inl rfl
    · rw [changeReport_eq]
      exact .inl rfl
  | insertItem new =>
    obtain ⟨_, _, _, _, _, _, _, rfl⟩ := insertItem_eq_ok h
    exact .inl rfl
  | recordItem new report =>
    obtain ⟨_, _, _, _, _, _, _, _, _, _, rfl⟩ := recordItem_eq_ok h
    rw [changeReport_eq]
    exact .inl rfl
  | saveReport r =>
    obtain ⟨_, _, rfl⟩ := saveReport_eq_ok h
    exact .inl rfl
  | _ =>
    cases h
    exact .inl rfl

/-- Numbers tell counts apart after every call. -/
theorem Sequenced.answer (h : s.Sequenced) {call : StoreCall} {result}
    (hanswer : s.answer supply call = .ok (result, s')) : s'.Sequenced := by
  have hnumber : s'.sequence = s.sequence ∨ ∃ new, call = .counts (.create new) := by
    cases call with
    | mappings call => exact .inl (by rw [answerMappings_store hanswer])
    | counts call =>
      refine (answerCounts_sequence hanswer).imp_right ?_
      rintro ⟨new, rfl⟩
      exact ⟨new, rfl⟩
  rcases hnumber with hsame | ⟨new, rfl⟩
  swap
  · cases hanswer
    exact h.createCount
  refine h.of_forall_exists ?_ (Int.le_of_eq hsame.symm)
  have hcounts := answer_counts hanswer
  generalize s'.counts = counts at hcounts
  cases hcounts with
  | same => exact fun d hd => ⟨d, hd, rfl, rfl⟩
  | created new =>
    cases hanswer
    exact absurd hsame (Int.ne_of_gt (Int.lt_succ _))
  | @changed c tenant id t hc =>
    intro d hd
    rcases mem_of_mem_putBy hd with rfl | hd
    · exact ⟨c, hc, StatusChange.apply_id.symm, StatusChange.apply_sequence.symm⟩
    · exact ⟨d, hd, rfl, rfl⟩
  | deleted => exact fun d hd => ⟨d, List.mem_of_mem_filter hd, rfl, rfl⟩

end Recount.Store

/-! ## Intact stores -/

namespace Recount

/-- What tells the entries of a store apart, and what they belong to, is in order. -/
structure Store.Intact (s : Store) : Prop where
  /-- An item is told by its count, its location, its code and its version. -/
  keys_nodup : (s.items.map Item.key).Nodup
  reports_nodup : (s.reports.map fun r => (r.item, r.version)).Nodup
  item_stored : ∀ i ∈ s.items, ∃ c ∈ s.counts, c.id = i.count
  report_stored : ∀ r ∈ s.reports, ∃ i ∈ s.items,
    i.id = r.item ∧ i.count = r.count ∧ i.version = r.version ∧ i.code = r.code
  sequence_nodup : (s.counts.map Count.sequence).Nodup

/-- A sound store whose counts are told by their numbers is intact. -/
theorem Store.Sound.intact {s : Store} (h : s.Sound) (hsequenced : s.Sequenced) : s.Intact where
  keys_nodup := h.keys_nodup
  reports_nodup := by
    refine List.Nodup.map_on (fun r hr q hq heq => ?_) (List.Nodup.of_map Report.id h.reports_nodup)
    exact eq_of_id_eq h.reports_nodup hr hq (h.report_unique r hr q hq (Prod.mk.inj heq).1)
  item_stored i hi := by
    obtain ⟨c, hc, hid, -⟩ := h.item_stored i hi
    exact ⟨c, hc, hid⟩
  report_stored r hr := by
    obtain ⟨i, hi, hsubject⟩ := h.report_stored r hr
    obtain ⟨hcount, hid, hversion, hcode⟩ := Subject.mk.inj hsubject
    exact ⟨i, hi, hid, hcount, hversion, hcode⟩
  sequence_nodup := by
    refine List.Nodup.map_on (fun c hc d hd heq => ?_) (List.Nodup.of_map Count.id h.counts_nodup)
    exact eq_of_id_eq h.counts_nodup hc hd (hsequenced.unique c hc d hd heq)

namespace Concurrent

variable {sources : Loading.Sources} {alone : Task → Prop} {w : World}

/-- Whatever happens, numbers tell counts apart. -/
theorem Reachable.sequenced (hw : Reachable sources alone w) : w.store.Sequenced := by
  refine hw.induction (P := fun w => w.store.Sequenced) .empty (fun _ _ h => h) ?_
  intro w n w' h hadvance
  rcases hadvance.store_cases with hsame | ⟨supply, call, result, -, hanswer⟩
  · exact hsame ▸ h
  · exact h.answer hanswer

/-- However the tasks of all users interleave, no two items have one key and no two reports are
about one item and version, every item belongs to a stored count and every report to a stored item
with its count, version and code, and no two counts have one number. -/
theorem store_intact (hw : Reachable sources alone w) : w.store.Intact :=
  hw.sound.store.intact hw.sequenced

/-- Two counts are created, and two quantities of one item are recorded at the same time. The one
that is recorded last was computed from the item as it was before the other. -/
def staleQuantity : List Move :=
  [.begin newCount, .begin newCount, goIn 1 0, goIn 2 1, .begin (newItem "A" none), goIn 3 2,
    goIn 4 2, goIn 5 2, goIn 6 2, .begin (newQuantity 5000 5), .begin (newQuantity 5000 7)] ++
  goOn 7 3 3 ++ goOn 10 4 6 ++ goOn 16 3 3

theorem store_intact_staleQuantity :
    (played noSources staleQuantity).store.Intact ∧
      (played noSources staleQuantity).store.counts.map Count.sequence = [1, 2] ∧
      (played noSources staleQuantity).store.items.map (fun i => i.countedQty.map Decimal.digits) =
        [some 5] ∧
      (played noSources staleQuantity).store.reports.length = 1 := by
  have hw : Reachable noSources nobody (played noSources staleQuantity) :=
    played_reachable fun _ _ h => h
  exact ⟨store_intact hw, by decide +kernel⟩

end Concurrent
end Recount
