import Recount.Proofs.Count.Computing
import Recount.Proofs.Counting.Recording
import Recount.Proofs.Load.Merging
import Recount.Proofs.Loading.Storing

/-!
# Where a load overflows

A load overflows if its records cannot be merged, or if there is no variance of what was counted of
an item for what the system is said to know of it. Records that come after such an item are not
stored any more.
-/

/-! ## Where records can be merged

Records can be merged just if the quantities of every code can be added one after the other. A
single code whose sum leaves the range keeps all others from being merged. -/

namespace Recount.ItemRecord

variable {record m : ItemRecord} {records rows merged next : List ItemRecord} {sum : Option Decimal}

/-- The quantities that records give, in their order. -/
def given (rows : List ItemRecord) : List Decimal := rows.filterMap (·.systemQty)

/-- The sum of the quantities, added one after the other. -/
def sumOf (rows : List ItemRecord) : Except Overflow (Option Decimal) :=
  rows.foldlM (fun sum r => addQty sum r.systemQty) none

theorem exists_foldlM_addQty_iff {total : Decimal} :
    (∃ sum, rows.foldlM (fun sum r => addQty sum r.systemQty) (some total) = .ok sum) ↔
      SumsInRange total (given rows) := by
  induction rows generalizing total with
  | nil => exact iff_of_true ⟨_, rfl⟩ trivial
  | cons r rows ih =>
    rw [List.foldlM_cons]
    unfold given
    cases hqty : r.systemQty with
    | none =>
      rw [List.filterMap_cons_none hqty]
      exact ih
    | some q =>
      rw [List.filterMap_cons_some hqty, SumsInRange, ← Decimal.exists_add_iff]
      simp only [bind_eq_ok_iff, addQty, map_eq_ok_iff]
      constructor
      · rintro ⟨sum, _, ⟨next, hnext, rfl⟩, hsum⟩
        refine ⟨⟨next, hnext⟩, fun next' hnext' => ?_⟩
        cases hnext.symm.trans hnext'
        exact ih.mp ⟨sum, hsum⟩
      · rintro ⟨⟨next, hnext⟩, h⟩
        obtain ⟨sum, hsum⟩ := ih.mpr (h next hnext)
        exact ⟨sum, _, ⟨next, hnext, rfl⟩, hsum⟩

/-- Quantities can be summed up just if each of the sums is in range. -/
theorem exists_sumOf_iff : (∃ sum, sumOf rows = .ok sum) ↔ SumsInRange .zero (given rows) := by
  unfold sumOf
  induction rows with
  | nil => exact iff_of_true ⟨_, rfl⟩ trivial
  | cons r rows ih =>
    rw [List.foldlM_cons]
    unfold given
    cases hqty : r.systemQty with
    | none =>
      rw [List.filterMap_cons_none hqty]
      exact ih
    | some q =>
      rw [List.filterMap_cons_some hqty, SumsInRange]
      have hfirst : Decimal.zero.add q = .ok q := rfl
      have hq := Decimal.exists_add_iff.mp ⟨q, hfirst⟩
      refine Iff.trans exists_foldlM_addQty_iff ⟨fun h => ⟨hq, fun next hnext => ?_⟩,
        fun h => h.2 q hfirst⟩
      cases hfirst.symm.trans hnext
      exact h

theorem sumOf_concat : sumOf (rows ++ [record]) =
    sumOf rows >>= fun sum => addQty sum record.systemQty := by
  unfold sumOf
  rw [List.foldlM_append]
  cases rows.foldlM (fun sum r => addQty sum r.systemQty) none with
  | error o => rfl
  | ok sum =>
    change (addQty sum record.systemQty >>= pure) = addQty sum record.systemQty
    cases addQty sum record.systemQty <;> rfl

/-- A record that was absorbed could be merged with the one of its code. -/
theorem exists_merge_of_absorb (h : absorb record merged = .ok next)
    (hnodup : (merged.map (·.code)).Nodup) (hm : m ∈ merged) (hcode : m.code = record.code) :
    ∃ both, m.merge record = .ok both := by
  induction merged generalizing next with
  | nil => exact absurd hm List.not_mem_nil
  | cons other rest ih =>
    obtain ⟨hfirst, hrest⟩ := List.nodup_cons.mp hnodup
    unfold absorb at h
    split at h
    · next hsame =>
      obtain ⟨both, hboth, -⟩ := map_eq_ok_iff.mp h
      rcases List.mem_cons.mp hm with rfl | hm
      · exact ⟨both, hboth⟩
      · exact absurd (List.mem_map.mpr ⟨m, hm, hcode.trans hsame.symm⟩) hfirst
    · next hother =>
      obtain ⟨rest', hnext, -⟩ := map_eq_ok_iff.mp h
      rcases List.mem_cons.mp hm with rfl | hm
      · exact absurd hcode hother
      · exact ih hnext hrest hm

/-- What was merged has, for each code, the sum of the quantities of its records. -/
def Summed (records merged : List ItemRecord) : Prop :=
  List.Forall₂ (fun code m => m.code = code ∧ sumOf (ofCode code records) = .ok m.systemQty)
    (records.map (·.code)).eraseDups merged

theorem Summed.absorb (h : Summed records merged)
    (hmerge : ∀ m ∈ merged, m.code = record.code → ∃ both, m.merge record = .ok both) :
    ∃ next, record.absorb merged = .ok next ∧ Summed (records ++ [record]) next := by
  have hstep : ∃ next, record.absorb merged = .ok next ∧ List.Forall₂
      (fun code m => m.code = code ∧ sumOf (ofCode code (records ++ [record])) = .ok m.systemQty)
      (if record.code ∈ (records.map (·.code)).eraseDups then (records.map (·.code)).eraseDups
        else (records.map (·.code)).eraseDups ++ [record.code]) next := by
    refine exists_absorb h (fun code m hm => hm.1) (nodup_eraseDups _) ?_ ?_ ?_
    · rintro m hm ⟨hcode, hsum⟩
      obtain ⟨both, hboth⟩ := hmerge m hm hcode
      refine ⟨both, hboth, ?_⟩
      obtain ⟨total, htotal, rfl⟩ := map_eq_ok_iff.mp hboth
      rw [ofCode_concat_self, sumOf_concat, hsum]
      exact ⟨hcode, htotal⟩
    · intro hfirst
      rw [List.mem_eraseDups, ← ofCode_eq_nil_iff] at hfirst
      rw [ofCode_concat_self, hfirst, List.nil_append]
      exact ⟨rfl, rfl⟩
    · rintro code m hne ⟨hcode, hsum⟩
      exact ⟨hcode, (ofCode_concat_of_ne hne).symm ▸ hsum⟩
  obtain ⟨next, hnext, hsummed⟩ := hstep
  refine ⟨next, hnext, ?_⟩
  unfold Summed
  rw [List.map_append, List.map_singleton, eraseDups_concat]
  simpa only [List.mem_eraseDups] using hsummed

theorem dedupe_concat : dedupe (records ++ [record]) =
    dedupe records >>= fun merged => record.absorb merged := by
  unfold dedupe
  rw [List.foldlM_append]
  cases records.foldlM (fun merged record => record.absorb merged) [] with
  | error o => rfl
  | ok merged =>
    change (record.absorb merged >>= pure) = record.absorb merged
    cases record.absorb merged <;> rfl

/-- Merged records have the sums of the records of their codes. -/
theorem summed_of_dedupe (h : dedupe records = .ok merged) : Summed records merged := by
  induction records using List.reverseRecOn generalizing merged with
  | nil =>
    cases h
    exact .nil
  | append_singleton records record ih =>
    rw [dedupe_concat] at h
    obtain ⟨before, hbefore, habsorb⟩ := bind_eq_ok_iff.mp h
    have hsummed := ih hbefore
    have hnodup : (before.map (·.code)).Nodup := by
      rw [codes_of_forall₂ hsummed]
      exact nodup_eraseDups _
    obtain ⟨next, hnext, hresult⟩ := hsummed.absorb fun m hm hcode =>
      exists_merge_of_absorb habsorb hnodup hm hcode
    cases habsorb.symm.trans hnext
    exact hresult

/-- Records can be merged just if the quantities of every code can be summed up. -/
theorem exists_dedupe_iff : (∃ merged, dedupe records = .ok merged) ↔
    ∀ code, SumsInRange .zero (given (ofCode code records)) := by
  simp only [← exists_sumOf_iff]
  constructor
  · rintro ⟨merged, hmerged⟩ code
    have hsummed := summed_of_dedupe hmerged
    by_cases hmem : code ∈ records.map (·.code)
    · obtain ⟨m, -, hsum⟩ :=
        exists_ofCode_eq hsummed (nodup_eraseDups _) (List.mem_eraseDups.mpr hmem)
      exact ⟨_, hsum⟩
    · rw [ofCode_eq_nil_iff.mpr hmem]
      exact ⟨none, rfl⟩
  · intro h
    induction records using List.reverseRecOn with
    | nil => exact ⟨[], rfl⟩
    | append_singleton records record ih =>
      have hbefore : ∀ code, ∃ sum, sumOf (ofCode code records) = .ok sum := by
        intro code
        obtain ⟨sum, hsum⟩ := h code
        by_cases heq : code = record.code
        · subst heq
          rw [ofCode_concat_self, sumOf_concat] at hsum
          obtain ⟨before, hbefore, -⟩ := bind_eq_ok_iff.mp hsum
          exact ⟨before, hbefore⟩
        · rw [ofCode_concat_of_ne heq] at hsum
          exact ⟨sum, hsum⟩
      obtain ⟨before, hdedupe⟩ := ih hbefore
      have hsummed := summed_of_dedupe hdedupe
      have hmerge : ∀ m ∈ before, m.code = record.code → ∃ both, m.merge record = .ok both := by
        intro m hm hcode
        obtain ⟨sum, hsum⟩ := h record.code
        rw [ofCode_concat_self, sumOf_concat, ← hcode, of_mem_forall₂ hsummed hm] at hsum
        exact ⟨_, map_eq_ok_iff.mpr ⟨sum, hsum, rfl⟩⟩
      obtain ⟨next, hnext, -⟩ := hsummed.absorb hmerge
      exact ⟨next, by rw [dedupe_concat]; exact bind_eq_ok_iff.mpr ⟨before, hdedupe, hnext⟩⟩

theorem dedupe_overflows_iff : (∃ o, dedupe records = .error o) ↔
    ∃ code, ¬ SumsInRange .zero (given (ofCode code records)) := by
  rw [← not_forall, ← exists_dedupe_iff]
  cases dedupe records with
  | ok merged => exact iff_of_false (by rintro ⟨_, ⟨⟩⟩) (not_not.mpr ⟨merged, rfl⟩)
  | error o => exact iff_of_true ⟨o, rfl⟩ (by rintro ⟨_, ⟨⟩⟩)

end Recount.ItemRecord

/-! ## Loads -/

namespace Recount

open Concurrent (Scene Ending Fresh)

/-- What was counted of the item under a key has no variance from a system quantity. -/
def Store.Outgrown (s : Store) (key : Item.Key) (system : Decimal) : Prop :=
  ∃ i ∈ s.items, i.key = key ∧ ∃ counted ∈ i.countedQty, ¬ VarianceInRange system counted

namespace Store

variable {s : Store} {c : Count} {new : Item} {supply : Supply}

theorem Sound.checkWritable_eq (h : s.Sound) (hc : c ∈ s.counts) (hid : c.id = new.count)
    (hopen : c.status.acceptsItems = true) (hversion : c.currentVersion = new.version) :
    s.checkWritable new.count new.version = .ok () := by
  have hfound : s.anyCount? new.count = some c :=
    (find?_id_eq_some_iff h.counts_nodup).mpr ⟨hc, hid⟩
  refine bind_eq_ok_iff.mpr ⟨c, elim_eq_ok_iff.mpr hfound, ?_⟩
  exact Count.checkWritable_eq_ok_iff.mpr ⟨hopen, hversion⟩

/-- The variance of an item that is loaded anew is computed from what was counted of it. -/
theorem Sound.upsertItem_overflow (h : s.Sound)
    (hwritable : s.checkWritable new.count new.version = .ok ())
    (houtgrown : s.Outgrown new.key new.systemQty) :
    ∃ o, s.upsertItem new supply = .error (.overflow o) := by
  obtain ⟨old, hold, hkey, counted, hcounted, hrange⟩ := houtgrown
  have hfound : s.itemByKey? new.key = some old := by
    cases hfind : s.itemByKey? new.key with
    | none => exact absurd hkey (itemByKey?_eq_none_iff.mp hfind old hold)
    | some other =>
      obtain ⟨hother, hokey⟩ := itemByKey?_eq_some hfind
      rw [h.eq_of_key hother hold (hokey.trans hkey.symm)]
  have hsome : (refresh old new (supply.time 0)).countedQty = some counted := hcounted
  rcases withCounted_cases (refresh old new (supply.time 0)) counted with ⟨hin, -⟩ | ⟨-, o, ho⟩
  · exact absurd hin hrange
  refine ⟨o, ?_⟩
  unfold Store.upsertItem
  rw [hwritable, hfound]
  dsimp only
  simp only [Halt.ofCheck, Except.mapError, hsome, ho, Halt.ofArithmetic]
  rfl

/-- Storing a record overflows just if what was counted of its item has no variance any more. -/
theorem Sound.upsertItem_overflow_iff (h : s.Sound) :
    (∃ o, s.upsertItem new supply = .error (.overflow o)) ↔
      s.checkWritable new.count new.version = .ok () ∧ s.Outgrown new.key new.systemQty := by
  refine ⟨fun ⟨o, ho⟩ => ?_, fun ⟨hwritable, houtgrown⟩ =>
    h.upsertItem_overflow hwritable houtgrown⟩
  cases hcheck : s.checkWritable new.count new.version with
  | error e =>
    unfold Store.upsertItem at ho
    rw [hcheck] at ho
    cases ho
  | ok _ =>
    refine ⟨rfl, ?_⟩
    by_contra hnot
    obtain ⟨c, hc, hid, hopen, hversion⟩ := checkWritable_eq_ok hcheck
    obtain ⟨i, outcome, s', hanswer⟩ : ∃ i outcome s',
        s.upsertItem new supply = .ok ((i, outcome), s') := by
      refine h.exists_upsertItem hc hid hopen hversion fun old hold hkey counted hcounted => ?_
      by_contra hcomputes
      exact hnot ⟨old, hold, hkey, counted, hcounted, fun hin => hcomputes (computes_iff.mpr hin)⟩
    cases ho.symm.trans hanswer

end Store

namespace Loading

variable {count : Count} {location : Id} {summary : Summary} {records merged : List ItemRecord}
  {σ : Scene}

/-- The first record whose item has no variance any more ends the storing of records. -/
theorem leads_storeAll_overflow (h : Ready count σ) (hdistinct : records.Pairwise (·.code ≠ ·.code))
    (houtgrown : ∃ r ∈ records, σ.store.Outgrown (keyOf count location r) r.known.systemQty) :
    Action.Leads (fun ending _ => ∃ o, ending = .overflow o)
      (storeAll count location summary records) σ := by
  induction records generalizing σ summary with
  | nil =>
    obtain ⟨r, hr, -⟩ := houtgrown
    exact absurd hr List.not_mem_nil
  | cons r records ih =>
    obtain ⟨hdiffers, hdistinct⟩ := List.pairwise_cons.mp hdistinct
    by_cases hhead : σ.store.Outgrown (keyOf count location r) r.known.systemQty
    · unfold storeAll
      simp only [Action.leads_bind, Action.leads_now, Action.andThen_success, Action.leads_freshId,
        Action.leads_attempt, Action.leads_counts]
      intro time id hid supply hfresh
      obtain ⟨o, ho⟩ : ∃ o, σ.store.upsertItem (itemOfRecord count location r id time) supply =
          .error (.overflow o) := h.sound.upsertItem_overflow
        (h.sound.checkWritable_eq h.stored rfl h.acceptsItems rfl) hhead
      change Action.Answered (.counts (.upsertItem (itemOfRecord count location r id time))) _ _ _
        (σ.store.upsertItem (itemOfRecord count location r id time) supply)
      rw [ho]
      exact ⟨o, rfl⟩
    · refine leads_storeAll_cons h (fun i hi hkey counted hcounted => ?_)
        fun new i outcome σ' hkey hknown hready hupserted => ih hready hdistinct ?_
      · by_contra hcomputes
        exact hhead ⟨i, hi, hkey, counted, hcounted, fun hin => hcomputes (computes_iff.mpr hin)⟩
      · obtain ⟨other, hother, i', hi', hikey, hcounted⟩ := houtgrown
        rcases List.mem_cons.mp hother with rfl | hother
        · exact absurd ⟨i', hi', hikey, hcounted⟩ hhead
        refine ⟨other, hother, i', (hupserted.items i').mpr (.inr ⟨hi', ?_⟩), hikey, hcounted⟩
        rw [hikey, hkey]
        exact (keyOf_ne (hdiffers other hother)).symm

/-- What can be computed with is exceeded by records that are to be stored: the quantities of a code
cannot be added up, or an item that was counted loses its variance. -/
def Exceeds (s : Store) (count : Count) (location : Id) (records : List ItemRecord) : Prop :=
  (∃ code, ¬ SumsInRange .zero (ItemRecord.given (ItemRecord.ofCode code records))) ∨
    ∃ merged, ItemRecord.dedupe records = .ok merged ∧ ∃ r ∈ merged,
      s.Outgrown (keyOf count location r) (r.systemQty.getD .zero)

/-- Storing records overflows just if they exceed what can be computed with. -/
theorem storeRecords_overflowsIff (h : Ready count σ) :
    (storeRecords count location summary records).OverflowsIff σ
      (Exceeds σ.store count location records) := by
  unfold storeRecords Action.OverflowsIff Exceeds
  cases hmerged : ItemRecord.dedupe records with
  | error o =>
    refine iff_of_true ⟨o, rfl⟩ (.inl ?_)
    by_contra hall
    rw [not_exists] at hall
    obtain ⟨merged, hok⟩ := ItemRecord.exists_dedupe_iff.mpr fun code => not_not.mp (hall code)
    cases hok.symm.trans hmerged
  | ok merged =>
    rw [Action.leads_bind, Action.leads_arithmetic_ok, Action.andThen_success]
    have hdistinct : merged.Pairwise (·.code ≠ ·.code) :=
      List.pairwise_map.mp ((ItemRecord.codes_dedupe hmerged).nodup_iff.mpr (List.nodup_dedup _))
    have hsums := ItemRecord.exists_dedupe_iff.mp ⟨merged, hmerged⟩
    by_cases houtgrown : ∃ r ∈ merged,
        σ.store.Outgrown (keyOf count location r) (r.systemQty.getD .zero)
    · refine (leads_storeAll_overflow h hdistinct houtgrown).mono fun ending _ hover => ?_
      exact iff_of_true hover (.inr ⟨merged, rfl, houtgrown⟩)
    · refine (leads_storeAll h hdistinct fun r hr i hi hkey counted hcounted => ?_).mono ?_
      · by_contra hcomputes
        exact houtgrown ⟨r, hr, i, hi, hkey, counted, hcounted,
          fun hin => hcomputes (computes_iff.mpr hin)⟩
      · rintro _ _ ⟨-, -, _, _, -, rfl⟩
        refine iff_of_false (by rintro ⟨_, ⟨⟩⟩) ?_
        rintro (⟨code, hcode⟩ | ⟨_, ⟨⟩, hsome⟩)
        · exact hcode (hsums code)
        · exact houtgrown hsome

end Loading

end Recount
