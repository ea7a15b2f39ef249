import Recount.Proofs.Store.Fitting

/-!
# Where items come from

After a call, each item is one that was there, with the quantity that it had, or the
call wrote it: it entered the item, recorded a quantity of it, settled it, or carried
it into the next version. The same is said of the counts that are under way.
-/

namespace Recount

variable {s s' : Store} {new : List Id} {supply : Supply} {i j : Item}

/-- The call writes a quantity of the item: it records it, settles it, or carries it over. -/
def CountCall.Quantifies : CountCall → Item → Prop
  | .recordItem i _, j => i.id = j.id
  | .change _ count t, j =>
    (t.settles = true ∧ j.count = count ∧ j.version = t.change.expectedVersion) ∨
      ∃ i ∈ t.newItems, i.id = j.id
  | _, _ => False

namespace Store

/-- How an item comes to be stored when a call was answered. -/
inductive Origin (s : Store) (j : Item) : CountCall → Prop
  /-- It was there, maybe with other particulars. -/
  | kept {call i} (hi : i ∈ s.items) (hid : i.id = j.id) (hkey : i.key = j.key)
      (hqty : j.countedQty = i.countedQty) (hnot : ¬ call.Quantifies j) : Origin s j call
  | upserted : Origin s j (.upsertItem j)
  | inserted : Origin s j (.insertItem j)
  | recorded {i change} (hid : j.id = i.id) (hkey : j.key = i.key)
      (hqty : j.countedQty = i.countedQty) : Origin s j (.recordItem i change)
  | settled {tenant count t old} (hsettles : t.settles = true) (hold : old ∈ s.items)
      (hid : old.id = j.id) (hkey : old.key = j.key) (hcount : old.count = count)
      (hversion : old.version = t.change.expectedVersion)
      (hqty : j.countedQty = some (old.countedQty.getD .zero)) : Origin s j (.change tenant count t)
  | carried {tenant count t i} (hi : i ∈ t.newItems) (hid : j.id = i.id) (hkey : j.key = i.key)
      (hqty : j.countedQty = i.countedQty) : Origin s j (.change tenant count t)

/-- A call that quantifies nothing leaves what was there. -/
theorem Origin.same {call : CountCall} (hj : j ∈ s.items) (hnot : ¬ call.Quantifies j) :
    Origin s j call :=
  .kept hj rfl rfl rfl hnot

theorem Sound.origin_change {tenant id : Id} {t : Transition} {c' : Count} (h : s.Sound)
    (hfits : FitsChange s new id t) (hsupply : s.AreNew new (supply.ids s.demand))
    (hanswer : s.change tenant id t supply = .ok (c', s')) (hj : j ∈ s'.items) :
    Origin s j (.change tenant id t) := by
  obtain ⟨c, hc, rfl, hcurrent, -, hchanged⟩ := hfits.changed hsupply hanswer
  have hput : Next new s (s.putCount (t.change.apply c (supply.time 0))) :=
    h.putChanged hc t.change (supply.time 0)
  cases hchanged with
  | stage hsettles hitems =>
    refine .same hj ?_
    rintro (⟨hsettles', -⟩ | ⟨i, hi, -⟩)
    · cases hsettles.symm.trans hsettles'
    · exact absurd (hitems ▸ hi) List.not_mem_nil
  | completion hsettles hitems hopens hover ht =>
    rw [putReports_items] at hj
    rcases ht.mem_putItems hput.sound hj with ⟨k, hk, rfl⟩ | ⟨hj, -, hother⟩
    · obtain ⟨old, hold, hcount, hold', hsettle⟩ := ht.exists_old hk
      obtain ⟨hid, hkey, -, hqty, -⟩ := Item.settle_eq_ok hsettle
      exact .settled hsettles hold hid.symm hkey.symm hcount (hold'.trans hcurrent) hqty
    · refine .same hj ?_
      rintro (⟨-, hcount, hjversion⟩ | ⟨i, hi, -⟩)
      · exact hother hcount (hjversion.trans hcurrent.symm)
      · exact absurd (hitems ▸ hi) List.not_mem_nil
  | recount hsettles hopens hunder haccepts =>
    rcases (hput.sound.mem_putItems_iff haccepts.nodup).mp hj with hj | ⟨hj, hout⟩
    · obtain ⟨k, hk, rfl⟩ := mem_written.mp hj
      exact .carried hk rfl rfl rfl
    · refine .same hj ?_
      rintro (⟨hsettles', -⟩ | ⟨i, hi, hiid⟩)
      · cases hsettles.symm.trans hsettles'
      · rw [written_ids] at hout
        exact hout (hiid ▸ List.mem_map_of_mem hi)

theorem Sound.origin_upsertItem {i : Item} {outcome : UpsertOutcome} {new' : Item} (h : s.Sound)
    (hanswer : s.upsertItem new' supply = .ok ((i, outcome), s')) (hj : j ∈ s'.items) :
    Origin s j (.upsertItem new') := by
  obtain ⟨c, -, -, -, -, hcases⟩ := upsertItem_eq_ok hanswer
  rcases hcases with ⟨-, rfl, rfl⟩ | ⟨old, hold, hkey, hcases⟩
  · rcases (mem_putBy_iff h.items_nodup).mp hj with rfl | ⟨hj, -⟩
    · exact .upserted
    · exact .same hj id
  rcases hcases with ⟨hnone, rfl, rfl⟩ | ⟨counted, report, hcounted, hwith, -, rfl⟩
  · rcases (mem_putBy_iff h.items_nodup).mp hj with rfl | ⟨hj, -⟩
    · exact .kept hold rfl rfl rfl id
    · exact .same hj id
  · obtain ⟨hiid, hikey, -, hqty⟩ := Item.withCounted_same hwith
    have hitems : ((s.changeReport i (.ofReport? report)).putItem i).items =
        putBy Item.id i s.items := congrArg (putBy Item.id i) changeReport_items
    rw [hitems] at hj
    rcases (mem_putBy_iff h.items_nodup).mp hj with rfl | ⟨hj, -⟩
    · exact .kept hold hiid.symm hikey.symm (hqty.trans hcounted.symm) id
    · exact .same hj id

/-- After a call that fits, every item has an origin. -/
theorem Sound.origin {call : CountCall} {result} (h : s.Sound) (hfits : s.Fits new call)
    (hsupply : s.AreNew new (supply.ids s.demand))
    (hanswer : s.answer supply (.counts call) = .ok (result, s')) (hj : j ∈ s'.items) :
    Origin s j call := by
  cases call with
  | create new' =>
    cases hanswer
    exact .same hj id
  | change tenant count t => exact h.origin_change hfits hsupply hanswer hj
  | delete tenant count allowed =>
    obtain ⟨c, -, -, -, -, rfl⟩ := deleteCount_eq_ok hanswer
    exact .same (List.mem_of_mem_filter hj) id
  | upsertItem i => exact h.origin_upsertItem hanswer hj
  | insertItem i =>
    obtain ⟨_, _, _, _, _, _, -, rfl⟩ := insertItem_eq_ok hanswer
    rcases (mem_putBy_iff h.items_nodup).mp hj with rfl | ⟨hj, -⟩
    · exact .inserted
    · exact .same hj id
  | recordItem i change =>
    obtain ⟨_, _, _, _, _, _, _, _, _, rfl, rfl⟩ := recordItem_eq_ok hanswer
    rw [changeReport_items] at hj
    rcases (mem_putBy_iff h.items_nodup).mp hj with rfl | ⟨hj, hne⟩
    · exact .recorded rfl rfl rfl
    · exact .same hj fun hid => hne hid.symm
  | saveReport r =>
    obtain ⟨-, -, rfl⟩ := saveReport_eq_ok hanswer
    exact .same hj id
  | addAttempt a =>
    cases hanswer
    exact .same hj id
  | _ =>
    cases hanswer
    exact .same hj id

/-- A version under way with an item that was there before was under way before. -/
theorem Sound.underWay_before {call : CountCall} {result} (h : s.Sound) (hfits : s.Fits new call)
    (hsupply : s.AreNew new (supply.ids s.demand))
    (hanswer : s.answer supply (.counts call) = .ok (result, s')) {d : Count}
    (hd : d ∈ s'.counts) (hunder : d.status.isUnderWay = true) (hi : i ∈ s.items)
    (hcount : i.count = d.id) (hversion : i.version = d.currentVersion) :
    ∃ c ∈ s.counts, c.id = d.id ∧ c.currentVersion = d.currentVersion ∧
      c.status.isUnderWay = true := by
  have hcounts := answer_counts hanswer
  generalize s'.counts = after at hcounts hd
  cases hcounts with
  | same => exact ⟨d, hd, rfl, rfl, hunder⟩
  | created new' =>
    rcases (mem_putBy_iff h.counts_nodup).mp hd with rfl | ⟨hd, -⟩
    · -- A count that was just created has no items.
      obtain ⟨c, hc, hid, -⟩ := h.item_stored i hi
      have hmem : supply.id 0 ∈ supply.ids s.demand := Supply.id_mem_ids (Nat.succ_pos _)
      exact absurd (hid.trans hcount) (hsupply.count_ne hmem hc)
    · exact ⟨d, hd, rfl, rfl, hunder⟩
  | @changed c tenant id t hc hid _ hstatus hexpected _ =>
    rcases (mem_putBy_iff h.counts_nodup).mp hd with rfl | ⟨hd, -⟩
    · rw [StatusChange.apply_status] at hunder
      rw [StatusChange.apply_id] at hcount ⊢
      rw [StatusChange.apply_currentVersion] at hversion ⊢
      cases hfits with
      | stage change version actor hchange =>
        exact ⟨c, hc, rfl, (Int.add_zero _).symm, isUnderWay_of_stageChange hchange hunder hstatus⟩
      | completion version actor => cases hunder
      | recount version actor =>
        -- The version was not open, so it had no items.
        obtain ⟨e, he, heid, hle⟩ := h.item_stored i hi
        rw [eq_of_id_eq h.counts_nodup he hc (heid.trans hcount)] at hle
        have hopened : i.version = c.currentVersion + 1 := hversion
        omega
    · exact ⟨d, hd, rfl, rfl, hunder⟩
  | deleted => exact ⟨d, List.mem_of_mem_filter hd, rfl, rfl, hunder⟩

/-- What is recorded or carried over is stored. -/
theorem exists_mem_of_recordItem {i result : Item} {change : ReportChange} {now : Time}
    (hanswer : s.recordItem i change now = .ok (result, s')) : ∃ j ∈ s'.items, j.id = i.id := by
  obtain ⟨_, _, _, _, _, _, _, _, _, rfl, rfl⟩ := recordItem_eq_ok hanswer
  refine ⟨{ i with updatedAt := now }, ?_, rfl⟩
  rw [changeReport_items]
  exact mem_putBy_self

theorem Sound.exists_mem_of_newItems {tenant id : Id} {t : Transition} {c' : Count} (h : s.Sound)
    (hfits : FitsChange s new id t) (hanswer : s.change tenant id t supply = .ok (c', s'))
    (hi : i ∈ t.newItems) : ∃ j ∈ s'.items, j.id = i.id := by
  obtain ⟨c, hc, -, -, -, -, -, -, items, reports, hsettled, -, rfl⟩ := change_eq_ok hanswer
  cases hfits with
  | stage => exact absurd hi List.not_mem_nil
  | completion => exact absurd hi List.not_mem_nil
  | recount version actor listed ids time hlisted hdistinct hids hlength =>
    rcases settled_eq_ok hsettled with ⟨-, rfl, rfl⟩ | ⟨hsettles, -⟩
    · rw [putReports_items, putItems_items]
      refine ⟨{ i with updatedAt := supply.time 0 }, ?_, rfl⟩
      refine (mem_putAll_iff ?_ h.items_nodup).mpr (.inl (mem_written.mpr ⟨i, hi, rfl⟩))
      rw [written_ids, List.nil_append, Item.map_id_nextAll hlength]
      exact hids.nodup
    · cases hsettles

/-- A version that is settled is not under way any more. -/
theorem Sound.over_of_settles {tenant id : Id} {t : Transition} {c' : Count} (h : s.Sound)
    (hfits : FitsChange s new id t) (hsettles : t.settles = true)
    (hanswer : s.change tenant id t supply = .ok (c', s')) :
    c' ∈ s'.counts ∧ c'.id = id ∧ c'.currentVersion = t.change.expectedVersion ∧
      ∀ d ∈ s'.counts, d.id = id → d = c' ∧ d.status.isUnderWay = false := by
  obtain ⟨c, hc, hid, -, -, hversion, -, -, items, reports, -, rfl, rfl⟩ := change_eq_ok hanswer
  cases hfits with
  | completion version actor =>
    rw [putReports_counts, putItems_counts]
    refine ⟨mem_putBy_self, hid, (Int.add_zero _).trans hversion, fun d hd hdid => ?_⟩
    rcases (mem_putBy_iff h.counts_nodup).mp hd with rfl | ⟨-, hne⟩
    · exact ⟨rfl, rfl⟩
    · exact absurd (hdid.trans hid.symm) hne
  | _ => cases hsettles

end Store
end Recount
