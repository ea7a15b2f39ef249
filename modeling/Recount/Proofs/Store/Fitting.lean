import Recount.Proofs.Count.Stages
import Recount.Proofs.Store.Sound

/-!
# Calls that fit a store

A call fits a store if what it enters is new there and what it changes is still what it
was taken for. A sound store that answers a fitting call stays sound.
-/

namespace Recount

/-- Nothing was counted of an item yet. -/
structure Item.Uncounted (i : Item) : Prop where
  countedQty : i.countedQty = none
  difference : i.difference = none
  variancePercent : i.variancePercent = none
  hasVariance : i.hasVariance = false

theorem Item.Uncounted.consistent {i : Item} (h : i.Uncounted) : i.Consistent := by
  unfold Item.Consistent
  rw [h.countedQty]
  exact ⟨h.difference, h.variancePercent, h.hasVariance⟩

namespace Store

open Counting

variable {s s' : Store} {new : List Id} {supply : Supply} {c : Count} {i : Item}

/-- Identifiers that are new to a store. -/
structure AreNew (s : Store) (new ids : List Id) : Prop where
  nodup : ids.Nodup
  mem : ∀ id ∈ ids, id ∈ new
  unused : ∀ id ∈ ids, id ∉ s.ids

theorem AreNew.count_ne {ids : List Id} (h : s.AreNew new ids) {id : Id} (hid : id ∈ ids)
    (hc : c ∈ s.counts) : c.id ≠ id := by
  rintro rfl
  exact h.unused _ hid (count_id_mem_ids hc)

theorem AreNew.item_ne {ids : List Id} (h : s.AreNew new ids) {id : Id} (hid : id ∈ ids)
    (hi : i ∈ s.items) : i.id ≠ id := by
  rintro rfl
  exact h.unused _ hid (item_id_mem_ids hi)

theorem AreNew.report_ne {ids : List Id} (h : s.AreNew new ids) {id : Id} (hid : id ∈ ids)
    {r : Report} (hr : r ∈ s.reports) : r.id ≠ id := by
  rintro rfl
  exact h.unused _ hid (report_id_mem_ids hr)

/-- A transition that fits: a change of stage, the completion of a version, or a recount with new
items for the ones of the version, which are all different. -/
inductive FitsChange (s : Store) (new : List Id) (count : Id) : Transition → Prop
  | stage (change : StageChange) (version : Int) (actor : Id) (hchange : change ∈ stageChanges) :
      FitsChange s new count
        { change :=
            { expected := change.expected, expectedVersion := version, target := change.target
              actor, milestone := change.milestone } }
  | completion (version : Int) (actor : Id) :
      FitsChange s new count
        { change :=
            { expected := [.active, .draft], expectedVersion := version, target := .submitted
              actor, milestone := some .completed }
          settles := true }
  | recount (version : Int) (actor : Id) (items : List Item) (ids : List Id) (time : Time)
      (hitems : ∀ i ∈ items, i.count = count ∧ i.version = version ∧ i.Consistent)
      (hkeys : (items.map Item.key).Nodup) (hids : s.AreNew new ids)
      (hlength : ids.length = items.length) :
      FitsChange s new count
        { change :=
            { expected := recountable, expectedVersion := version, target := .active, actor
              opensVersion := true }
          newItems := Item.nextAll (version + 1) time items ids }

/-- Only a version under way is settled. -/
theorem FitsChange.isUnderWay_of_settles {count : Id} {t : Transition}
    (h : FitsChange s new count t) (hsettles : t.settles = true) {status : Status}
    (hstatus : status ∈ t.change.expected) : status.isUnderWay = true := by
  cases h with
  | completion version actor =>
    have hexpected : status = .active ∨ status = .draft := by simpa using hstatus
    rcases hexpected with rfl | rfl <;> rfl
  | _ => cases hsettles

/-- New items belong to the version that comes next. -/
theorem FitsChange.newItems_place {count : Id} {t : Transition} (h : FitsChange s new count t)
    (hi : i ∈ t.newItems) : i.count = count ∧ i.version = t.change.expectedVersion + 1 := by
  cases h with
  | recount version actor items ids time hitems =>
    obtain ⟨k, hk, id, -, rfl⟩ := Item.mem_nextAll hi
    have hkey : (k.next (version + 1) id time).key = { k.key with version := version + 1 } :=
      Item.next_key
    simp only [Item.key, Item.Key.mk.injEq] at hkey
    exact ⟨hkey.1.trans (hitems k hk).1, hkey.2.2.2⟩
  | _ => exact absurd hi List.not_mem_nil

/-- A counted item that fits, with the report that belongs to it. -/
structure FitsRecord (s : Store) (new : List Id) (i : Item) (change : ReportChange) : Prop where
  key : ∀ j ∈ s.items, j.id = i.id → j.key = i.key
  counted : i.countedQty.isSome
  consistent : i.Consistent
  report : ∃ id created report, s.AreNew new [id] ∧ i.report? id created = .ok report ∧
    change = .ofReport? report

/-- A call about counts fits a store. -/
def Fits (s : Store) (new : List Id) : CountCall → Prop
  | .change _ count t => FitsChange s new count t
  | .upsertItem i => i.Uncounted ∧ s.AreNew new [i.id]
  | .insertItem i => i.Uncounted ∧ s.AreNew new [i.id]
  | .recordItem i change => FitsRecord s new i change
  | .saveReport r => ∀ q ∈ s.reports, q.id = r.id → q.subject = r.subject
  | _ => True

/-- The items that are settled, each with an identifier for its report. -/
theorem settled_eq_ok {t : Transition} {items : List Item} {reports : List Report}
    (h : s.settled c t supply = .ok (items, reports)) :
    (t.settles = false ∧ items = [] ∧ reports = []) ∨
      (t.settles = true ∧ ∃ entries : List (Item × Id),
        entries.map (·.1) = s.itemsOf c.id (some c.currentVersion) ∧
        (entries.map (·.2)).Sublist (supply.ids s.demand) ∧
        Item.settleAll t.change.actor (supply.time 0) entries = .ok (items, reports)) := by
  unfold settled at h
  split at h
  · next hsettles =>
    refine .inr ⟨hsettles, _, ?_, ?_, h⟩
    · rw [List.map_map]
      exact List.zipIdx_map_fst 0 _
    · have hlength : (s.itemsOf c.id (some c.currentVersion)).length ≤ s.demand :=
        Nat.le_succ_of_le (List.length_filter_le _ _)
      have hmap : (s.itemsOf c.id (some c.currentVersion)).zipIdx.map (supply.id ·.2) =
          (List.range (s.itemsOf c.id (some c.currentVersion)).length).map supply.id := by
        rw [List.range_eq_range', ← List.zipIdx_map_snd 0, List.map_map]
        rfl
      have hsub := (List.range_sublist.mpr hlength).map supply.id
      rw [← hmap] at hsub
      rw [List.map_map, Supply.ids]
      exact hsub
  · next hsettles =>
    cases h
    exact .inl ⟨by simpa using hsettles, rfl, rfl⟩

theorem mem_written {items : List Item} {now : Time} :
    i ∈ written items now ↔ ∃ j ∈ items, i = { j with updatedAt := now } := by
  simp only [written, List.mem_map, eq_comm]

theorem written_ids {items : List Item} {now : Time} :
    (written items now).map Item.id = items.map Item.id := by
  simp [written]

theorem Accepts.single (hconsistent : i.Consistent)
    (hstored : ∃ c ∈ s.counts, c.id = i.count ∧ i.version ≤ c.currentVersion)
    (hplace : (∃ j ∈ s.items, j.id = i.id ∧ j.key = i.key) ∨
      (i.id ∈ new ∧ ∀ j ∈ s.items, j.id ≠ i.id ∧ j.key ≠ i.key)) : s.Accepts new [i] where
  nodup := List.nodup_singleton i.id
  consistent j hj := List.mem_singleton.mp hj ▸ hconsistent
  stored j hj := List.mem_singleton.mp hj ▸ hstored
  place j hj := by
    rw [List.mem_singleton.mp hj]
    refine hplace.imp_right fun ⟨hnew, hfresh⟩ => ⟨hnew, hfresh, fun k hk _ => ?_⟩
    rw [List.mem_singleton.mp hk]

theorem Sound.putItem (h : s.Sound) (hi : s.Accepts new [i]) : Next new s (s.putItem i) :=
  h.putItems hi

/-- The items of the version of a count are settled, with new identifiers for their reports. -/
structure Settlement (s : Store) (new : List Id) (c : Count) (actor : Id) (now : Time)
    (entries : List (Item × Id)) (items : List Item) (reports : List Report) : Prop where
  entries_eq : entries.map (·.1) = s.itemsOf c.id (some c.currentVersion)
  settled : Item.settleAll actor now entries = .ok (items, reports)
  nodup : (entries.map (·.2)).Nodup
  mem : ∀ id ∈ entries.map (·.2), id ∈ new
  fresh : ∀ id ∈ entries.map (·.2), ∀ q ∈ s.reports, q.id ≠ id

section Settling

variable {actor : Id} {now : Time} {entries : List (Item × Id)} {items : List Item}
  {reports : List Report}

/-- A settled item comes from an item of the version. -/
theorem Settlement.exists_old (ht : Settlement s new c actor now entries items reports)
    (hi : i ∈ items) : ∃ old ∈ s.items, old.count = c.id ∧ old.version = c.currentVersion ∧
      old.settle actor now = .ok i := by
  obtain ⟨entry, hentry, hsettle⟩ := Item.settleAll_mem_items ht.settled hi
  have hmem : entry.1 ∈ s.itemsOf c.id (some c.currentVersion) :=
    ht.entries_eq ▸ List.mem_map_of_mem hentry
  obtain ⟨hold, hcount, hversion⟩ := mem_itemsOf.mp hmem
  exact ⟨entry.1, hold, hcount, hversion _ rfl, hsettle⟩

/-- The settled items are those of the version. -/
theorem Settlement.ids_eq (ht : Settlement s new c actor now entries items reports) :
    items.map Item.id = (s.itemsOf c.id (some c.currentVersion)).map Item.id := by
  rw [Item.settleAll_ids ht.settled, ← ht.entries_eq, List.map_map]
  rfl

/-- Settled items take the places of the items of the version. -/
theorem Settlement.accepts (ht : Settlement s new c actor now entries items reports)
    (h : s.Sound) : s.Accepts new (written items now) := by
  have hback : ∀ j ∈ written items now, ∃ i ∈ s.items, j.id = i.id ∧ j.key = i.key ∧
      j.Consistent := by
    intro j hj
    obtain ⟨k, hk, rfl⟩ := mem_written.mp hj
    obtain ⟨old, hold, -, -, hsettle⟩ := ht.exists_old hk
    obtain ⟨hid, hkey, -, -, hconsistent, -⟩ := Item.settle_eq_ok hsettle
    exact ⟨old, hold, hid, hkey, hconsistent⟩
  constructor
  · rw [written_ids, ht.ids_eq]
    exact nodup_map_filter _ h.items_nodup
  · intro j hj
    obtain ⟨i, -, -, -, hconsistent⟩ := hback j hj
    exact hconsistent
  · intro j hj
    obtain ⟨i, hi, -, hkey, -⟩ := hback j hj
    obtain ⟨d, hd, hid, hversion⟩ := h.item_stored i hi
    simp only [Item.key, Item.Key.mk.injEq] at hkey
    exact ⟨d, hd, hid.trans hkey.1.symm, hkey.2.2.2 ▸ hversion⟩
  · intro j hj
    obtain ⟨i, hi, hid, hkey, -⟩ := hback j hj
    exact .inl ⟨i, hi, hid.symm, hkey.symm⟩

/-- After a version was settled, an item is one of those that were settled, or it was there and is
none of the version. -/
theorem Settlement.mem_putItems (ht : Settlement s new c actor now entries items reports)
    (h : s.Sound) (hi : i ∈ (s.putItems (written items now)).items) :
    (∃ j ∈ items, i = { j with updatedAt := now }) ∨
      (i ∈ s.items ∧ i.id ∉ items.map Item.id ∧ (i.count = c.id → i.version ≠ c.currentVersion)) := by
  rcases (h.mem_putItems_iff (ht.accepts h).nodup).mp hi with hi | ⟨hi, hout⟩
  · exact .inl (mem_written.mp hi)
  · rw [written_ids] at hout
    refine .inr ⟨hi, hout, fun hcount hversion => hout ?_⟩
    rw [ht.ids_eq]
    exact List.mem_map_of_mem (mem_itemsOf.mpr ⟨hi, hcount, by simp [hversion]⟩)

/-- The reports of settled items are about items that are stored by then. -/
theorem Settlement.acceptsReports (ht : Settlement s new c actor now entries items reports)
    (h : s.Sound) : (s.putItems (written items now)).AcceptsReports new reports := by
  have hsub := Item.settleAll_report_ids ht.settled
  have hids : ∀ r ∈ reports, r.id ∈ entries.map (·.2) := fun r hr =>
    hsub.subset (List.mem_map_of_mem hr)
  refine ⟨hsub.nodup ht.nodup, fun r hr => ht.mem _ (hids r hr), fun r hr => ?_,
    fun r hr q hq => ?_⟩
  · obtain ⟨j, hj, -, hdescribes, -⟩ := Item.settleAll_describes ht.settled hr
    refine ⟨{ j with updatedAt := now }, ?_, hdescribes.subject.symm⟩
    exact (h.mem_putItems_iff (ht.accepts h).nodup).mpr (.inl (mem_written.mpr ⟨j, hj, rfl⟩))
  · exact ht.fresh _ (hids r hr) q (putItems_reports ▸ hq)

/-- A version is settled: its items are put and then their reports. -/
theorem Settlement.next (ht : Settlement s new c actor now entries items reports) (h : s.Sound) :
    Next new s ((s.putItems (written items now)).putReports reports) := by
  have hitems : Next new s (s.putItems (written items now)) := h.putItems (ht.accepts h)
  exact hitems.trans (hitems.sound.putReports (ht.acceptsReports h))

end Settling

/-- The items of a recount are new, and so are their keys. -/
theorem accepts_next {version : Int} {items : List Item} {ids : List Id}
    {time now : Time} (hc : c ∈ s.counts) (hversion : version + 1 ≤ c.currentVersion)
    (hitems : ∀ i ∈ items, i.count = c.id ∧ i.version = version ∧ i.Consistent)
    (hkeys : (items.map Item.key).Nodup) (hids : ids.Nodup)
    (hnew : ∀ id ∈ ids, id ∈ new ∧ ∀ j ∈ s.items, j.id ≠ id)
    (hlength : ids.length = items.length)
    (hfresh : ∀ i ∈ Item.nextAll (version + 1) time items ids, ∀ j ∈ s.items, j.key ≠ i.key) :
    s.Accepts new (written (Item.nextAll (version + 1) time items ids) now) := by
  have hback : ∀ j ∈ written (Item.nextAll (version + 1) time items ids) now,
      ∃ k ∈ Item.nextAll (version + 1) time items ids, j.id = k.id ∧ j.key = k.key ∧ k.id ∈ ids ∧
        k.count = c.id ∧ k.version = version + 1 ∧ j.Consistent := by
    intro j hj
    obtain ⟨k, hk, rfl⟩ := mem_written.mp hj
    obtain ⟨i, hi, id, hid, rfl⟩ := Item.mem_nextAll hk
    obtain ⟨hcount, -, hconsistent⟩ := hitems i hi
    have hkey : (i.next (version + 1) id time).key = { i.key with version := version + 1 } :=
      Item.next_key
    simp only [Item.key, Item.Key.mk.injEq] at hkey
    exact ⟨_, hk, rfl, rfl, Item.next_id ▸ hid, hkey.1.trans hcount, hkey.2.2.2, hconsistent.next⟩
  constructor
  · rw [written_ids, Item.map_id_nextAll hlength]
    exact hids
  · intro j hj
    obtain ⟨-, -, -, -, -, -, -, hconsistent⟩ := hback j hj
    exact hconsistent
  · intro j hj
    obtain ⟨k, -, -, hkey, -, hcount, hkversion, -⟩ := hback j hj
    simp only [Item.key, Item.Key.mk.injEq] at hkey
    exact ⟨c, hc, (hkey.1.trans hcount).symm, (hkey.2.2.2.trans hkversion) ▸ hversion⟩
  · intro j hj
    obtain ⟨k, hk, hid, hkey, hkid, -⟩ := hback j hj
    refine .inr ⟨hid ▸ (hnew _ hkid).1, fun i hi => ?_, ?_⟩
    · exact ⟨hid ▸ (hnew _ hkid).2 i hi, hkey ▸ hfresh k hk i hi⟩
    · intro j' hj' heq
      obtain ⟨k', hk', hid', hkey', -⟩ := hback j' hj'
      have hnodup : ((Item.nextAll (version + 1) time items ids).map Item.key).Nodup :=
        Item.nodup_key_nextAll hlength (fun i hi => (hitems i hi).2.1) hkeys
      rw [hid, hid', List.inj_on_of_nodup_map hnodup hk' hk (hkey'.symm.trans (heq.trans hkey))]

/-- A count moves on to a stage, or to the next version. -/
theorem Sound.putChanged (h : s.Sound) (hc : c ∈ s.counts) (change : StatusChange) (now : Time) :
    Next new s (s.putCount (change.apply c now)) := by
  refine h.putCount (.inr ⟨c, hc, by simp, by simp, by simp, ?_⟩)
  rw [StatusChange.apply_currentVersion]
  split <;> omega

/-- What a transition that fits does, by what it is: a change of stage only puts the count, a
completion settles its version too, and a recount enters the new items. -/
inductive Changed (s : Store) (new : List Id) (c : Count) (now : Time) (t : Transition) : Store → Prop
  | stage (hsettles : t.settles = false) (hitems : t.newItems = [])
      (hopens : t.change.opensVersion = false)
      (hunder : t.change.target.isUnderWay = true → c.status.isUnderWay = true) :
      Changed s new c now t (s.putCount (t.change.apply c now))
  | completion {entries items reports} (hsettles : t.settles = true) (hitems : t.newItems = [])
      (hopens : t.change.opensVersion = false) (hover : t.change.target.isUnderWay = false)
      (ht : Settlement (s.putCount (t.change.apply c now)) new c t.change.actor now entries items
        reports) :
      Changed s new c now t
        (((s.putCount (t.change.apply c now)).putItems (written items now)).putReports reports)
  | recount (hsettles : t.settles = false) (hopens : t.change.opensVersion = true)
      (hunder : c.status.isUnderWay = false)
      (haccepts : (s.putCount (t.change.apply c now)).Accepts new (written t.newItems now))
      (hitems : ∀ i ∈ t.newItems, i.hasVariance = false ∧ ∀ j ∈ s.items, j.id ≠ i.id) :
      Changed s new c now t ((s.putCount (t.change.apply c now)).putItems (written t.newItems now))

/-- A transition that fits is made. -/
theorem FitsChange.changed {tenant id : Id} {t : Transition} {c' : Count}
    (hfits : FitsChange s new id t) (hsupply : s.AreNew new (supply.ids s.demand))
    (hanswer : s.change tenant id t supply = .ok (c', s')) :
    ∃ c ∈ s.counts, c.id = id ∧ c.currentVersion = t.change.expectedVersion ∧
      c' = t.change.apply c (supply.time 0) ∧ Changed s new c (supply.time 0) t s' := by
  obtain ⟨c, hc, hid, -, hstatus, hversion, -, hkeys, items, reports, hsettled, rfl, rfl⟩ :=
    change_eq_ok hanswer
  refine ⟨c, hc, hid, hversion, rfl, ?_⟩
  cases hfits with
  | stage change version actor hchange =>
    rcases settled_eq_ok hsettled with ⟨-, rfl, rfl⟩ | ⟨hsettles, -⟩
    · exact .stage rfl rfl rfl fun hunder => isUnderWay_of_stageChange hchange hunder hstatus
    · cases hsettles
  | completion version actor =>
    rcases settled_eq_ok hsettled with ⟨hsettles, -⟩ | ⟨-, entries, hfst, hsnd, hsettle⟩
    · cases hsettles
    rw [List.append_nil, List.nil_append]
    refine .completion rfl rfl rfl rfl ⟨hfst, hsettle, hsnd.nodup hsupply.nodup, ?_, fun id hid => ?_⟩
    · exact fun id hid => hsupply.mem id (hsnd.subset hid)
    · exact fun q hq => hsupply.report_ne (hsnd.subset hid) hq
  | recount version actor listed ids time hlisted hdistinct hids hlength =>
    rcases settled_eq_ok hsettled with ⟨-, rfl, rfl⟩ | ⟨hsettles, -⟩
    · have hlater : version + 1 = c.currentVersion + 1 := congrArg (· + 1) hversion.symm
      refine .recount rfl rfl (not_isUnderWay_of_recountable hstatus) ?_ fun i hi => ?_
      · refine accepts_next mem_putBy_self (Int.le_of_eq hlater) (hid ▸ hlisted) hdistinct hids.nodup
          (fun id hid => ⟨hids.mem id hid, fun j hj => hids.item_ne hid hj⟩) hlength hkeys
      · obtain ⟨old, -, id, hid, rfl⟩ := Item.mem_nextAll hi
        exact ⟨Item.next_hasVariance, fun j hj => Item.next_id ▸ hids.item_ne hid hj⟩
    · cases hsettles

theorem Sound.change {tenant id : Id} {t : Transition} {c' : Count} (h : s.Sound)
    (hfits : FitsChange s new id t) (hsupply : s.AreNew new (supply.ids s.demand))
    (hanswer : s.change tenant id t supply = .ok (c', s')) : Next new s s' := by
  obtain ⟨c, hc, -, -, -, hchanged⟩ := hfits.changed hsupply hanswer
  have hput : Next new s (s.putCount (t.change.apply c (supply.time 0))) :=
    h.putChanged hc t.change (supply.time 0)
  cases hchanged with
  | stage => exact hput
  | completion _ _ _ _ ht => exact hput.trans (ht.next hput.sound)
  | recount _ _ _ haccepts => exact hput.trans (hput.sound.putItems haccepts)

/-- A fitting item is inserted, or what the system knows of the one with its key is refreshed. -/
theorem Sound.upsertItem {new' i : Item} {outcome : UpsertOutcome} (h : s.Sound)
    (hfits : new'.Uncounted ∧ s.AreNew new [new'.id]) (hsupply : s.AreNew new (supply.ids s.demand))
    (hanswer : s.upsertItem new' supply = .ok ((i, outcome), s')) : Next new s s' := by
  obtain ⟨huncounted, hnew⟩ := hfits
  obtain ⟨c, hc, hid, -, hversion, hcases⟩ := upsertItem_eq_ok hanswer
  have hstored : ∃ c ∈ s.counts, c.id = new'.count ∧ new'.version ≤ c.currentVersion :=
    ⟨c, hc, hid, Int.le_of_eq hversion.symm⟩
  rcases hcases with ⟨hkey, rfl, rfl⟩ | ⟨old, hold, hkey, hcases⟩
  · refine h.putItem (.single huncounted.consistent hstored (.inr ⟨?_, fun j hj => ?_⟩))
    · exact hnew.mem _ (List.mem_singleton_self _)
    · exact ⟨hnew.item_ne (List.mem_singleton_self _) hj, hkey j hj⟩
  have hplace : ∃ c ∈ s.counts, c.id = old.count ∧ old.version ≤ c.currentVersion :=
    h.item_stored old hold
  rcases hcases with ⟨hnone, rfl, rfl⟩ | ⟨counted, report, hcounted, hwith, hreport, rfl⟩
  · refine h.putItem (.single ?_ hplace (.inl ⟨old, hold, rfl, rfl⟩))
    have hconsistent := (h.consistent old hold).of_none hnone
    unfold Item.Consistent refresh
    rw [hnone]
    exact hconsistent
  · have hconsistent : i.Consistent := Item.consistent_of_withCounted hwith
    obtain ⟨hiid, hikey, -, -⟩ := Item.withCounted_same hwith
    have hid' : old.id = i.id := hiid.symm
    have hkey' : old.key = i.key := hikey.symm
    have hchange : Next new s (s.changeReport i (.ofReport? report)) := by
      refine h.changeReport fun r hr => ?_
      rcases hconsistent.report?_cases hreport with ⟨-, q, rfl, hdescribes, hqid, -⟩ | ⟨-, rfl⟩
      · cases hr
        have hmem : r.id ∈ supply.ids s.demand := hqid ▸ Supply.id_mem_ids (Nat.succ_pos _)
        refine ⟨hsupply.mem _ hmem, ⟨old, hold, ?_⟩, fun q hq => hsupply.report_ne hmem hq⟩
        rw [hdescribes.subject, Item.subject_eq_of_key hid' hkey']
      · cases hr
    refine hchange.trans (hchange.sound.putItem (.single hconsistent ?_ (.inl ⟨old, ?_, hid', hkey'⟩)))
    · rw [changeReport_counts]
      simp only [Item.key, Item.Key.mk.injEq] at hkey'
      rw [← hkey'.1, ← hkey'.2.2.2]
      exact hplace
    · rw [changeReport_items]
      exact hold

theorem Sound.insertItem {new' i : Item} (h : s.Sound)
    (hfits : new'.Uncounted ∧ s.AreNew new [new'.id])
    (hanswer : s.insertItem new' = .ok (i, s')) : Next new s s' := by
  obtain ⟨huncounted, hnew⟩ := hfits
  obtain ⟨c, hc, hid, -, hversion, hkey, rfl, rfl⟩ := insertItem_eq_ok hanswer
  refine h.putItem (.single huncounted.consistent ⟨c, hc, hid, Int.le_of_eq hversion.symm⟩ (.inr ⟨?_, ?_⟩))
  · exact hnew.mem _ (List.mem_singleton_self _)
  · exact fun j hj => ⟨hnew.item_ne (List.mem_singleton_self _) hj, hkey j hj⟩

/-- A counted item that fits takes the place of the one that is there. -/
theorem FitsRecord.next {stored : Item} {change : ReportChange} {now : Time}
    (hfits : FitsRecord s new i change) (h : s.Sound) (hstored : stored ∈ s.items)
    (hid : stored.id = i.id) : Next new s (s.putItem { i with updatedAt := now }) := by
  have hkey := hfits.key stored hstored hid
  refine h.putItem (.single hfits.consistent ?_ (.inl ⟨stored, hstored, hid, hkey⟩))
  obtain ⟨d, hd, hdid, hversion⟩ := h.item_stored stored hstored
  simp only [Item.key, Item.Key.mk.injEq] at hkey
  exact ⟨d, hd, hdid.trans hkey.1, hkey.2.2.2 ▸ hversion⟩

theorem Sound.recordItem {new' i : Item} {change : ReportChange} {now : Time} (h : s.Sound)
    (hfits : FitsRecord s new new' change)
    (hanswer : s.recordItem new' change now = .ok (i, s')) : Next new s s' := by
  obtain ⟨stored, hstored, hid, -, -, -, -, -, -, rfl, rfl⟩ := recordItem_eq_ok hanswer
  have hput : Next new s (s.putItem { new' with updatedAt := now }) := hfits.next h hstored hid
  refine hput.trans (hput.sound.changeReport fun r hr => ?_)
  obtain ⟨id, created, report, hnew, hreport, rfl⟩ := hfits.report
  rcases hfits.consistent.report?_cases hreport with ⟨-, q, rfl, hdescribes, hqid, -⟩ | ⟨-, rfl⟩
  · cases hr
    refine ⟨hqid ▸ hnew.mem _ (List.mem_singleton_self _), ?_, fun p hp => ?_⟩
    · exact ⟨_, mem_putBy_self, hdescribes.subject.symm⟩
    · exact hqid ▸ hnew.report_ne (List.mem_singleton_self _) hp
  · cases hr

/-- A sound store that answers a call that fits stays sound. -/
theorem Sound.answer {call : CountCall} {result} (h : s.Sound) (hfits : s.Fits new call)
    (hsupply : s.AreNew new (supply.ids s.demand))
    (hanswer : s.answer supply (.counts call) = .ok (result, s')) : Next new s s' := by
  cases call with
  | create new' =>
    cases hanswer
    have hmem : supply.id 0 ∈ supply.ids s.demand := Supply.id_mem_ids (Nat.succ_pos _)
    have hsame : Next new s { s with sequence := s.sequence + 1 } := h.next_of_same rfl rfl rfl
    refine hsame.trans (hsame.sound.putCount (.inl ⟨hsupply.mem _ hmem, ?_⟩))
    exact fun d hd => hsupply.count_ne hmem hd
  | change tenant id t => exact h.change hfits hsupply hanswer
  | delete tenant id allowed =>
    obtain ⟨c, -, -, -, -, rfl⟩ := deleteCount_eq_ok hanswer
    exact h.deleteCount id
  | upsertItem i => exact h.upsertItem hfits hsupply hanswer
  | insertItem i => exact h.insertItem hfits hanswer
  | recordItem i change => exact h.recordItem hfits hanswer
  | saveReport r =>
    obtain ⟨⟨old, hold, hid⟩, rfl, rfl⟩ := saveReport_eq_ok hanswer
    exact h.saveReport ⟨old, hold, hid, hfits old hold hid⟩
  | addAttempt a =>
    cases hanswer
    exact h.next_of_same rfl rfl rfl
  | _ =>
    cases hanswer
    exact .refl h

end Store
end Recount
