import Recount.Proofs.Concurrent.Ledger
import Recount.Proofs.Concurrent.Replay
import Recount.Proofs.Store.Settled

/-!
# Settling a version

When a version is settled, each of its items has the quantity that was last recorded
of it and acknowledged, or else the one that it was carried over with, or else zero. From
then on nothing is written to the version, however late a call comes to the store.
-/

namespace Recount

namespace Store

variable {s : Store} {new : List Id} {supply : Supply} {call : CountCall} {i : Item}

/-- A write of an item is refused if its count does not accept items in its version. -/
theorem Sound.answer_refused (hfits : s.Fits new call) (hwrites : call.writes? = some i)
    (hclosed : ∀ c ∈ s.counts, c.id = i.count → c.status.acceptsItems = true →
      c.currentVersion ≠ i.version) :
    ∃ e, s.answer supply (.counts call) = .error (.refused e) := by
  have hcheck : ∃ e, s.checkWritable i.count i.version = .error e := by
    cases hcheck : s.checkWritable i.count i.version with
    | error e => exact ⟨e, rfl⟩
    | ok _ =>
      obtain ⟨c, hc, hid, haccepts, hversion⟩ := checkWritable_eq_ok hcheck
      exact absurd hversion (hclosed c hc hid haccepts)
  obtain ⟨e, he⟩ := hcheck
  cases call with
  | upsertItem new' =>
    cases hwrites
    refine ⟨e, ?_⟩
    change s.upsertItem i supply = _
    unfold Store.upsertItem
    rw [he]
    rfl
  | insertItem new' =>
    cases hwrites
    refine ⟨e, ?_⟩
    change s.insertItem i = _
    unfold Store.insertItem
    rw [he]
    rfl
  | recordItem new' change =>
    cases hwrites
    have hrecord : FitsRecord s new i change := hfits
    change ∃ e, s.recordItem i change (supply.time 0) = _
    unfold Store.recordItem
    cases hstored : s.item? i.count i.id with
    | none => exact ⟨_, rfl⟩
    | some stored =>
      obtain ⟨hmem, hid, -⟩ := item?_eq_some hstored
      have hversion : stored.version = i.version := congrArg Item.Key.version (hrecord.key stored hmem hid)
      rw [← hversion] at he
      refine ⟨e, ?_⟩
      dsimp only
      rw [he]
      rfl
  | _ => cases hwrites

/-- A call that is refused is answered with its error and leaves the store as it is. -/
theorem step_refused {call : StoreCall} {e : Error}
    (h : s.answer supply call = .error (.refused e)) : s.step supply call = (.ok (.error e), s) := by
  unfold step
  rw [h]

end Store

namespace Concurrent

open Store

variable {sources : Loading.Sources} {w w' w'' : World} {n : Nat} {count : Id} {version : Int}
  {qty : Id → Option Decimal}

/-- A version of a count was settled, and its items have certain quantities. -/
structure World.Past (count : Id) (version : Int) (qty : Id → Option Decimal) (w : World) :
    Prop where
  drawn : count ∈ w.drawn
  ended : ∀ c ∈ w.store.counts, c.id = count →
    version < c.currentVersion ∨ (c.currentVersion = version ∧ c.status.isUnderWay = false)
  kept : ∀ i ∈ w.store.items, i.count = count → i.version = version → i.countedQty = qty i.id

/-- A count that accepts items again has left the version behind. -/
theorem World.Past.lt_of_acceptsItems (h : w.Past count version qty) {c : Count}
    (hc : c ∈ w.store.counts) (hid : c.id = count) (haccepts : c.status.acceptsItems = true) :
    version < c.currentVersion := by
  rcases h.ended c hc hid with hlt | ⟨-, hover⟩
  · exact hlt
  · rw [isUnderWay_of_acceptsItems haccepts] at hover
    cases hover

section Advance

variable {new : List Id} {supply : Supply} {s' : Store} {call : CountCall} {result : call.Result}

/-- A version that has ended is never under way again. -/
theorem World.Sound.ended_next (h : w.Sound) (hdrawn : count ∈ w.drawn)
    (hended : w.store.Ended count version) (hfits : w.store.Fits new call)
    (hfresh : Fresh w.drawn supply w.store.demand)
    (hanswer : w.store.answer supply (.counts call) = .ok (result, s')) :
    s'.Ended count version := by
  intro d hd hid
  have hcounts := answer_counts hanswer
  generalize s'.counts = after at hcounts hd
  cases hcounts with
  | same => exact hended d hd hid
  | created new' =>
    rcases (mem_putBy_iff h.store.counts_nodup).mp hd with rfl | ⟨hd, -⟩
    · have hmem : supply.id 0 ∈ supply.ids w.store.demand := Supply.id_mem_ids (Nat.succ_pos _)
      have hid' : supply.id 0 = count := hid
      exact absurd (hid' ▸ hdrawn) (hfresh.2 _ hmem)
    · exact hended d hd hid
  | @changed c tenant count' t hc _ _ hstatus hexpected _ =>
    rcases (mem_putBy_iff h.store.counts_nodup).mp hd with rfl | ⟨hd, -⟩
    · rw [StatusChange.apply_id] at hid
      rw [StatusChange.apply_currentVersion, StatusChange.apply_status]
      rcases hended c hc hid with hlt | ⟨heq, hover⟩
      · left
        split <;> omega
      · have hunder : t.settles = true → c.status ∈ t.change.expected →
            c.status.isUnderWay = true :=
          fun hsettles => FitsChange.isUnderWay_of_settles hfits hsettles
        cases hfits with
        | stage change version' actor hchange =>
          refine .inr ⟨(Int.add_zero _).trans heq, Bool.eq_false_iff.mpr fun hunder => ?_⟩
          rw [isUnderWay_of_stageChange hchange hunder hstatus] at hover
          cases hover
        | completion version' actor =>
          rw [hunder rfl hstatus] at hover
          cases hover
        | recount version' actor =>
          left
          rw [heq]
          exact Int.lt_succ version
    · exact hended d hd hid
  | deleted => exact hended d (List.mem_of_mem_filter hd) hid

theorem World.Sound.ended_advance (h : w.Sound) (hdrawn : count ∈ w.drawn)
    (hended : w.store.Ended count version) (hadvance : Advance n w w') :
    w'.store.Ended count version := by
  rcases h.advance_cases hadvance with ⟨call, result, new, supply, hmakes⟩ | hrests
  · exact h.ended_next hdrawn hended hmakes.fits hmakes.fresh hmakes.answer
  · unfold Ended
    rw [hrests.counts]
    exact hended

/-- The items of a version that is past keep their quantities. -/
theorem World.Past.kept_next (h : w.Past count version qty) (hsound : w.Sound)
    (hfits : w.store.Fits new call) (hsupply : w.store.AreNew new (supply.ids w.store.demand))
    (hanswer : w.store.answer supply (.counts call) = .ok (result, s')) {j : Item}
    (hj : j ∈ s'.items) (hcount : j.count = count) (hversion : j.version = version) :
    j.countedQty = qty j.id := by
  -- Nothing is written to the version.
  have hwritten : ∀ i, call.writes? = some i → i.count = count → i.version ≠ version := by
    rintro i hwrites hicount rfl
    have hrefused : ∃ e, w.store.answer supply (.counts call) = .error (.refused e) :=
      Sound.answer_refused hfits hwrites fun c hc hid haccepts =>
        Int.ne_of_gt (h.lt_of_acceptsItems hc (hid.trans hicount) haccepts)
    obtain ⟨e, he⟩ := hrefused
    rw [hanswer] at he
    cases he
  cases hsound.store.origin hfits hsupply hanswer hj with
  | @kept _ i hi hid hkey hqty hnot =>
    simp only [Item.key, Item.Key.mk.injEq] at hkey
    rw [hqty, ← hid]
    exact h.kept i hi (hkey.1.trans hcount) (hkey.2.2.2.trans hversion)
  | upserted => exact absurd hversion (hwritten j rfl hcount)
  | inserted => exact absurd hversion (hwritten j rfl hcount)
  | @recorded i change hid hkey hqty =>
    simp only [Item.key, Item.Key.mk.injEq] at hkey
    exact absurd (hkey.2.2.2.symm.trans hversion) (hwritten i rfl (hkey.1.symm.trans hcount))
  | @settled tenant id t old hsettles hold hid hkey hcount' hversion' hqty =>
    obtain ⟨c, hc, hcid, -, hstatus, hexpected, -⟩ := change_eq_ok hanswer
    simp only [Item.key, Item.Key.mk.injEq] at hkey
    have hsame : c.id = count := hcid.trans (hcount'.symm.trans (hkey.1.trans hcount))
    have hcurrent : c.currentVersion = version :=
      hexpected.trans (hversion'.symm.trans (hkey.2.2.2.trans hversion))
    have hunder := FitsChange.isUnderWay_of_settles hfits hsettles hstatus
    rcases h.ended c hc hsame with hlt | ⟨-, hover⟩
    · exact absurd hcurrent (Int.ne_of_gt hlt)
    · rw [hunder] at hover
      cases hover
  | @carried tenant id t i hi hid hkey hqty =>
    obtain ⟨c, hc, hcid, -, -, hexpected, -⟩ := change_eq_ok hanswer
    obtain ⟨hicount, hiversion⟩ := FitsChange.newItems_place hfits hi
    simp only [Item.key, Item.Key.mk.injEq] at hkey
    have hsame : c.id = count := hcid.trans (hicount.symm.trans (hkey.1.symm.trans hcount))
    have hlater : version = c.currentVersion + 1 := by
      rw [hexpected, ← hiversion, ← hkey.2.2.2, hversion]
    rcases h.ended c hc hsame with hlt | ⟨heq, -⟩ <;> omega

theorem World.Past.advance (h : w.Past count version qty) (hsound : w.Sound)
    (hadvance : Advance n w w') : w'.Past count version qty := by
  refine ⟨hadvance.drawn_subset count h.drawn, hsound.ended_advance h.drawn h.ended hadvance, ?_⟩
  rcases hsound.advance_cases hadvance with ⟨call, result, new, supply, hmakes⟩ | hrests
  · exact fun j hj => h.kept_next hsound hmakes.fits hmakes.areNew hmakes.answer hj
  · exact fun i hi => h.kept i (hrests.items ▸ hi)

/-- A version that is past stays past, whatever happens. -/
theorem World.Past.later (h : w.Past count version qty) (hw : Reachable sources nobody w)
    (hlater : Relation.ReflTransGen (Step sources nobody) w w') :
    w'.Past count version qty ∧ Reachable sources nobody w' := by
  induction hlater with
  | refl => exact ⟨h, hw⟩
  | tail _ hstep ih =>
    obtain ⟨hpast, hreach⟩ := ih
    refine ⟨?_, hreach.tail hstep⟩
    cases hstep with
    | begin t ht => exact ⟨hpast.drawn, hpast.ended, hpast.kept⟩
    | advance hadvance => exact hpast.advance hreach.sound hadvance
    | whole t ht => exact ht.elim

end Advance

/-- The count and the version that an exchange settled. -/
def settled? : Exchange → Option (Id × Int)
  | ⟨.store (.counts (.change _ count t)), .ok c⟩ =>
    if t.settles then some (count, c.currentVersion) else none
  | _ => none

theorem settled?_eq_some {e : Exchange} (h : settled? e = some (count, version)) :
    ∃ tenant t c, e = ⟨.store (.counts (.change tenant count t)), .ok c⟩ ∧ t.settles = true ∧
      c.currentVersion = version := by
  unfold settled? at h
  split at h
  · next tenant count' t c =>
    split at h
    · next hsettles =>
      cases h
      exact ⟨tenant, t, c, rfl, hsettles, rfl⟩
    · cases h
  · cases h

/-- The version that was just settled is past, and its items have the quantities that were
acknowledged before, or zero. -/
theorem World.Faithful.past_of_settled (h : w.Faithful) (hadvance : Advance n w w') {e : Exchange}
    (hlog : w'.log = e :: w.log) (hsettled : settled? e = some (count, version)) :
    (w'.Past count version fun id => some ((acknowledged w.log id).getD .zero)) ∧
      ∃ c ∈ w'.store.counts, c.id = count ∧ c.currentVersion = version := by
  obtain ⟨tenant, t, c', rfl, hsettles, rfl⟩ := settled?_eq_some hsettled
  have hdrawn := hadvance.drawn_subset
  rcases h.sound.advance_cases hadvance with ⟨call, result, new, supply, hmakes⟩ | hrests
  swap
  · exact (hrests.ne_of_log hlog (.change tenant count t) c' rfl).elim
  cases (List.cons.inj (hlog.symm.trans hmakes.log)).1
  have hfits := hmakes.fits
  have hanswer := hmakes.answer
  obtain ⟨c, hc, hcid, -, hstatus, hexpected, -⟩ := change_eq_ok hanswer
  obtain ⟨hc', hid', hcurrent, hover⟩ := h.sound.store.over_of_settles hfits hsettles hanswer
  refine ⟨⟨?drawn, ?ended, ?kept⟩, c', hc', hid', rfl⟩
  case drawn => exact hdrawn count (hcid ▸ (h.sound.known _ (count_id_mem_ids hc)).1)
  case ended =>
    intro d hd hdid
    obtain ⟨rfl, hunder⟩ := hover d hd hdid
    exact .inr ⟨rfl, hunder⟩
  case kept =>
    intro j hj hcount hversion
    have hexpected' : j.version = t.change.expectedVersion := hversion.trans hcurrent
    cases h.sound.store.origin hfits hmakes.areNew hanswer hj with
    | kept hi hid hkey hqty hnot => exact absurd (.inl ⟨hsettles, hcount, hexpected'⟩) hnot
    | @settled _ _ _ old _ hold hid hkey hcount' hversion' hqty =>
      have hunder := FitsChange.isUnderWay_of_settles hfits hsettles hstatus
      have hacknowledged := h.quantities c hc hunder old hold (hcount'.trans hcid.symm)
        (hversion'.trans hexpected.symm)
      rw [hqty, hacknowledged, hid]
    | @carried _ _ _ i hi hid hkey hqty =>
      obtain ⟨-, hlater⟩ := FitsChange.newItems_place hfits hi
      simp only [Item.key, Item.Key.mk.injEq] at hkey
      omega

/-- However the tasks of all users interleave, completing a version loses no quantity that was
acknowledged: each item of the version ends with the quantity of the last record of it, or else with
the one that it was carried over with, or else with zero. A write of an item that comes to the store
later is refused and changes nothing, unless it is for a version that was opened since. -/
theorem settlement_keeps_quantities (hw : Reachable sources nobody w) (hadvance : Advance n w w')
    {e : Exchange} (hlog : w'.log = e :: w.log) (hsettled : settled? e = some (count, version))
    (hlater : Relation.ReflTransGen (Step sources nobody) w' w'') :
    (∀ i ∈ w''.store.items, i.count = count → i.version = version →
      i.countedQty =
        some (((lastRecorded w.log i.id).or (carriedOver w.log i.id)).getD .zero)) ∧
    ∀ work ∈ w''.works, ∀ call next i, work.rest = .ask (.store (.counts call)) next →
      call.writes? = some i → i.count = count →
      i.version ≤ version ∨ recounts w''.log count = recounts w'.log count →
      ∀ supply, ∃ error,
        w''.store.step supply (.counts call) = (.ok (.error error), w''.store) := by
  have hw' : Reachable sources nobody w' := hw.tail (.advance hadvance)
  obtain ⟨hpast', c', hc', hid', hcurrent⟩ := hw.faithful.past_of_settled hadvance hlog hsettled
  obtain ⟨hpast, hw''⟩ := hpast'.later hw' hlater
  refine ⟨hpast.kept, fun work hmem call next i hrest hwrites hcount hversion supply => ?_⟩
  obtain ⟨m, hwork⟩ := List.mem_iff_getElem?.mp hmem
  have hfits := hw''.sound.fits hmem (hw''.sound.allowed hwork hrest)
    fun id (hid : id ∈ recentIds work.past) => hid
  have hrefused : ∃ error, w''.store.answer supply (.counts call) = .error (.refused error) := by
    refine Sound.answer_refused hfits hwrites fun c hc hid haccepts hsame => ?_
    have hlt := hpast.lt_of_acceptsItems hc (hid.trans hcount) haccepts
    rcases hversion with hle | hrecounts
    · omega
    · have hbefore := hw'.faithful.versions c' hc'
      have hnow := hw''.faithful.versions c hc
      rw [hid', hcurrent] at hbefore
      rw [hid, hcount] at hnow
      omega
  exact hrefused.imp fun error => step_refused

/-- A quantity of five is recorded, another task is about to record seven, and a third one is about
to complete the count. -/
def lateRecord : List Move :=
  [.begin newCount, goIn 1 0, .begin (newItem "A" none), goIn 2 1, goIn 3 1, goIn 4 1, goIn 5 1,
    .begin (newQuantity 4000 5), .begin (newQuantity 4000 7),
    .begin (.completeCount (.ofNat 1) (.ofNat 1000) (.ofNat 3)), goIn 6 2, goIn 7 3, goIn 8 2,
    goIn 9 3, goIn 10 2, goIn 11 2, goIn 12 2, goIn 13 2, goIn 14 3, goIn 15 3, goIn 16 3,
    goIn 17 4]

/-- The item that a task is about to write. -/
def Work.writes? (work : Work) : Option Item :=
  match work.rest with
  | .ask (.store (.counts call)) _ => call.writes?
  | _ => none

theorem Work.writes?_eq_some {work : Work} {i : Item} (h : work.writes? = some i) :
    ∃ call next, work.rest = .ask (.store (.counts call)) next ∧ call.writes? = some i := by
  unfold writes? at h
  split at h
  · next call next hrest => exact ⟨call, next, hrest, h⟩
  · cases h

theorem settlement_keeps_quantities_lateRecord :
    ∃ w', Advance 4 (played noSources lateRecord) w' ∧
      (∃ i ∈ w'.store.items, i.countedQty.map Decimal.digits = some 5 ∧ i.countedQty = some
        (((lastRecorded (played noSources lateRecord).log i.id).or
          (carriedOver (played noSources lateRecord).log i.id)).getD .zero)) ∧
      ∃ work ∈ w'.works, ∃ call next, work.rest = .ask (.store (.counts call)) next ∧
        call.writes?.isSome ∧ ∀ supply, ∃ error,
          w'.store.step supply (.counts call) = (.ok (.error error), w'.store) := by
  have hw : Reachable noSources nobody (played noSources lateRecord) :=
    played_reachable fun _ _ h => h
  have hmove : ((played noSources lateRecord).move? noSources (goIn 18 4)).any (fun w' =>
      w'.log.length = (played noSources lateRecord).log.length + 1 ∧
      w'.log.head?.bind settled? = some (.ofNat 1000, 1) ∧
      (∃ i ∈ w'.store.items, i.count = .ofNat 1000 ∧ i.version = 1 ∧
        i.countedQty.map Decimal.digits = some 5) ∧
      ∃ work ∈ w'.works, work.writes?.any fun i => i.count = .ofNat 1000 ∧ i.version ≤ 1) := by
    decide +kernel
  obtain ⟨w', hw', hchecked⟩ := (Option.any_eq_true _ _).mp hmove
  simp only [decide_eq_true_eq] at hchecked
  obtain ⟨hlength, hsettled, ⟨i, hi, hcount, hversion, hqty⟩, work, hwork, hwrites⟩ := hchecked
  have hadvance : Advance 4 (played noSources lateRecord) w' := World.move?_advance hw'
  rcases hadvance.log_cases with hsame | ⟨e, hlog⟩
  · rw [hsame] at hlength
    omega
  obtain ⟨j, hj, hjcount⟩ := (Option.any_eq_true _ _).mp hwrites
  obtain ⟨call, next, hrest, hcall⟩ := Work.writes?_eq_some hj
  simp only [decide_eq_true_eq] at hjcount
  rw [hlog] at hsettled
  obtain ⟨hkept, hrefused⟩ := settlement_keeps_quantities hw hadvance hlog hsettled .refl
  refine ⟨w', hadvance, ⟨i, hi, hqty, hkept i hi hcount hversion⟩, work, hwork, call, next, hrest, ?_, ?_⟩
  · exact hcall ▸ rfl
  · exact hrefused work hwork call next j hrest hcall hjcount.1 (.inl hjcount.2)

end Concurrent
end Recount
