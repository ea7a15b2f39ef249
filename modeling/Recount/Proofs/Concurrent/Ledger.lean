import Recount.Proofs.Concurrent.Sound
import Recount.Proofs.Store.Origins

/-!
# What the log says of quantities

From the log of all calls one can read what was acknowledged: the quantity that was
last recorded of an item, the one that it was carried into its version with, and how
often a count was opened again. As long as a version is under way, its items have just
the quantities that were acknowledged, and a count is in the version that its recounts
lead to.
-/

namespace Recount.Concurrent

open Store

variable {w w' : World} {n : Nat} {id count : Id} {e : Exchange} {log : List Exchange}

/-- The quantity of an item that an exchange recorded. -/
def recorded? (id : Id) : Exchange → Option Decimal
  | ⟨.store (.counts (.recordItem i _)), .ok _⟩ => if i.id = id then i.countedQty else none
  | _ => none

/-- The quantity that an exchange carried into the next version with an item. -/
def carried? (id : Id) : Exchange → Option Decimal
  | ⟨.store (.counts (.change _ _ t)), .ok _⟩ =>
    (t.newItems.find? (·.id = id)).bind Item.countedQty
  | _ => none

/-- The quantity of an item that was recorded last, by the log with the latest exchange first. -/
def lastRecorded (log : List Exchange) (id : Id) : Option Decimal := log.findSome? (recorded? id)

/-- The quantity that an item was carried into its version with. -/
def carriedOver (log : List Exchange) (id : Id) : Option Decimal := log.findSome? (carried? id)

/-- The quantity that an item should have: what was recorded last, or else what it began with. -/
def acknowledged (log : List Exchange) (id : Id) : Option Decimal :=
  (lastRecorded log id).or (carriedOver log id)

/-- An exchange opened the next version of a count. -/
def isRecount (count : Id) : Exchange → Bool
  | ⟨.store (.counts (.change _ id t)), .ok _⟩ => id = count && t.change.opensVersion
  | _ => false

/-- How often a count was opened again. -/
def recounts (log : List Exchange) (count : Id) : Nat := log.countP (isRecount count)

section Reading

theorem acknowledged_cons (hrecorded : recorded? id e = none) (hcarried : carried? id e = none) :
    acknowledged (e :: log) id = acknowledged log id := by
  unfold acknowledged lastRecorded carriedOver
  rw [List.findSome?_cons, List.findSome?_cons, hrecorded, hcarried]

/-- A quantity was acknowledged before, or it is acknowledged now. -/
theorem acknowledged_cons_cases (h : acknowledged (e :: log) id ≠ none) :
    acknowledged log id ≠ none ∨ recorded? id e ≠ none ∨ carried? id e ≠ none := by
  by_contra hnone
  simp only [not_or, not_not] at hnone
  obtain ⟨hlog, hrecorded, hcarried⟩ := hnone
  exact h ((acknowledged_cons hrecorded hcarried).trans hlog)

theorem acknowledged_of_recorded {qty : Decimal} (h : recorded? id e = some qty) :
    acknowledged (e :: log) id = some qty := by
  unfold acknowledged lastRecorded
  rw [List.findSome?_cons, h]
  rfl

theorem acknowledged_of_carried (hnone : acknowledged log id = none)
    (hrecorded : recorded? id e = none) : acknowledged (e :: log) id = carried? id e := by
  obtain ⟨hlast, hover⟩ := Option.or_eq_none_iff.mp hnone
  unfold lastRecorded at hlast
  unfold carriedOver at hover
  unfold acknowledged lastRecorded carriedOver
  rw [List.findSome?_cons, List.findSome?_cons, hrecorded, hlast, hover]
  cases carried? id e <;> rfl

/-- Only an answered call acknowledges something. -/
theorem nothing_of_refused {call : StoreCall} {error : Error} :
    recorded? id ⟨.store call, .error error⟩ = none ∧ carried? id ⟨.store call, .error error⟩ = none ∧
      isRecount count ⟨.store call, .error error⟩ = false := by
  cases call with
  | counts call => cases call <;> exact ⟨rfl, rfl, rfl⟩
  | mappings call => exact ⟨rfl, rfl, rfl⟩

theorem nothing_of_mappings {call : MappingCall} {result} :
    recorded? id ⟨.store (.mappings call), result⟩ = none ∧
      carried? id ⟨.store (.mappings call), result⟩ = none ∧
      isRecount count ⟨.store (.mappings call), result⟩ = false :=
  ⟨rfl, rfl, rfl⟩

/-- A call acknowledges no quantity of an item that it does not quantify. -/
theorem acknowledged_cons_of_not {call : CountCall} {result : call.Result} {i : Item}
    (h : ¬ call.Quantifies i) :
    acknowledged (⟨.store (.counts call), .ok result⟩ :: log) i.id = acknowledged log i.id := by
  cases call with
  | recordItem j change => exact acknowledged_cons (if_neg h) rfl
  | change tenant count t =>
    refine acknowledged_cons rfl ?_
    have hfind : t.newItems.find? (·.id = i.id) = none := by
      rw [List.find?_eq_none]
      intro j hj hid
      exact h (.inr ⟨j, hj, by simpa using hid⟩)
    change (t.newItems.find? (·.id = i.id)).bind Item.countedQty = none
    rw [hfind]
    rfl
  | _ => exact acknowledged_cons rfl rfl

end Reading

/-- The store is as the log says. -/
structure World.Faithful (w : World) : Prop where
  sound : w.Sound
  quantities : ∀ c ∈ w.store.counts, c.status.isUnderWay = true → ∀ i ∈ w.store.items,
    i.count = c.id → i.version = c.currentVersion → i.countedQty = acknowledged w.log i.id
  known : ∀ id, acknowledged w.log id ≠ none → w.Knows id
  versions : ∀ c ∈ w.store.counts, c.currentVersion = 1 + recounts w.log c.id
  opened : ∀ id, recounts w.log id ≠ 0 → id ∈ w.drawn

theorem World.Faithful.empty : World.Faithful {} where
  sound := .empty
  quantities _ hc := absurd hc List.not_mem_nil
  known _ h := absurd rfl h
  versions _ hc := absurd hc List.not_mem_nil
  opened _ h := absurd rfl h

theorem World.Faithful.begin {sources : Loading.Sources} {t : Task} (h : w.Faithful) :
    (w.begin sources t).Faithful where
  sound := h.sound.begin
  quantities := h.quantities
  known id hid := (h.known id hid).begin
  versions := h.versions
  opened := h.opened

section Advance

variable {work : Work} {rest : Program Request Request.Answer Unit} {s s' : Store}
  {drawn new : List Id}

/-- An exchange that neither acknowledges a quantity nor changes an item or a count. -/
theorem World.Faithful.quiet (h : w.Faithful) (hwork : w.works[n]? = some work)
    (hsound : (w.answered n work e rest s drawn).Sound) (hdraws : Draws w work e drawn new)
    (hcounts : s.counts = w.store.counts) (hitems : s.items = w.store.items)
    (hnothing : ∀ id, recorded? id e = none ∧ carried? id e = none ∧ isRecount id e = false) :
    (w.answered n work e rest s drawn).Faithful := by
  have hlog : ∀ id, acknowledged (e :: w.log) id = acknowledged w.log id := fun id =>
    acknowledged_cons (hnothing id).1 (hnothing id).2.1
  have hrecounts : ∀ id, recounts (e :: w.log) id = recounts w.log id := fun id =>
    List.countP_cons_of_neg (by simp [(hnothing id).2.2])
  constructor
  · exact hsound
  · intro c hc hunder i hi hcount hversion
    exact (h.quantities c (hcounts ▸ hc) hunder i (hitems ▸ hi) hcount hversion).trans
      (hlog i.id).symm
  · exact fun id hid => hdraws.knows hwork (h.known id (hlog id ▸ hid))
  · intro c hc
    rw [h.versions c (hcounts ▸ hc)]
    exact congrArg (fun k : Nat => (1 : Int) + k) (hrecounts c.id).symm
  · exact fun id hid => hdraws.grows id (h.opened id (hrecounts id ▸ hid))

/-- Nothing was acknowledged of an item that a task has yet to enter. -/
theorem World.Faithful.acknowledged_eq_none (h : w.Faithful) (hmem : work ∈ w.works)
    (hid : id ∈ recentIds work.past) : acknowledged w.log id = none := by
  by_contra hknown
  exact (h.known id hknown).2 work hmem hid

variable {supply : Supply} {call : CountCall} {result : call.Result}

/-- After a call, the items of a version under way have the quantities that were acknowledged. -/
theorem World.Faithful.quantities_next (h : w.Faithful) (hmem : work ∈ w.works)
    (hallowed : Allowed work.task work.past (.store (.counts call)))
    (hfresh : Fresh w.drawn supply w.store.demand)
    (hanswer : w.store.answer supply (.counts call) = .ok (result, s')) {d : Count}
    (hd : d ∈ s'.counts) (hunder : d.status.isUnderWay = true) {j : Item} (hj : j ∈ s'.items)
    (hcount : j.count = d.id) (hversion : j.version = d.currentVersion) :
    j.countedQty = acknowledged (⟨.store (.counts call), .ok result⟩ :: w.log) j.id := by
  have hfits := h.sound.fits_call hmem hallowed supply
  have hfounded : (∀ r, call ≠ .saveReport r) → Founded work.past (.store (.counts call)) := by
    intro hcall
    rcases hallowed with hfounded | ⟨-, r, heq, -⟩
    · exact hfounded
    · cases heq
      exact absurd rfl (hcall r)
  have hentered : j.Uncounted ∧ j.id ∈ recentIds work.past → ¬ call.Quantifies j →
      j.countedQty = acknowledged (⟨.store (.counts call), .ok result⟩ :: w.log) j.id := by
    rintro ⟨huncounted, hid⟩ hnot
    rw [acknowledged_cons_of_not hnot, h.acknowledged_eq_none hmem hid, huncounted.countedQty]
  cases h.sound.store.origin hfits (h.sound.areNew_supply hfresh) hanswer hj with
  | @kept _ i hi hid hkey hqty hnot =>
    simp only [Item.key, Item.Key.mk.injEq] at hkey
    have hicount : i.count = d.id := hkey.1.trans hcount
    have hiversion : i.version = d.currentVersion := hkey.2.2.2.trans hversion
    obtain ⟨c, hc, hcid, hcversion, hcunder⟩ := h.sound.store.underWay_before hfits
      (h.sound.areNew_supply hfresh) hanswer hd hunder hi hicount hiversion
    rw [acknowledged_cons_of_not hnot, hqty, ← hid]
    exact h.quantities c hc hcunder i hi (hicount.trans hcid.symm) (hiversion.trans hcversion.symm)
  | upserted => exact hentered (hfounded (by simp)) id
  | inserted => exact hentered (hfounded (by simp)) id
  | @recorded i change hid _ hqty =>
    have hrecord : FitsRecord w.store _ i change := hfits
    obtain ⟨qty, hsome⟩ := Option.isSome_iff_exists.mp hrecord.counted
    have hrecorded : recorded? j.id ⟨.store (.counts (.recordItem i change)), .ok result⟩ =
        some qty := by
      rw [hid, ← hsome]
      exact if_pos rfl
    rw [acknowledged_of_recorded hrecorded, hqty, hsome]
  | @settled tenant count t old hsettles hold hid hkey hcount' hversion' hqty =>
    -- The version was settled, so it is not under way.
    obtain ⟨-, -, -, hover⟩ := h.sound.store.over_of_settles hfits hsettles hanswer
    simp only [Item.key, Item.Key.mk.injEq] at hkey
    have hdid : d.id = count := hcount.symm.trans (hkey.1.symm.trans hcount')
    rw [(hover d hd hdid).2] at hunder
    cases hunder
  | @carried tenant count t i hi hid _ hqty =>
    have hchange : FoundedChange work.past count t := hfounded (by simp)
    have hids : t.newItems.map Item.id = (recentIds work.past).reverse := by
      refine hchange.newItems_ids.resolve_left ?_
      rintro hnone
      exact absurd (hnone ▸ hi) List.not_mem_nil
    have hreserve : i.id ∈ recentIds work.past :=
      List.mem_reverse.mp (hids ▸ List.mem_map_of_mem hi)
    have hnodup : (t.newItems.map Item.id).Nodup :=
      hids ▸ List.nodup_reverse.mpr (h.sound.reserve_nodup work hmem)
    rw [hid, acknowledged_of_carried (h.acknowledged_eq_none hmem hreserve) rfl, hqty]
    exact (congrArg (·.bind Item.countedQty) ((find?_id_eq_some_iff hnodup).mpr ⟨hi, rfl⟩)).symm

/-- Quantities are acknowledged of items that are stored. -/
theorem World.Faithful.mem_of_acknowledges (h : w.Faithful) (hmem : work ∈ w.works)
    (hallowed : Allowed work.task work.past (.store (.counts call)))
    (hanswer : w.store.answer supply (.counts call) = .ok (result, s'))
    (hsome : recorded? id ⟨.store (.counts call), .ok result⟩ ≠ none ∨
      carried? id ⟨.store (.counts call), .ok result⟩ ≠ none) : ∃ j ∈ s'.items, j.id = id := by
  have hfits := h.sound.fits_call hmem hallowed supply
  cases call with
  | recordItem i change =>
    rcases hsome with hsome | hsome
    · by_cases hid : i.id = id
      · obtain ⟨j, hj, hjid⟩ := exists_mem_of_recordItem hanswer
        exact ⟨j, hj, hjid.trans hid⟩
      · exact absurd (if_neg hid) hsome
    · exact absurd rfl hsome
  | change tenant count t =>
    rcases hsome with hsome | hsome
    · exact absurd rfl hsome
    · have hfind : t.newItems.find? (·.id = id) ≠ none := fun hnone =>
        hsome (congrArg (·.bind Item.countedQty) hnone)
      obtain ⟨i, hi⟩ := Option.ne_none_iff_exists'.mp hfind
      obtain ⟨j, hj, hjid⟩ :=
        h.sound.store.exists_mem_of_newItems hfits hanswer (List.mem_of_find?_eq_some hi)
      have hid : i.id = id := by simpa using List.find?_some hi
      exact ⟨j, hj, hjid.trans hid⟩
  | _ => rcases hsome with hsome | hsome <;> exact absurd rfl hsome

/-- After a call, every count is in the version that its recounts lead to. -/
theorem World.Faithful.versions_next (h : w.Faithful) (hfresh : Fresh w.drawn supply w.store.demand)
    (hanswer : w.store.answer supply (.counts call) = .ok (result, s')) {d : Count}
    (hd : d ∈ s'.counts) :
    d.currentVersion = 1 + recounts (⟨.store (.counts call), .ok result⟩ :: w.log) d.id := by
  have hcounts := answer_counts hanswer
  generalize s'.counts = after at hcounts hd
  have hsame : (∀ tenant id t, call ≠ .change tenant id t) →
      recounts (⟨.store (.counts call), .ok result⟩ :: w.log) d.id = recounts w.log d.id := by
    intro hnot
    refine List.countP_cons_of_neg ?_
    cases call with
    | change tenant id t => exact absurd rfl (hnot tenant id t)
    | _ => exact Bool.false_ne_true
  cases hcounts with
  | same hnot =>
    rw [hsame fun tenant id t heq => hnot tenant id t (congrArg _ heq)]
    exact h.versions d hd
  | created new' =>
    rw [hsame (by simp)]
    rcases (mem_putBy_iff h.sound.store.counts_nodup).mp hd with rfl | ⟨hd, -⟩
    · -- The identifier is fresh, so nothing was heard of it before.
      have hmem : supply.id 0 ∈ supply.ids w.store.demand := Supply.id_mem_ids (Nat.succ_pos _)
      have hnone : recounts w.log (supply.id 0) = 0 := by
        by_contra hopened
        exact hfresh.2 _ hmem (h.opened _ hopened)
      exact (congrArg (fun k : Nat => (1 : Int) + k) hnone).symm
    · exact h.versions d hd
  | @changed c tenant id t hc hid _ _ _ _ =>
    rw [recounts, List.countP_cons]
    rcases (mem_putBy_iff h.sound.store.counts_nodup).mp hd with rfl | ⟨hd, hne⟩
    · rw [StatusChange.apply_currentVersion, StatusChange.apply_id, h.versions c hc, recounts]
      cases hopens : t.change.opensVersion with
      | false => simp [isRecount, hopens]
      | true =>
        simp [isRecount, hid, hopens]
        omega
    · rw [StatusChange.apply_id, hid] at hne
      rw [h.versions d hd, recounts]
      simp [isRecount, Ne.symm hne]
  | deleted =>
    rw [hsame (by simp)]
    exact h.versions d (List.mem_of_mem_filter hd)

/-- A count that is opened again is stored, so its identifier was drawn. -/
theorem World.Faithful.opened_next (h : w.Faithful)
    (hanswer : w.store.answer supply (.counts call) = .ok (result, s'))
    (hopened : recounts (⟨.store (.counts call), .ok result⟩ :: w.log) id ≠ 0) : id ∈ w.drawn := by
  by_cases hbefore : recounts w.log id = 0
  · rw [recounts, List.countP_cons, ← recounts, hbefore] at hopened
    have hcounts := answer_counts hanswer
    cases call with
    | change tenant count t =>
      generalize s'.counts = after at hcounts
      cases hcounts with
      | same hnot => exact absurd rfl (hnot tenant count t)
      | changed hc hid =>
        have heq : count = id := by
          by_contra hne
          exact hopened (by simp [isRecount, hne])
        exact (h.sound.known _ (hid.trans heq ▸ count_id_mem_ids hc)).1
    | _ => exact absurd rfl hopened
  · exact h.opened id hbefore

theorem World.Faithful.advance (h : w.Faithful) (hadvance : Advance n w w') : w'.Faithful := by
  have hsound := h.sound.advance hadvance
  cases hadvance with
  | @answered work q next answer s' drawn' hwork hrest hanswer =>
    have hmem : work ∈ w.works := List.mem_of_getElem? hwork
    have hallowed := h.sound.allowed hwork hrest
    obtain ⟨new, hdraws, -, -⟩ := h.sound.draws hmem hallowed hanswer
    cases hanswer with
    | @store call answer s' supply hfresh hstep =>
      rcases step_cases hstep with ⟨result, heq, hanswer⟩ | ⟨rfl, hnot⟩
      · cases heq
        cases call with
        | mappings call =>
          obtain ⟨hcounts, hitems, -, -⟩ := answerMappings_eq_ok hanswer
          exact h.quiet hwork hsound hdraws hcounts hitems fun id => nothing_of_mappings
        | counts call =>
          refine ⟨hsound, ?_, fun id hid => ?_, ?_, fun id hid => ?_⟩
          · exact fun c hc hunder i hi =>
              h.quantities_next hmem hallowed hfresh hanswer hc hunder hi
          · rcases acknowledged_cons_cases hid with hid | hid
            · exact hdraws.knows hwork (h.known id hid)
            · obtain ⟨j, hj, rfl⟩ := h.mem_of_acknowledges hmem hallowed hanswer hid
              exact hsound.known _ (item_id_mem_ids hj)
          · exact fun c hc => h.versions_next hfresh hanswer hc
          · exact hdraws.grows id (h.opened_next hanswer hid)
      · cases answer with
        | ok result => exact absurd rfl (hnot result)
        | error e => exact h.quiet hwork hsound hdraws rfl rfl fun id => nothing_of_refused
    | erp answer => exact h.quiet hwork hsound hdraws rfl rfl fun id => ⟨rfl, rfl, rfl⟩
    | freshId hfresh => exact h.quiet hwork hsound hdraws rfl rfl fun id => ⟨rfl, rfl, rfl⟩
    | now time => exact h.quiet hwork hsound hdraws rfl rfl fun id => ⟨rfl, rfl, rfl⟩
  | stopped hwork =>
    exact ⟨hsound, h.quantities, fun id hid => (h.known id hid).stopped hwork _, h.versions, h.opened⟩

end Advance

/-- In every world that is reached, the store is as the log says. -/
theorem Reachable.faithful {sources : Loading.Sources} {alone : Task → Prop}
    (hw : Reachable sources alone w) : w.Faithful :=
  hw.induction .empty (fun _ _ h => h.begin) fun _ _ _ h hadvance => h.advance hadvance

end Recount.Concurrent
