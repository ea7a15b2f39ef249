import Recount.Proofs.Decimal.Value
import Recount.Proofs.Store.Fitting

/-!
# Settled versions

A version has ended when its count has left it behind or is no longer at work on it. Its
items stay as they are then, until the count is deleted. All items of a version that was
settled have a quantity, and their status says whether it is the one of the system.
-/

namespace Recount

/-- The item that a call writes. -/
def CountCall.writes? : CountCall → Option Item
  | .upsertItem i | .insertItem i | .recordItem i _ => some i
  | _ => none

/-- The count that a call deletes. -/
def CountCall.deletes? : CountCall → Option Id
  | .delete _ id _ => some id
  | _ => none

theorem CountCall.deletes?_of_writes? {call : CountCall} {i : Item} (h : call.writes? = some i) :
    call.deletes? = none := by
  cases call <;> first | rfl | cases h

/-- A settled item has a quantity, and is approved if this is the one of the system. -/
def Item.IsSettled (i : Item) : Prop :=
  ∃ counted, i.countedQty = some counted ∧
    i.status = if counted.value = i.systemQty.value then .approved else .variance

theorem Item.isSettled_of_settle {i j : Item} {actor : Id} {now : Time}
    (h : i.settle actor now = .ok j) : j.IsSettled := by
  obtain ⟨-, -, -, hqty, hconsistent, hstatus⟩ := settle_eq_ok h
  obtain ⟨difference, percent, hdifference, -, -, -, hvariance⟩ := hconsistent.of_some hqty
  refine ⟨_, hqty, ?_⟩
  have hzero := Decimal.sub_isZero hdifference
  rw [hstatus, hvariance]
  by_cases heq : (i.countedQty.getD .zero).value = j.systemQty.value
  · rw [if_pos heq, hzero.mpr heq]
    rfl
  · rw [if_neg heq, Bool.eq_false_iff.mpr fun hz => heq (hzero.mp hz)]
    rfl

namespace Store

variable {s s' : Store} {new : List Id} {supply : Supply} {c : Count} {i : Item} {count : Id}
  {version : Int}

/-- A version that its count has left behind, or is no longer at work on. -/
def Ended (s : Store) (count : Id) (version : Int) : Prop :=
  ∀ c ∈ s.counts, c.id = count →
    version < c.currentVersion ∨ (c.currentVersion = version ∧ c.status.isUnderWay = false)

/-- Whether an item belongs to a version is a matter of its key. -/
def ofVersion (count : Id) (version : Int) (i : Item) : Bool :=
  i.count = count && (some version).all (i.version = ·)

theorem ofVersion_eq_false_iff :
    ofVersion count version i = false ↔ (i.count = count → i.version ≠ version) := by
  simp [ofVersion]

theorem ofVersion_congr {j : Item} (h : i.key = j.key) :
    ofVersion count version i = ofVersion count version j := by
  simp only [Item.key, Item.Key.mk.injEq] at h
  simp only [ofVersion, h.1, h.2.2.2]

theorem Sound.itemsOf_putItems {items : List Item} (h : s.Sound) (hitems : s.Accepts new items)
    (hother : ∀ i ∈ items, i.count = count → i.version ≠ version) :
    (s.putItems items).itemsOf count (some version) = s.itemsOf count (some version) := by
  have hout : ∀ i ∈ items, ofVersion count version i = false := fun i hi =>
    ofVersion_eq_false_iff.mpr (hother i hi)
  unfold itemsOf
  rw [putItems_items]
  refine filter_putAll hout fun j hj hid => ?_
  obtain ⟨i, hi, hid⟩ := List.mem_map.mp hid
  exact (ofVersion_congr (hitems.key_eq h hi hj hid.symm)).trans (hout i hi)

/-- A call that writes an item puts one with its key, into the version that its count is at work
on. -/
theorem Sound.items_of_writes {call : CountCall} {result} (h : s.Sound) (hfits : s.Fits new call)
    (hanswer : s.answer supply (.counts call) = .ok (result, s')) (hwrites : call.writes? = some i) :
    (∃ c ∈ s.counts, c.id = i.count ∧ c.status.acceptsItems = true ∧ c.currentVersion = i.version) ∧
      ∃ j, j.key = i.key ∧ (∀ k ∈ s.items, k.id = j.id → k.key = j.key) ∧
        s'.items = putBy Item.id j s.items := by
  have hself : ∀ old ∈ s.items, ∀ k ∈ s.items, k.id = old.id → k.key = old.key := by
    intro old hold k hk hid
    rw [eq_of_id_eq h.items_nodup hk hold hid]
  cases call with
  | upsertItem new' =>
    cases hwrites
    obtain ⟨c, hc, hid, haccepts, hversion, hcases⟩ := upsertItem_eq_ok hanswer
    refine ⟨⟨c, hc, hid, haccepts, hversion⟩, ?_⟩
    rcases hcases with ⟨-, -, rfl⟩ | ⟨old, hold, hkey, ⟨-, hrefreshed, rfl⟩ |
      ⟨_, _, _, hwith, _, rfl⟩⟩
    · exact ⟨i, rfl, fun k hk hid => absurd hid (hfits.2.item_ne (List.mem_singleton_self _) hk), rfl⟩
    · exact ⟨result.1, hrefreshed ▸ hkey, hrefreshed ▸ hself old hold, rfl⟩
    · obtain ⟨hiid, hikey, -, -⟩ := Item.withCounted_same hwith
      refine ⟨_, hikey.trans hkey, fun k hk hid => ?_, ?_⟩
      · exact (hself old hold k hk (hid.trans hiid)).trans hikey.symm
      · exact congrArg (putBy Item.id _) changeReport_items
  | insertItem new' =>
    cases hwrites
    obtain ⟨c, hc, hid, haccepts, hversion, -, -, rfl⟩ := insertItem_eq_ok hanswer
    refine ⟨⟨c, hc, hid, haccepts, hversion⟩, i, rfl, fun k hk hid => ?_, rfl⟩
    exact absurd hid (hfits.2.item_ne (List.mem_singleton_self _) hk)
  | recordItem new' change =>
    cases hwrites
    obtain ⟨stored, hstored, hid, -, c, hc, hcid, haccepts, hversion, rfl, rfl⟩ :=
      recordItem_eq_ok hanswer
    have hkey := hfits.key stored hstored hid
    refine ⟨⟨c, hc, hcid, haccepts, hversion.trans (congrArg Item.Key.version hkey)⟩, ?_⟩
    exact ⟨{ i with updatedAt := supply.time 0 }, rfl, hfits.key, changeReport_items⟩
  | _ => cases hwrites

/-- A write of an item leaves a version alone that has ended. -/
theorem Sound.itemsOf_of_writes {call : CountCall} {result} (h : s.Sound) (hfits : s.Fits new call)
    (hanswer : s.answer supply (.counts call) = .ok (result, s')) (hwrites : call.writes? = some i)
    (hended : s.Ended count version) :
    s'.itemsOf count (some version) = s.itemsOf count (some version) := by
  obtain ⟨⟨c, hc, hid, haccepts, hcurrent⟩, j, hjkey, hkey, hitems⟩ :=
    h.items_of_writes hfits hanswer hwrites
  have hother : ofVersion count version i = false := by
    refine ofVersion_eq_false_iff.mpr ?_
    rintro rfl rfl
    rcases hended c hc hid with hlt | ⟨-, hover⟩
    · exact absurd hcurrent (Int.ne_of_gt hlt)
    · rw [isUnderWay_of_acceptsItems haccepts] at hover
      cases hover
  have hj : ofVersion count version j = false := (ofVersion_congr hjkey).trans hother
  unfold itemsOf
  rw [hitems]
  exact filter_putBy hj fun k hk hid => (ofVersion_congr (hkey k hk hid)).trans hj

/-- The removal of the items of a count leaves those of the other counts alone. -/
theorem itemsOf_filter (id : Id) :
    { s with items := s.items.filter (·.count ≠ id) }.itemsOf count (some version) =
      if id = count then [] else s.itemsOf count (some version) := by
  unfold itemsOf
  dsimp only
  rw [List.filter_filter]
  split
  · next hid =>
    subst hid
    refine List.filter_eq_nil_iff.mpr fun i hi => ?_
    by_cases hcount : i.count = id <;> simp [hcount]
  · next hid =>
    refine List.filter_congr fun i hi => ?_
    by_cases hcount : i.count = count
    · have hne : i.count ≠ id := fun heq => hid (heq.symm.trans hcount)
      simp [hne]
    · simp [hcount]

section Change

variable {id tenant : Id} {t : Transition} {c' : Count}

/-- A transition leaves a version alone that has ended. -/
theorem Sound.itemsOf_change (h : s.Sound) (hfits : FitsChange s new id t)
    (hsupply : s.AreNew new (supply.ids s.demand))
    (hanswer : s.change tenant id t supply = .ok (c', s')) (hended : s.Ended count version) :
    s'.itemsOf count (some version) = s.itemsOf count (some version) := by
  obtain ⟨c₁, hc₁, hid₁, -, hstatus, -⟩ := change_eq_ok hanswer
  obtain ⟨c, hc, hid, hcurrent, -, hchanged⟩ := hfits.changed hsupply hanswer
  have hput : Next new s (s.putCount (t.change.apply c (supply.time 0))) :=
    h.putChanged hc t.change (supply.time 0)
  obtain rfl : c₁ = c := eq_of_id_eq h.counts_nodup hc₁ hc (hid₁.trans hid.symm)
  cases hchanged with
  | stage => rfl
  | @completion entries items reports hsettles _ _ _ ht =>
    have hitems : ∀ i ∈ written items (supply.time 0), i.count = count → i.version ≠ version := by
      rintro i hi rfl rfl
      obtain ⟨j, hj, rfl⟩ := mem_written.mp hi
      obtain ⟨old, -, hcount, hversion, hsettle⟩ := ht.exists_old hj
      have hkey := (Item.settle_eq_ok hsettle).2.1
      simp only [Item.key, Item.Key.mk.injEq] at hkey
      rcases hended c₁ hc (hcount.symm.trans hkey.1.symm) with hlt | ⟨-, hover⟩
      · exact absurd (hkey.2.2.2.trans hversion) (Int.ne_of_lt hlt)
      · rw [hfits.isUnderWay_of_settles hsettles hstatus] at hover
        cases hover
    have hsame := hput.sound.itemsOf_putItems (ht.accepts hput.sound) hitems
    unfold itemsOf at hsame ⊢
    rw [putReports_items]
    exact hsame
  | recount _ _ _ haccepts =>
    refine hput.sound.itemsOf_putItems haccepts ?_
    rintro i hi rfl rfl
    obtain ⟨j, hj, rfl⟩ := mem_written.mp hi
    obtain ⟨hcount, hversion⟩ := hfits.newItems_place hj
    have hlater : j.version = c₁.currentVersion + 1 := hcurrent ▸ hversion
    have := hended c₁ hc (hid.trans hcount.symm)
    dsimp only at this
    omega

end Change

/-- Whatever call is answered, a version that has ended keeps its items as they are, unless its
count is deleted. -/
theorem Sound.itemsOf_answer {call : CountCall} {result} (h : s.Sound) (hfits : s.Fits new call)
    (hsupply : s.AreNew new (supply.ids s.demand))
    (hanswer : s.answer supply (.counts call) = .ok (result, s')) (hended : s.Ended count version) :
    s'.itemsOf count (some version) =
      if call.deletes? = some count then [] else s.itemsOf count (some version) := by
  cases hwrites : call.writes? with
  | some i =>
    rw [CountCall.deletes?_of_writes? hwrites, if_neg (by simp)]
    exact h.itemsOf_of_writes hfits hanswer hwrites hended
  | none =>
    cases call with
    | change tenant id t =>
      rw [if_neg (by simp [CountCall.deletes?])]
      exact h.itemsOf_change hfits hsupply hanswer hended
    | delete tenant id allowed =>
      obtain ⟨c, -, -, -, -, rfl⟩ := deleteCount_eq_ok hanswer
      simp only [CountCall.deletes?, Option.some.injEq]
      exact itemsOf_filter id
    | saveReport r =>
      obtain ⟨-, -, rfl⟩ := saveReport_eq_ok hanswer
      rfl
    | upsertItem i | insertItem i | recordItem i change => cases hwrites
    | _ =>
      cases hanswer
      rfl

/-- All items of versions that were settled are settled. -/
def AllSettled (s : Store) : Prop :=
  ∀ c ∈ s.counts, ∀ i ∈ s.items, i.count = c.id →
    i.version < c.currentVersion ∨ c.status.isSettled = true → i.IsSettled

/-- A transition that settles nothing leads to a settled stage from a settled stage only. -/
theorem FitsChange.isSettled_of_target {id : Id} {t : Transition} (h : FitsChange s new id t)
    (hsettles : t.settles = false) (htarget : t.change.target.isSettled = true) {status : Status}
    (hstatus : status ∈ t.change.expected) : status.isSettled = true := by
  cases h with
  | stage change version actor hchange => exact isSettled_of_stageChange hchange htarget hstatus
  | completion => cases hsettles
  | recount => cases htarget

/-- A recount leads from a settled stage to one in which the new version is counted. -/
theorem FitsChange.isSettled_of_opensVersion {id : Id} {t : Transition} (h : FitsChange s new id t)
    (hopens : t.change.opensVersion = true) {status : Status}
    (hstatus : status ∈ t.change.expected) :
    status.isSettled = true ∧ t.change.target.isSettled = false := by
  cases h with
  | recount => exact ⟨isSettled_of_recountable hstatus, rfl⟩
  | _ => cases hopens

/-- The items of a count that was not moved were settled before. -/
theorem AllSettled.of_count (hall : s.AllSettled) {call : CountCall} {result} (h : s.Sound)
    (hfits : s.Fits new call) (hsupply : s.AreNew new (supply.ids s.demand))
    (hanswer : s.answer supply (.counts call) = .ok (result, s')) (hc : c ∈ s.counts)
    (hi : i ∈ s'.items) (hcount : i.count = c.id) (hversion : i.version ≤ c.currentVersion)
    (hpast : i.version < c.currentVersion ∨ c.status.isSettled = true) : i.IsSettled := by
  have hended : s.Ended c.id i.version := by
    intro d hd hid
    rw [eq_of_id_eq h.counts_nodup hd hc hid]
    rcases hpast with hlt | hsettled
    · exact .inl hlt
    · have hover := Status.not_isUnderWay_of_isSettled hsettled
      exact (Int.lt_or_eq_of_le hversion).imp_right fun heq => ⟨heq.symm, hover⟩
  have hmem : i ∈ s'.itemsOf c.id (some i.version) :=
    mem_itemsOf.mpr ⟨hi, hcount, fun v hv => Option.some.inj hv⟩
  rw [h.itemsOf_answer hfits hsupply hanswer hended] at hmem
  split at hmem
  · exact absurd hmem List.not_mem_nil
  · exact hall c hc i (mem_itemsOf.mp hmem).1 hcount hpast

/-- The items of a count that is moved were settled before, or are settled now. -/
theorem AllSettled.of_change (hall : s.AllSettled) {tenant id : Id} {t : Transition} {c' : Count}
    (h : s.Sound) (hfits : FitsChange s new id t) (hsupply : s.AreNew new (supply.ids s.demand))
    (hanswer : s.change tenant id t supply = .ok (c', s')) (hi : i ∈ s'.items)
    (hcount : i.count = c'.id)
    (hpast : i.version < c'.currentVersion ∨ c'.status.isSettled = true) : i.IsSettled := by
  obtain ⟨c₁, hc₁, hid₁, -, hstatus, -⟩ := change_eq_ok hanswer
  obtain ⟨c, hc, hid, hcurrent, rfl, hchanged⟩ := hfits.changed hsupply hanswer
  obtain rfl : c₁ = c := eq_of_id_eq h.counts_nodup hc₁ hc (hid₁.trans hid.symm)
  have hput : Next new s (s.putCount (t.change.apply c₁ (supply.time 0))) :=
    h.putChanged hc t.change (supply.time 0)
  rw [StatusChange.apply_id] at hcount
  rw [StatusChange.apply_currentVersion, StatusChange.apply_status] at hpast
  cases hchanged with
  | stage hsettles hitems hopens hunder =>
    rw [hopens] at hpast
    refine hall c₁ hc i hi hcount (hpast.imp (fun hlt => ?_) fun htarget => ?_)
    · simpa using hlt
    · exact hfits.isSettled_of_target hsettles htarget hstatus
  | @completion entries items reports hsettles hitems hopens hover ht =>
    rw [putReports_items] at hi
    rcases ht.mem_putItems hput.sound hi with ⟨j, hj, rfl⟩ | ⟨hi, -, hother⟩
    · obtain ⟨old, -, -, -, hsettle⟩ := ht.exists_old hj
      have hj : j.IsSettled := Item.isSettled_of_settle hsettle
      exact hj
    · have hversion : i.version ≤ c₁.currentVersion := by
        obtain ⟨d, hd, hdid, hle⟩ := h.item_stored i hi
        rwa [eq_of_id_eq h.counts_nodup hd hc (hdid.trans hcount)] at hle
      exact hall c₁ hc i hi hcount (.inl (Int.lt_iff_le_and_ne.mpr ⟨hversion, hother hcount⟩))
  | recount hsettles hopens hunder haccepts hnew =>
    obtain ⟨hsettled, htarget⟩ := hfits.isSettled_of_opensVersion hopens hstatus
    rcases (hput.sound.mem_putItems_iff haccepts.nodup).mp hi with hi | ⟨hi, -⟩
    · obtain ⟨j, hj, rfl⟩ := mem_written.mp hi
      obtain ⟨-, hversion⟩ := hfits.newItems_place hj
      rw [hopens, htarget, if_pos rfl, hcurrent] at hpast
      rcases hpast with hlt | hcontra
      · exact absurd hversion (Int.ne_of_lt hlt)
      · cases hcontra
    · exact hall c₁ hc i hi hcount (.inr hsettled)

/-- Every call that fits keeps all items of settled versions settled. -/
theorem AllSettled.answer (hall : s.AllSettled) {call : CountCall} {result} (h : s.Sound)
    (hfits : s.Fits new call) (hsupply : s.AreNew new (supply.ids s.demand))
    (hanswer : s.answer supply (.counts call) = .ok (result, s')) : s'.AllSettled := by
  have hnext : Next new s s' := h.answer hfits hsupply hanswer
  intro c hc i hi hcount hpast
  have hversion : i.version ≤ c.currentVersion := by
    obtain ⟨d, hd, hdid, hle⟩ := hnext.sound.item_stored i hi
    rwa [eq_of_id_eq hnext.sound.counts_nodup hd hc (hdid.trans hcount)] at hle
  have hkept : c ∈ s.counts → i.IsSettled := fun hc =>
    hall.of_count h hfits hsupply hanswer hc hi hcount hversion hpast
  have hcounts := answer_counts hanswer
  cases call with
  | create new' =>
    cases hanswer
    rcases mem_of_mem_putBy hc with rfl | hc
    · obtain ⟨d, hd, hid, -⟩ := h.item_stored i hi
      have hmem : supply.id 0 ∈ supply.ids s.demand := Supply.id_mem_ids (Nat.succ_pos _)
      exact absurd (hid.trans hcount) (hsupply.count_ne hmem hd)
    · exact hkept hc
  | change tenant id t =>
    obtain ⟨d, -, -, -, -, -, -, -, items, reports, -, rfl, hs'⟩ := change_eq_ok hanswer
    rw [hs', putReports_counts, putItems_counts] at hc
    rcases mem_of_mem_putBy hc with rfl | hc
    · exact hall.of_change h hfits hsupply hanswer hi hcount hpast
    · exact hkept hc
  | delete tenant id allowed =>
    obtain ⟨-, -, -, -, -, rfl⟩ := deleteCount_eq_ok hanswer
    exact hkept (List.mem_of_mem_filter hc)
  | _ =>
    generalize s'.counts = after at hcounts hc
    cases hcounts
    exact hkept hc

end Store
end Recount

/-! ## From one version to the next

A recount enters one item for each item of the version before, in the same place. An item
that differed starts anew, and every other item keeps what was counted of it.
-/

namespace Recount

/-- The place of an item within a version. -/
def Item.place (i : Item) : Id × String := (i.location, i.code)

/-- An item that had a variance is to be counted again, any other one is done as it was. -/
def Item.IsFollowedBy (i j : Item) : Prop :=
  if i.hasVariance then j.status = .pending ∧ j.Uncounted ∧ j.previousQty = i.countedQty
  else j.status = .completed ∧ j.countedQty = i.countedQty

/-- Items correspond by their places to those that follow them. -/
structure Carried (before after : List Item) : Prop where
  forward : ∀ i ∈ before, ∃! j, j ∈ after ∧ j.place = i.place
  backward : ∀ j ∈ after, ∃! i, i ∈ before ∧ j.place = i.place
  follows : ∀ i ∈ before, ∀ j ∈ after, j.place = i.place → i.IsFollowedBy j

namespace Item

variable {i : Item} {version : Int} {id : Id} {now : Time} {items : List Item} {ids : List Id}

theorem place_next : (i.next version id now).place = i.place := by
  unfold next
  split <;> rfl

theorem isFollowedBy_next : i.IsFollowedBy (i.next version id now) := by
  unfold IsFollowedBy next
  split
  · exact ⟨rfl, ⟨rfl, rfl, rfl, rfl⟩, rfl⟩
  · exact ⟨rfl, rfl⟩

theorem IsFollowedBy.updated {j : Item} (h : i.IsFollowedBy j) :
    i.IsFollowedBy { j with updatedAt := now } := by
  unfold IsFollowedBy at h ⊢
  split at h
  · next hvariance =>
    rw [if_pos hvariance]
    exact ⟨h.1, ⟨h.2.1.countedQty, h.2.1.difference, h.2.1.variancePercent, h.2.1.hasVariance⟩, h.2.2⟩
  · next hvariance =>
    rw [if_neg hvariance]
    exact h

theorem exists_mem_nextAll (hlength : ids.length = items.length) (hi : i ∈ items) :
    ∃ id ∈ ids, i.next version id now ∈ nextAll version now items ids := by
  induction items generalizing ids with
  | nil => exact absurd hi List.not_mem_nil
  | cons first items ih =>
    cases ids with
    | nil => cases hlength
    | cons id ids =>
      rcases List.mem_cons.mp hi with rfl | hi
      · exact ⟨id, List.mem_cons_self, List.mem_cons_self⟩
      · obtain ⟨id', hid', hnext⟩ := ih (Nat.succ.inj hlength) hi
        exact ⟨id', List.mem_cons_of_mem id hid', List.mem_cons_of_mem _ hnext⟩

theorem map_place_nextAll (hlength : ids.length = items.length) :
    (nextAll version now items ids).map place = items.map place := by
  induction items generalizing ids with
  | nil => rfl
  | cons i items ih =>
    cases ids with
    | nil => cases hlength
    | cons id ids =>
      rw [nextAll, List.zipWith_cons_cons, List.map_cons, List.map_cons, place_next]
      exact congrArg _ (ih (Nat.succ.inj hlength))

theorem length_nextAll (hlength : ids.length = items.length) :
    (nextAll version now items ids).length = items.length := by
  rw [nextAll, List.length_zipWith, hlength, Nat.min_self]

/-- As many items are to be counted as had a variance. -/
theorem countP_nextAll (hlength : ids.length = items.length) :
    (nextAll version now items ids).countP (·.status = .pending) =
      items.countP (·.hasVariance) := by
  induction items generalizing ids with
  | nil => rfl
  | cons i items ih =>
    cases ids with
    | nil => cases hlength
    | cons id ids =>
      have hfirst : ((i.next version id now).status = .pending) ↔ i.hasVariance = true := by
        unfold next
        split <;> simp_all
      rw [nextAll, List.zipWith_cons_cons, List.countP_cons, List.countP_cons]
      simp only [hfirst, decide_eq_true_eq]
      exact congrArg (· + _) (ih (Nat.succ.inj hlength))

end Item

namespace Store

variable {s s' : Store} {new : List Id} {supply : Supply} {count : Id} {version : Int}

/-- The items of a version are in different places. -/
theorem Sound.places_nodup (h : s.Sound) :
    ((s.itemsOf count (some version)).map Item.place).Nodup := by
  refine List.Nodup.map_on (fun i hi j hj hplace => ?_)
    (List.Nodup.of_map Item.id (nodup_map_filter _ h.items_nodup))
  obtain ⟨hi, hicount, hiversion⟩ := mem_itemsOf.mp hi
  obtain ⟨hj, hjcount, hjversion⟩ := mem_itemsOf.mp hj
  obtain ⟨hlocation, hcode⟩ := Prod.mk.inj hplace
  have hkey : i.key = j.key := by
    simp only [Item.key, Item.Key.mk.injEq]
    exact ⟨hicount.trans hjcount.symm, hlocation, hcode,
      (hiversion version rfl).trans (hjversion version rfl).symm⟩
  exact eq_of_id_eq h.items_nodup hi hj (h.key_unique i hi j hj hkey)

/-- Items in different places are carried over by the items that follow them. -/
theorem carried_nextAll {before items : List Item} {ids : List Id} {time now : Time}
    (hperm : items.Perm before) (hlength : ids.length = items.length)
    (hplaces : (before.map Item.place).Nodup) :
    Carried before (written (Item.nextAll version time items ids) now) := by
  have hafter : ((written (Item.nextAll version time items ids) now).map Item.place).Nodup := by
    have hsame : (written (Item.nextAll version time items ids) now).map Item.place =
        items.map Item.place := by
      rw [← Item.map_place_nextAll hlength, written, List.map_map]
      rfl
    rw [hsame]
    exact (hperm.map Item.place).nodup_iff.mpr hplaces
  have hfrom : ∀ j ∈ written (Item.nextAll version time items ids) now,
      ∃ i ∈ before, j.place = i.place ∧ i.IsFollowedBy j := by
    intro j hj
    obtain ⟨k, hk, rfl⟩ := mem_written.mp hj
    obtain ⟨i, hi, id, -, rfl⟩ := Item.mem_nextAll hk
    exact ⟨i, hperm.subset hi, Item.place_next, Item.isFollowedBy_next.updated⟩
  constructor
  · intro i hi
    obtain ⟨id, -, hnext⟩ := Item.exists_mem_nextAll hlength (hperm.mem_iff.mpr hi)
    refine ⟨_, ⟨mem_written.mpr ⟨_, hnext, rfl⟩, Item.place_next⟩, ?_⟩
    rintro j ⟨hj, hplace⟩
    exact List.inj_on_of_nodup_map hafter hj (mem_written.mpr ⟨_, hnext, rfl⟩)
      (hplace.trans Item.place_next.symm)
  · intro j hj
    obtain ⟨i, hi, hplace, -⟩ := hfrom j hj
    refine ⟨i, ⟨hi, hplace⟩, ?_⟩
    rintro k ⟨hk, hplace'⟩
    exact List.inj_on_of_nodup_map hplaces hk hi (hplace'.symm.trans hplace)
  · intro i hi j hj hplace
    obtain ⟨k, hk, hplace', hfollows⟩ := hfrom j hj
    rwa [List.inj_on_of_nodup_map hplaces hi hk (hplace.symm.trans hplace')]

theorem countP_written {items : List Item} {now : Time} :
    (written items now).countP (·.status = .pending) = items.countP (·.status = .pending) := by
  rw [written, List.countP_map]
  rfl

/-- A recount leaves the new items, and no others, in the version that it opens. -/
theorem Sound.itemsOf_recounted {tenant id : Id} {t : Transition} {c' : Count} (h : s.Sound)
    (hfits : FitsChange s new id t) (hsupply : s.AreNew new (supply.ids s.demand))
    (hanswer : s.change tenant id t supply = .ok (c', s')) (hopens : t.change.opensVersion = true) :
    s'.itemsOf id (some (t.change.expectedVersion + 1)) = written t.newItems (supply.time 0) := by
  obtain ⟨c, hc, hid, hcurrent, -, hchanged⟩ := hfits.changed hsupply hanswer
  have hput : Next new s (s.putCount (t.change.apply c (supply.time 0))) :=
    h.putChanged hc t.change (supply.time 0)
  cases hchanged with
  | stage hsettles hitems hstays => cases hstays.symm.trans hopens
  | completion hsettles hitems hstays => cases hstays.symm.trans hopens
  | recount hsettles _ hunder haccepts hnew =>
    have hfresh : ∀ i ∈ written t.newItems (supply.time 0), i.id ∉ s.items.map Item.id := by
      intro i hi hmem
      obtain ⟨k, hk, rfl⟩ := mem_written.mp hi
      obtain ⟨j, hj, hjid⟩ := List.mem_map.mp hmem
      exact (hnew k hk).2 j hj hjid
    have hold : s.items.filter (ofVersion id (t.change.expectedVersion + 1)) = [] := by
      refine List.filter_eq_nil_iff.mpr fun i hi => ?_
      rw [Bool.not_eq_true, ofVersion_eq_false_iff]
      intro hcount
      obtain ⟨d, hd, hdid, hle⟩ := h.item_stored i hi
      rw [eq_of_id_eq h.counts_nodup hd hc (hdid.trans (hcount.trans hid.symm))] at hle
      omega
    have hentered : ∀ i ∈ written t.newItems (supply.time 0),
        ofVersion id (t.change.expectedVersion + 1) i = true := by
      intro i hi
      obtain ⟨k, hk, rfl⟩ := mem_written.mp hi
      obtain ⟨hcount, hversion⟩ := hfits.newItems_place hk
      simp [ofVersion, hcount, hversion]
    change (Store.putItems _ _).items.filter (ofVersion id (t.change.expectedVersion + 1)) = _
    rw [putItems_items]
    change (putAll Item.id _ s.items).filter _ = _
    rw [putAll_of_new haccepts.nodup hfresh, List.filter_append, hold, List.nil_append,
      List.filter_eq_self.mpr hentered]

end Store
end Recount
