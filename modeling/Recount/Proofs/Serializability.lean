import Recount.Proofs.Concurrent.Replay
import Recount.Proofs.Concurrent.Unfolding
import Recount.Proofs.Loading.Upserting
import Recount.Proofs.Variances

/-!
# Recordings and loads at the same time

One task records a quantity of an item and another one loads the item, in any order and with
any other requests in between. The recording computes from the item as it looked it up, and
writes the whole item back later. What the load changed in between is lost then, so the two
come out as one after the other only if the load changed nothing, or did not come in between.
-/

namespace Recount

namespace Store

variable {s s' : Store} {key : Item.Key} {i new : Item}

/-- In a sound store, the key of an item leads to it. -/
theorem Sound.itemByKey?_eq_some_iff (h : s.Sound) :
    s.itemByKey? key = some i ↔ i ∈ s.items ∧ i.key = key := by
  constructor
  · exact itemByKey?_eq_some
  · rintro ⟨hi, rfl⟩
    cases hfound : s.itemByKey? i.key with
    | none => exact absurd rfl (itemByKey?_eq_none_iff.mp hfound i hi)
    | some j =>
      obtain ⟨hj, hkey⟩ := itemByKey?_eq_some hfound
      rw [eq_of_id_eq h.items_nodup hj hi (h.key_unique j hj i hi hkey)]

end Store

namespace Concurrent

open Store

/-- The item with a key. -/
def World.row (w : World) (key : Item.Key) : Option Item := w.store.itemByKey? key

/-- A task looks up the item that it records a quantity of, or adds it. -/
inductive Begins (n : Nat) (w w' : World) (i : Item) : Recording → Prop
  | looksUp {count id qty actor}
      (h : Exchanges n w w' ⟨.store (.counts (.getItem count id)), .ok (some i)⟩) :
      Begins n w w' i ⟨none, qty, actor⟩
  | adds {new qty actor} (h : Exchanges n w w' ⟨.store (.counts (.insertItem new)), .ok i⟩) :
      Begins n w w' i ⟨some i, qty, actor⟩

/-- One task records a quantity of an item at one moment, and another one loads it at another
moment. Neither has seen it before, and no one else changes it from when it is there. -/
structure Interleaving (sources : Loading.Sources) (world : Nat → World) (last n record load : Nat)
    (stored new : Item) : Prop where
  unfolds : Unfolds sources Task.isResolution last world
  unseen : ∀ work, (world 0).works[n]? = some work → ∀ i, Shown work.past i → i.key ≠ new.key
  key : stored.key = new.key
  record_lt : record < last
  load_lt : load < last
  records : ∃ counted report, Exchanges n (world record) (world (record + 1))
    ⟨.store (.counts (.recordItem counted report)), .ok stored⟩
  loads : ∃ m loaded outcome, Exchanges m (world load) (world (load + 1))
    ⟨.store (.counts (.upsertItem new)), .ok (loaded, outcome)⟩
  quiet : ∀ t < last, t ≠ record → t ≠ load →
    (world t).row new.key = none ∨ (world (t + 1)).row new.key = (world t).row new.key

variable {sources : Loading.Sources} {world : Nat → World} {last n record load : Nat}
  {stored new i : Item} {w w' : World} {r : Recording}

section Rows

variable (hw : w.Sound) (hw' : w'.Sound)
include hw hw'

/-- A load finds the item as it is then, and leaves it as it was told. -/
theorem Makes.loaded {outcome : UpsertOutcome} {ids : List Id} {supply : Supply}
    (h : Makes n w w' (.upsertItem new) (i, outcome) ids supply) :
    Loaded new (w.row new.key) i ∧ w'.row new.key = some i := by
  obtain ⟨-, -, -, -, -, hcases⟩ := upsertItem_eq_ok h.answer
  rcases hcases with ⟨hnone, rfl, hstore⟩ | ⟨old, hold, hkey, hcases⟩
  · have hrow : w.row i.key = none := itemByKey?_eq_none_iff.mpr hnone
    rw [hrow]
    refine ⟨.inserted, hw'.store.itemByKey?_eq_some_iff.mpr ⟨?_, rfl⟩⟩
    rw [hstore]
    exact mem_putBy_self
  · have hrow : w.row new.key = some old := hw.store.itemByKey?_eq_some_iff.mpr ⟨hold, hkey⟩
    rw [hrow]
    rcases hcases with ⟨hqty, rfl, hstore⟩ | ⟨qty, report, hqty, hcounted, -, hstore⟩
    · refine ⟨.refreshed _ hqty, hw'.store.itemByKey?_eq_some_iff.mpr ⟨?_, hkey⟩⟩
      rw [hstore]
      exact mem_putBy_self
    · refine ⟨.recomputed _ hqty hcounted, hw'.store.itemByKey?_eq_some_iff.mpr ⟨?_, ?_⟩⟩
      · rw [hstore]
        exact mem_putBy_self
      · exact (Item.withCounted_same hcounted).2.1.trans hkey

omit hw in
/-- A recording leaves the item as it was computed. -/
theorem Makes.recorded {counted : Item} {report : ReportChange} {ids : List Id} {supply : Supply}
    (h : Makes n w w' (.recordItem counted report) stored ids supply) :
    stored = { counted with updatedAt := supply.time 0 } ∧ w'.row stored.key = some stored := by
  obtain ⟨-, -, -, -, -, -, -, -, -, hstored, hstore⟩ := recordItem_eq_ok h.answer
  refine ⟨hstored, hw'.store.itemByKey?_eq_some_iff.mpr ⟨?_, rfl⟩⟩
  rw [hstore, changeReport_items]
  exact mem_putBy_self

/-- A recording begins with the item that is there, or where there is none. -/
theorem Begins.row_cases (h : Begins n w w' i r) :
    w'.row i.key = some i ∧
      (r.added = none ∧ w.row i.key = some i ∨ r.added = some i ∧ w.row i.key = none) := by
  cases h with
  | looksUp h =>
    obtain ⟨ids, supply, hmakes⟩ := h.makes hw
    have hfound : w.store.item? _ _ = some i := congrArg Prod.fst (Except.ok.inj hmakes.answer)
    have hsame : w.store = w'.store := congrArg Prod.snd (Except.ok.inj hmakes.answer)
    have hrow : w.row i.key = some i :=
      hw.store.itemByKey?_eq_some_iff.mpr ⟨(item?_eq_some hfound).1, rfl⟩
    refine ⟨?_, .inl ⟨rfl, hrow⟩⟩
    rwa [World.row, ← hsame]
  | adds h =>
    obtain ⟨ids, supply, hmakes⟩ := h.makes hw
    obtain ⟨-, -, -, -, -, hnone, rfl, hstore⟩ := insertItem_eq_ok hmakes.answer
    refine ⟨hw'.store.itemByKey?_eq_some_iff.mpr ⟨?_, rfl⟩, .inr ⟨rfl, ?_⟩⟩
    · rw [hstore]
      exact mem_putBy_self
    · exact itemByKey?_eq_none_iff.mpr hnone

theorem Begins.leaves (h : Begins n w w' i r) (hrecorded : Recorded r.qty r.actor i stored) :
    r.Leaves (w.row i.key) stored := by
  rcases (h.row_cases hw hw').2 with ⟨hadded, hrow⟩ | ⟨hadded, hrow⟩
  · rw [hrow]
    exact .updated hadded hrecorded
  · rw [hrow]
    exact .added hadded hrecorded

end Rows

namespace Interleaving

variable (h : Interleaving sources world last n record load stored new)
include h

theorem sound {t : Nat} (ht : t ≤ last) : (world t).Sound := (h.unfolds.reachable ht).sound

/-- An item that is there stays as it is while it is neither recorded nor loaded. -/
theorem row_kept {a b : Nat} (hab : a ≤ b) (hb : b ≤ last) (hrow : (world a).row new.key = some i)
    (hrecord : record < a ∨ b ≤ record) (hload : load < a ∨ b ≤ load) :
    (world b).row new.key = some i := by
  induction hab with
  | refl => exact hrow
  | @step b hab ih =>
    have hle : a ≤ b := hab
    have hbefore := ih (by omega) (by omega) (by omega)
    rcases h.quiet b (by omega) (by omega) (by omega) with hnone | hsame
    · rw [hbefore] at hnone
      cases hnone
    · rw [hsame, hbefore]

/-- What is recorded was computed from the item as the task looked it up, or added it, before. -/
theorem exists_begins : ∃ start < record, ∃ r i, i.key = new.key ∧
    Begins n (world start) (world (start + 1)) i r ∧ Recorded r.qty r.actor i stored := by
  obtain ⟨counted, report, hrecords⟩ := h.records
  have hrecord : record ≤ last := Nat.le_of_lt h.record_lt
  obtain ⟨work, next, hwork, hrest⟩ := hrecords.exists_work
  obtain ⟨ids, supply, hmakes⟩ := hrecords.makes (h.sound hrecord)
  obtain ⟨hstored, -⟩ := hmakes.recorded (h.sound h.record_lt)
  have hfounded : FoundedRecord work.past counted report := by
    rcases (h.sound hrecord).allowed hwork hrest with hfounded | ⟨-, _, hsave, -⟩
    · exact hfounded
    · cases hsave
  cases hfounded with
  | @mk i counted qty report actor time id created hshown hcounted =>
    have hrecorded : Recorded qty actor i stored := by
      rw [hstored]
      exact .mk counted time (supply.time 0) hcounted
    have hkey : i.key = new.key := hrecorded.key.symm.trans h.key
    have hsince : ∀ e ∈ work.past, Shown [e] i →
        ∃ start < record, Exchanges n (world start) (world (start + 1)) e := by
      intro e he hshown
      rcases h.unfolds.exchanged hrecord hwork ⟨_, _, hrest⟩ he with ⟨before, hbefore, he⟩ | hsince
      · have hseen : Shown before.past i := hshown.mono (List.cons_subset.mpr ⟨he, List.nil_subset _⟩)
        exact absurd hkey (h.unseen before hbefore i hseen)
      · exact hsince
    cases hshown with
    | read he =>
      obtain ⟨start, hlt, hexchange⟩ := hsince _ he (.read List.mem_cons_self)
      exact ⟨start, hlt, ⟨none, qty, actor⟩, i, hkey, .looksUp hexchange, hrecorded⟩
    | inserted he =>
      obtain ⟨start, hlt, hexchange⟩ := hsince _ he (.inserted List.mem_cons_self)
      exact ⟨start, hlt, ⟨some i, qty, actor⟩, i, hkey, .adds hexchange, hrecorded⟩

/-- What was recorded is there after it. -/
theorem row_recorded : (world (record + 1)).row new.key = some stored := by
  obtain ⟨counted, report, hrecords⟩ := h.records
  obtain ⟨ids, supply, hmakes⟩ := hrecords.makes (h.sound (Nat.le_of_lt h.record_lt))
  rw [← h.key]
  exact (hmakes.recorded (h.sound h.record_lt)).2

/-- The load finds the item as it is then, and what it leaves is there after it. -/
theorem exists_loaded : ∃ i, Loaded new ((world load).row new.key) i ∧
    (world (load + 1)).row new.key = some i := by
  obtain ⟨m, i, outcome, hloads⟩ := h.loads
  have hload : (world load).Sound := h.sound (Nat.le_of_lt h.load_lt)
  obtain ⟨ids, supply, hmakes⟩ := hloads.makes hload
  exact ⟨i, hmakes.loaded hload (h.sound h.load_lt)⟩

/-- The three moments are different ones. -/
theorem load_ne {start : Nat} (hbegins : Begins n (world start) (world (start + 1)) i r) :
    load ≠ start ∧ load ≠ record := by
  obtain ⟨m, loaded, outcome, hloads⟩ := h.loads
  constructor
  · rintro rfl
    cases hbegins with
    | looksUp hlooks => cases hloads.unique hlooks
    | adds hadds => cases hloads.unique hadds
  · rintro rfl
    obtain ⟨counted, report, hrecords⟩ := h.records
    cases hloads.unique hrecords

/-- The load comes before the recording begins, or after it, or in between and is overwritten. -/
theorem row_last_cases {start : Nat} (hstart : start < record)
    (hbegins : Begins n (world start) (world (start + 1)) i r) (hkey : i.key = new.key)
    (hrecorded : Recorded r.qty r.actor i stored) :
    ∃ z, (world last).row new.key = some z ∧ z.countedQty = some r.qty ∧
      (Serial r new ((world (min start load)).row new.key) z ∧ ¬ (start < load ∧ load < record) ∨
        (start < load ∧ load < record) ∧ z = stored ∧
          r.Leaves ((world start).row new.key) stored) := by
  have hrecord := h.record_lt
  have hload := h.load_lt
  obtain ⟨hne, hne'⟩ := h.load_ne hbegins
  obtain ⟨loaded, hloaded, hrowLoaded⟩ := h.exists_loaded
  have hlast : record + 1 ≤ last := hrecord
  have hsound : (world start).Sound := h.sound (by omega)
  have hsound' : (world (start + 1)).Sound := h.sound (by omega)
  have hleaves := hbegins.leaves hsound hsound' hrecorded
  have hrows := hbegins.row_cases hsound hsound'
  rw [hkey] at hleaves hrows
  by_cases hlt : load < start
  · have hfound : (world start).row new.key = some loaded :=
      h.row_kept (by omega) (by omega) hrowLoaded (by omega) (by omega)
    have hkept : (world last).row new.key = some stored :=
      h.row_kept hlast (Nat.le_refl _) h.row_recorded (by omega) (by omega)
    rw [hfound] at hleaves
    rw [Nat.min_eq_right (Nat.le_of_lt hlt)]
    exact ⟨stored, hkept, hrecorded.countedQty, .inl ⟨.load_record hloaded hleaves, by omega⟩⟩
  · rw [Nat.min_eq_left (by omega : start ≤ load)]
    by_cases hbetween : load < record
    · have hkept : (world last).row new.key = some stored :=
        h.row_kept hlast (Nat.le_refl _) h.row_recorded (by omega) (by omega)
      exact ⟨stored, hkept, hrecorded.countedQty, .inr ⟨by omega, rfl, hleaves⟩⟩
    · have hfound : (world load).row new.key = some stored :=
        h.row_kept (by omega) (by omega) h.row_recorded (by omega) (by omega)
      have hkept : (world last).row new.key = some loaded :=
        h.row_kept hload (Nat.le_refl _) hrowLoaded (by omega) (by omega)
      rw [hfound] at hloaded
      exact ⟨loaded, hkept, hloaded.countedQty.trans hrecorded.countedQty,
        .inl ⟨.record_load hleaves hloaded, by omega⟩⟩

end Interleaving

/-- However a recording and a load of one item interleave, the item states the variance of its
quantities in the end, among them the one that was recorded, and it is reported as it is. What the
system knows of it is what the load told it, and the two come out as one after the other, just if
the load did not come between the moment at which the recording looked the item up and the one at
which it was recorded, or told nothing new. -/
theorem serializable_iff (h : Interleaving sources world last n record load stored new) :
    ∃ start < record, ∃ r i z, Begins n (world start) (world (start + 1)) i r ∧
      i.key = new.key ∧ Recorded r.qty r.actor i stored ∧
      (world last).row new.key = some z ∧ z.countedQty = some r.qty ∧ z.StatesVariance ∧
      (if z.hasVariance = true then ∃ q, (world last).store.reportsAbout z = [q] ∧ q.Describes z
        else (world last).store.reportsAbout z = []) ∧
      ((∃ s, Serial r new ((world (min start load)).row new.key) s ∧ s.timeless = z.timeless) ↔
        z.known = new.known) ∧
      (z.known = new.known ↔ (start < load → load < record → i.known = new.known)) := by
  obtain ⟨start, hstart, r, i, hkey, hbegins, hrecorded⟩ := h.exists_begins
  obtain ⟨z, hrow, hqty, hcases⟩ := h.row_last_cases hstart hbegins hkey hrecorded
  have hreported := (h.unfolds.reachable (Nat.le_refl last)).reported
  have hz : z ∈ (world last).store.items := (itemByKey?_eq_some hrow).1
  have hsound : (world last).store.Sound := hreported.sound.store
  refine ⟨start, hstart, r, i, z, hbegins, hkey, hrecorded, hrow, hqty,
    (hsound.consistent z hz).statesVariance,
    hsound.reportsAbout_eq (hreported.store.accounts z hz), ?_, ?_⟩
  · constructor
    · rintro ⟨s, hserial, htimeless⟩
      rw [← Item.known_eq_of_timeless_eq htimeless, hserial.known]
    · intro hknown
      rcases hcases with ⟨hserial, -⟩ | ⟨⟨hlt, -⟩, rfl, hleaves⟩
      · exact ⟨z, hserial, rfl⟩
      · obtain ⟨s, hloaded, htimeless⟩ := hrecorded.exists_loaded hknown
        rw [Nat.min_eq_left (Nat.le_of_lt hlt)]
        exact ⟨s, .record_load hleaves hloaded, htimeless⟩
  · rcases hcases with ⟨hserial, hnot⟩ | ⟨⟨hlt, hlt'⟩, rfl, -⟩
    · exact ⟨fun _ hstart hload => absurd ⟨hstart, hload⟩ hnot, fun _ => hserial.known⟩
    · rw [hrecorded.known]
      exact ⟨fun hknown _ _ => hknown, fun hknown => hknown hlt hlt'⟩

section Replay

/-- The item that an exchange recorded. -/
def itemRecorded? : Exchange → Option Item
  | ⟨.store (.counts (.recordItem _ _)), .ok stored⟩ => some stored
  | _ => none

/-- The item that an exchange loaded. -/
def itemLoaded? : Exchange → Option Item
  | ⟨.store (.counts (.upsertItem new)), .ok _⟩ => some new
  | _ => none

theorem itemRecorded?_eq_some {e : Exchange} (h : itemRecorded? e = some stored) :
    ∃ counted report, e = ⟨.store (.counts (.recordItem counted report)), .ok stored⟩ := by
  unfold itemRecorded? at h
  split at h
  · cases h
    exact ⟨_, _, rfl⟩
  · cases h

theorem itemLoaded?_eq_some {e : Exchange} (h : itemLoaded? e = some new) :
    ∃ loaded outcome, e = ⟨.store (.counts (.upsertItem new)), .ok (loaded, outcome)⟩ := by
  unfold itemLoaded? at h
  split at h
  · cases h
    exact ⟨_, _, rfl⟩
  · cases h

/-- In a course that was played, one task records an item and another one loads it, and no one else
changes it. -/
def Interleaves (worlds : List World) (last record load : Nat) (stored new : Item) : Prop :=
  stored.key = new.key ∧ record < last ∧ load < last ∧
    lastLogged? worlds record itemRecorded? = some stored ∧ lastLogged? worlds load itemLoaded? = some new ∧
    ∀ t < last, t ≠ record → t ≠ load → (worldAt worlds t).row new.key = none ∨
      (worldAt worlds (t + 1)).row new.key = (worldAt worlds t).row new.key

instance (worlds : List World) (last record load : Nat) (stored new : Item) :
    Decidable (Interleaves worlds last record load stored new) :=
  inferInstanceAs (Decidable (_ ∧ _))

variable {moves : List Move} {worlds : List World}

theorem Interleaves.interleaving {m : Nat} {supply supply' : Supply}
    {erp erp' : (call : ErpCall) → Except ErpFault call.Result}
    (h : Interleaves worlds moves.length record load stored new)
    (hworlds : World.worlds? sources {} moves = some worlds)
    (hmoves : ∀ t, Move.begin t ∈ moves → ¬ t.isResolution)
    (hrecord : moves[record]? = some (.go n supply erp))
    (hload : moves[load]? = some (.go m supply' erp')) :
    Interleaving sources (worldAt worlds) moves.length n record load stored new := by
  obtain ⟨hkey, hrecordLt, hloadLt, hrecorded, hloaded, hquiet⟩ := h
  obtain ⟨e, hrecords, he⟩ := exists_of_lastLogged? hworlds hrecord hrecorded
  obtain ⟨e', hloads, he'⟩ := exists_of_lastLogged? hworlds hload hloaded
  obtain ⟨counted, report, rfl⟩ := itemRecorded?_eq_some he
  obtain ⟨loaded, outcome, rfl⟩ := itemLoaded?_eq_some he'
  refine ⟨World.worlds?_unfolds .refl hmoves hworlds, ?_, hkey, hrecordLt, hloadLt,
    ⟨counted, report, hrecords⟩, ⟨m, loaded, outcome, hloads⟩, hquiet⟩
  intro work hwork
  rw [World.worlds?_zero hworlds] at hwork
  cases hwork

/-- A table that is read without mapping. -/
def oneTable : Loading.Sources :=
  ⟨[(.ofNat 9, .postgres)],
    { connection := some ⟨.ofNat 9, "", .postgres⟩, legacyTable := some "items" }⟩

/-- A planning system that knows one item, of which it has seven. -/
def sevenKnown : (call : ErpCall) → Except ErpFault call.Result
  | .connect | .disconnect => .ok ()
  | .test => .ok true
  | .query _ => .ok [[("code", .str "A"), ("qty", .str "7")]]

/-- A load goes on for some rounds. -/
def loadOn (first n rounds : Nat) : List Move :=
  (List.range rounds).map fun k => .go n (roundSupply (first + k)) sevenKnown

/-- The only item of a count is to be recorded and to be loaded. -/
def bothBegun : List Move :=
  .begin newCount :: goOn 1 0 1 ++ .begin (newItem "A" none) :: goOn 2 1 4 ++
    [.begin (newQuantity 4000 5),
      .begin (.loadItems (.ofNat 1) (.ofNat 1000) ⟨none, some (.ofNat 5), none⟩)]

theorem not_isResolution_of_bothBegun {moves : List Move} (hgo : ∀ t, Move.begin t ∉ moves) (t : Task)
    (ht : Move.begin t ∈ bothBegun ++ moves) : ¬ t.isResolution := by
  simp only [bothBegun, goOn, goIn, List.mem_append, List.mem_cons, List.mem_map, Move.begin.injEq,
    List.not_mem_nil, reduceCtorEq, and_false, exists_false, or_false, hgo t] at ht
  rcases ht with (rfl | rfl) | rfl | rfl <;> exact id

/-- The item is loaded after it was recorded. -/
def loadedAfter : List Move := goOn 6 2 6 ++ loadOn 12 3 9

theorem serializable_iff_loadedAfter :
    ∃ world stored new z, Interleaving oneTable world 24 2 14 23 stored new ∧
      (world 24).row new.key = some z ∧ z.systemQty.digits = 7 ∧ z.StatesVariance ∧
        ∃ start r s, Serial r new ((world (min start 23)).row new.key) s ∧ s.timeless = z.timeless := by
  have hplayed : (World.worlds? oneTable {} (bothBegun ++ loadedAfter)).any fun worlds =>
      (lastLogged? worlds 14 itemRecorded?).any fun stored =>
        (lastLogged? worlds 23 itemLoaded?).any fun new =>
          Interleaves worlds 24 14 23 stored new ∧ new.systemQty.digits = 7 := by decide +kernel
  obtain ⟨worlds, hworlds, hplayed⟩ := (Option.any_eq_true _ _).mp hplayed
  obtain ⟨stored, -, hplayed⟩ := (Option.any_eq_true _ _).mp hplayed
  obtain ⟨new, -, hplayed⟩ := (Option.any_eq_true _ _).mp hplayed
  obtain ⟨hchecked, hdigits⟩ := of_decide_eq_true hplayed
  have hinterleaving : Interleaving oneTable (worldAt worlds) 24 2 14 23 stored new :=
    hchecked.interleaving hworlds
      (not_isResolution_of_bothBegun fun t => by simp [loadedAfter, goOn, goIn, loadOn]) rfl rfl
  obtain ⟨start, -, r, i, z, -, -, -, hrow, -, hstates, -, hserial, hknown⟩ :=
    serializable_iff hinterleaving
  have hloaded : z.known = new.known := hknown.mpr fun _ hlt => absurd hlt (by decide)
  obtain ⟨s, hs, htimeless⟩ := hserial.mpr hloaded
  have hsystem : z.systemQty = new.systemQty := congrArg Item.Known.systemQty hloaded
  exact ⟨_, stored, new, z, hinterleaving, hrow, hsystem ▸ hdigits, hstates, start, r, s, hs,
    htimeless⟩

/-- The item is loaded between the moment at which it is looked up and the one at which its quantity
is recorded. -/
def loadedBetween : List Move := goOn 6 2 2 ++ loadOn 8 3 9 ++ goOn 17 2 4

/-- A recording that was computed from the item as it was before a load overwrites the load. What
there is in the end is not what any recording and the load leave one after the other. -/
theorem not_serializable : ¬ ∀ (sources : Loading.Sources) (world : Nat → World)
    (last n record load : Nat) (stored new z : Item),
    Interleaving sources world last n record load stored new → (world last).row new.key = some z →
      ∃ r before s, Serial r new before s ∧ s.timeless = z.timeless := by
  intro h
  have hplayed : (World.worlds? oneTable {} (bothBegun ++ loadedBetween)).any fun worlds =>
      (lastLogged? worlds 23 itemRecorded?).any fun stored =>
        (lastLogged? worlds 19 itemLoaded?).any fun new =>
          Interleaves worlds 24 23 19 stored new ∧
            ((worldAt worlds 24).row new.key).any (·.known ≠ new.known) := by decide +kernel
  obtain ⟨worlds, hworlds, hplayed⟩ := (Option.any_eq_true _ _).mp hplayed
  obtain ⟨stored, -, hplayed⟩ := (Option.any_eq_true _ _).mp hplayed
  obtain ⟨new, -, hplayed⟩ := (Option.any_eq_true _ _).mp hplayed
  obtain ⟨hchecked, hplayed⟩ := of_decide_eq_true hplayed
  obtain ⟨z, hz, hplayed⟩ := (Option.any_eq_true _ _).mp hplayed
  have hinterleaving : Interleaving oneTable (worldAt worlds) 24 2 23 19 stored new :=
    hchecked.interleaving hworlds
      (not_isResolution_of_bothBegun fun t => by simp [loadedBetween, goOn, goIn, loadOn]) rfl rfl
  obtain ⟨r, before, s, hserial, htimeless⟩ := h _ _ _ _ _ _ _ _ z hinterleaving hz
  have hknown : z.known = new.known :=
    (Item.known_eq_of_timeless_eq htimeless).symm.trans hserial.known
  exact absurd hknown (of_decide_eq_true hplayed)

end Replay

end Concurrent
end Recount
