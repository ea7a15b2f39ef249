import Mathlib.Data.List.Nodup
import Recount.Proofs.Result
import Recount.Store.Basic
import Recount.Store.Mappings

/-!
# What a call does

A call that changes a store has passed all its checks, and the store that it
leaves is the old one with certain entries put or removed. Each call is opened
here once; what is said about stores later starts from these descriptions.
-/

/-! ## Entries of a store

A store keeps its entries in lists with one entry for every identifier. Putting
an entry leaves the others alone, and a list with distinct identifiers keeps
them distinct, so an entry is found by its identifier alone. -/

namespace Recount

variable {α : Type} {id : α → Id} {e x y : α} {l : List α}

/-- What is in a list after an entry was put into it was put or was there. -/
theorem mem_of_mem_putBy (h : x ∈ putBy id e l) : x = e ∨ x ∈ l := by
  induction l with
  | nil => exact .inl (by simpa [putBy] using h)
  | cons a l ih =>
    unfold putBy at h
    split at h
    · exact (List.mem_cons.mp h).imp_right (List.mem_cons_of_mem a)
    · rcases List.mem_cons.mp h with rfl | h
      · exact .inr List.mem_cons_self
      · exact (ih h).imp_right (List.mem_cons_of_mem a)

theorem mem_putBy_self : e ∈ putBy id e l := by
  induction l with
  | nil => exact List.mem_singleton_self e
  | cons a l ih =>
    unfold putBy
    split
    · exact List.mem_cons_self
    · exact List.mem_cons_of_mem a ih

theorem mem_putBy_of_ne (hx : x ∈ l) (hne : id x ≠ id e) : x ∈ putBy id e l := by
  induction l with
  | nil => exact absurd hx List.not_mem_nil
  | cons a l ih =>
    unfold putBy
    rcases List.mem_cons.mp hx with rfl | hx
    · rw [if_neg hne]
      exact List.mem_cons_self
    · split
      · exact List.mem_cons_of_mem e hx
      · exact List.mem_cons_of_mem a (ih hx)

/-- The entry that was put is the one that is found by its identifier. -/
theorem find?_putBy_self : (putBy id e l).find? (fun y => id y = id e) = some e := by
  induction l with
  | nil => simp [putBy]
  | cons a l ih =>
    unfold putBy
    by_cases ha : id a = id e
    · simp [ha]
    · rw [if_neg ha, List.find?_cons_of_neg (by simpa using ha), ih]

/-- Putting an entry changes the identifiers only if its own one is new. -/
theorem map_putBy : (putBy id e l).map id =
    if id e ∈ l.map id then l.map id else l.map id ++ [id e] := by
  induction l with
  | nil => simp [putBy]
  | cons a l ih =>
    unfold putBy
    by_cases ha : id a = id e
    · simp [ha]
    · have ha' : ¬ id e = id a := fun h => ha h.symm
      rw [if_neg ha, List.map_cons, ih, List.map_cons]
      by_cases hl : id e ∈ l.map id
      · rw [if_pos hl, if_pos (List.mem_cons_of_mem (id a) hl)]
      · rw [if_neg hl, if_neg (fun h => hl ((List.mem_cons.mp h).resolve_left ha'))]
        rfl

theorem nodup_putBy (h : (l.map id).Nodup) : ((putBy id e l).map id).Nodup := by
  rw [map_putBy]
  split
  · exact h
  · next hnew =>
    rw [← List.concat_eq_append]
    exact h.concat hnew

/-- In a list with distinct identifiers, entries of one identifier are one entry. -/
theorem eq_of_id_eq (h : (l.map id).Nodup) (hx : x ∈ l) (hy : y ∈ l) (hid : id x = id y) : x = y :=
  List.inj_on_of_nodup_map h hx hy hid

theorem mem_putBy_iff (h : (l.map id).Nodup) :
    x ∈ putBy id e l ↔ x = e ∨ (x ∈ l ∧ id x ≠ id e) := by
  constructor
  · intro hx
    rcases mem_of_mem_putBy hx with rfl | hl
    · exact .inl rfl
    · by_cases hid : id x = id e
      · exact .inl (eq_of_id_eq (nodup_putBy h) hx mem_putBy_self hid)
      · exact .inr ⟨hl, hid⟩
  · rintro (rfl | ⟨hl, hid⟩)
    · exact mem_putBy_self
    · exact mem_putBy_of_ne hl hid

/-- Puts entries one after the other. -/
def putAll (id : α → Id) (es l : List α) : List α := es.foldl (fun l e => putBy id e l) l

theorem nodup_putAll {es : List α} (h : (l.map id).Nodup) : ((putAll id es l).map id).Nodup := by
  induction es generalizing l with
  | nil => exact h
  | cons e es ih => exact ih (nodup_putBy h)

/-- Entries with distinct identifiers take the places of those with their identifiers. -/
theorem mem_putAll_iff {es : List α} (hes : (es.map id).Nodup) (h : (l.map id).Nodup) :
    x ∈ putAll id es l ↔ x ∈ es ∨ (x ∈ l ∧ id x ∉ es.map id) := by
  induction es generalizing l with
  | nil => simp [putAll]
  | cons e es ih =>
    obtain ⟨hnot, hes⟩ := List.nodup_cons.mp hes
    rw [show putAll id (e :: es) l = putAll id es (putBy id e l) from rfl, ih hes (nodup_putBy h),
      mem_putBy_iff h, List.map_cons, List.mem_cons, List.mem_cons, not_or]
    constructor
    · rintro (hx | ⟨rfl | ⟨hx, hne⟩, hall⟩)
      · exact .inl (.inr hx)
      · exact .inl (.inl rfl)
      · exact .inr ⟨hx, hne, hall⟩
    · rintro ((rfl | hx) | ⟨hx, hne, hall⟩)
      · exact .inr ⟨.inl rfl, hnot⟩
      · exact .inl hx
      · exact .inr ⟨.inr ⟨hx, hne⟩, hall⟩

/-- An entry that is put changes nothing of a part of a list that neither it nor the entry in its
place belongs to. -/
theorem filter_putBy {p : α → Bool} (he : p e = false) (hl : ∀ x ∈ l, id x = id e → p x = false) :
    (putBy id e l).filter p = l.filter p := by
  induction l with
  | nil => simp [putBy, he]
  | cons a l ih =>
    have htail : (putBy id e l).filter p = l.filter p :=
      ih fun x hx => hl x (List.mem_cons_of_mem a hx)
    unfold putBy
    split
    · next ha =>
      have hp : p a = false := hl a List.mem_cons_self ha
      simp [he, hp]
    · rw [List.filter_cons, List.filter_cons, htail]

theorem filter_putAll {p : α → Bool} {es : List α} (hes : ∀ e ∈ es, p e = false)
    (hl : ∀ x ∈ l, id x ∈ es.map id → p x = false) : (putAll id es l).filter p = l.filter p := by
  induction es generalizing l with
  | nil => rfl
  | cons e es ih =>
    have he : p e = false := hes e List.mem_cons_self
    change (putAll id es (putBy id e l)).filter p = _
    rw [ih (fun e' he' => hes e' (List.mem_cons_of_mem e he')) fun x hx hid => ?_]
    · exact filter_putBy he fun x hx hid => hl x hx (hid ▸ List.mem_cons_self)
    · rcases mem_of_mem_putBy hx with rfl | hx
      · exact he
      · exact hl x hx (List.mem_cons_of_mem _ hid)

theorem putBy_of_new (he : id e ∉ l.map id) : putBy id e l = l ++ [e] := by
  induction l with
  | nil => rfl
  | cons a l ih =>
    obtain ⟨hne, hl⟩ := not_or.mp fun h => he (List.mem_cons.mpr h)
    unfold putBy
    rw [if_neg (Ne.symm hne), ih hl]
    rfl

/-- Entries with new identifiers come after those that are there. -/
theorem putAll_of_new {es : List α} (hes : (es.map id).Nodup) (hnew : ∀ e ∈ es, id e ∉ l.map id) :
    putAll id es l = l ++ es := by
  induction es generalizing l with
  | nil => exact (List.append_nil l).symm
  | cons e es ih =>
    obtain ⟨hnot, hes⟩ := List.nodup_cons.mp hes
    have hlater : ∀ e' ∈ es, id e' ∉ (l ++ [e]).map id := by
      intro e' he' hmem
      rw [List.map_append, List.mem_append] at hmem
      rcases hmem with hmem | hmem
      · exact hnew e' (List.mem_cons_of_mem e he') hmem
      · rw [← List.mem_singleton.mp hmem] at hnot
        exact hnot (List.mem_map_of_mem he')
    change putAll id es (putBy id e l) = _
    rw [putBy_of_new (hnew e List.mem_cons_self), ih hes hlater, List.append_assoc]
    rfl

/-- An entry changes nothing of a list that is like the one in its place. -/
theorem map_putBy_of_eq {β : Type} {f : α → β} (h : (l.map id).Nodup) (hx : x ∈ l)
    (hid : id x = id e) (hf : f e = f x) : (putBy id e l).map f = l.map f := by
  induction l with
  | nil => exact absurd hx List.not_mem_nil
  | cons a l ih =>
    have hl : (l.map id).Nodup := (List.nodup_cons.mp h).2
    unfold putBy
    split
    · next ha =>
      rw [List.map_cons, List.map_cons, hf, eq_of_id_eq h hx List.mem_cons_self (hid.trans ha.symm)]
    · next ha =>
      have hx : x ∈ l := (List.mem_cons.mp hx).resolve_left fun heq => ha (heq ▸ hid)
      rw [List.map_cons, List.map_cons, ih hl hx]

theorem nodup_map_filter {β : Type} {f : α → β} (p : α → Bool) (h : (l.map f).Nodup) :
    ((l.filter p).map f).Nodup :=
  h.sublist (List.filter_sublist.map f)

/-- The first entry with an identifier is the only one. -/
theorem find?_id_eq_some_iff (h : (l.map id).Nodup) {a : Id} :
    l.find? (fun y => id y = a) = some x ↔ x ∈ l ∧ id x = a := by
  constructor
  · intro hx
    exact ⟨List.mem_of_find?_eq_some hx, by simpa using List.find?_some hx⟩
  · rintro ⟨hx, rfl⟩
    obtain ⟨y, hy⟩ := Option.isSome_iff_exists.mp
      (List.find?_isSome.mpr ⟨x, hx, by simp⟩ : (l.find? fun y => id y = id x).isSome)
    have hid : id y = id x := by simpa using List.find?_some hy
    rw [hy, eq_of_id_eq h (List.mem_of_find?_eq_some hy) hx hid]

end Recount

/-! ## Results of calls -/

namespace Recount

section Results

variable {α : Type}

theorem Halt.ofCheck_eq_ok_iff {x : Except Error α} {a : α} :
    Halt.ofCheck x = .ok a ↔ x = .ok a := by
  cases x <;> simp [Halt.ofCheck, Except.mapError]

theorem Halt.ofArithmetic_eq_ok_iff {x : Except Overflow α} {a : α} :
    Halt.ofArithmetic x = .ok a ↔ x = .ok a := by
  cases x <;> simp [Halt.ofArithmetic, Except.mapError]

end Results

/-- A check that succeeds has seen the version that it expects in one of its stages. -/
theorem StatusChange.check_eq_ok_iff {change : StatusChange} {c : Count} {u : Unit} :
    change.check c = .ok u ↔
      c.status ∈ change.expected ∧ c.currentVersion = change.expectedVersion := by
  unfold StatusChange.check
  split
  · simp_all
  · split <;> simp_all

theorem Count.checkEditable_eq_ok_iff {c : Count} {u : Unit} :
    c.checkEditable = .ok u ↔ c.status.acceptsItems = true := by
  unfold Count.checkEditable
  split <;> simp_all

theorem Count.checkWritable_eq_ok_iff {c : Count} {version : Int} {u : Unit} :
    c.checkWritable version = .ok u ↔ c.status.acceptsItems = true ∧ c.currentVersion = version := by
  unfold Count.checkWritable
  rw [bind_eq_ok_iff]
  constructor
  · rintro ⟨_, hedit, h⟩
    split at h
    · cases h
    · next hversion => exact ⟨Count.checkEditable_eq_ok_iff.mp hedit, not_not.mp hversion⟩
  · rintro ⟨hedit, rfl⟩
    exact ⟨(), Count.checkEditable_eq_ok_iff.mpr hedit, by simp⟩

namespace Store

variable {s s' : Store} {supply : Supply}

theorem anyCount?_eq_some {id : Id} {c : Count} (h : s.anyCount? id = some c) :
    c ∈ s.counts ∧ c.id = id :=
  ⟨List.mem_of_find?_eq_some h, by simpa using List.find?_some h⟩

theorem count?_eq_some {tenant id : Id} {c : Count} (h : s.count? tenant id = some c) :
    c ∈ s.counts ∧ c.id = id ∧ c.tenant = tenant := by
  obtain ⟨hany, htenant⟩ := Option.filter_eq_some_iff.mp h
  obtain ⟨hmem, hid⟩ := anyCount?_eq_some hany
  exact ⟨hmem, hid, by simpa using htenant⟩

theorem item?_eq_some {count id : Id} {i : Item} (h : s.item? count id = some i) :
    i ∈ s.items ∧ i.id = id ∧ i.count = count := by
  obtain ⟨hfind, hcount⟩ := Option.filter_eq_some_iff.mp h
  exact ⟨List.mem_of_find?_eq_some hfind, by simpa using List.find?_some hfind,
    by simpa using hcount⟩

theorem itemByKey?_eq_some {key : Item.Key} {i : Item} (h : s.itemByKey? key = some i) :
    i ∈ s.items ∧ i.key = key :=
  ⟨List.mem_of_find?_eq_some h, by simpa using List.find?_some h⟩

theorem itemByKey?_eq_none_iff {key : Item.Key} :
    s.itemByKey? key = none ↔ ∀ i ∈ s.items, i.key ≠ key := by
  simp [itemByKey?]

theorem report?_eq_some {count id : Id} {r : Report} (h : s.report? count id = some r) :
    r ∈ s.reports ∧ r.id = id ∧ r.count = count := by
  obtain ⟨hfind, hcount⟩ := Option.filter_eq_some_iff.mp h
  exact ⟨List.mem_of_find?_eq_some hfind, by simpa using List.find?_some hfind,
    by simpa using hcount⟩

@[simp] theorem mem_itemsOf {count : Id} {version : Option Int} {i : Item} :
    i ∈ s.itemsOf count version ↔
      i ∈ s.items ∧ i.count = count ∧ ∀ v, version = some v → i.version = v := by
  cases version <;> simp [itemsOf]

theorem checkWritable_eq_ok {id : Id} {version : Int} {u : Unit}
    (h : s.checkWritable id version = .ok u) :
    ∃ c ∈ s.counts, c.id = id ∧ c.status.acceptsItems = true ∧ c.currentVersion = version := by
  obtain ⟨c, hc, hcheck⟩ := bind_eq_ok_iff.mp h
  obtain ⟨hmem, hid⟩ := anyCount?_eq_some (elim_eq_ok_iff.mp hc)
  obtain ⟨hedit, hversion⟩ := Count.checkWritable_eq_ok_iff.mp hcheck
  exact ⟨c, hmem, hid, hedit, hversion⟩

/-- The items of a transition that are written, as they are stored. -/
def written (items : List Item) (now : Time) : List Item :=
  items.map fun i => { i with updatedAt := now }

/-- A store with items put into it one after the other. -/
def putItems (s : Store) (items : List Item) : Store := items.foldl putItem s

/-- A store with reports put into it one after the other. -/
def putReports (s : Store) (reports : List Report) : Store := reports.foldl putReport s

/-- The checks of a transition find its count, which is in an expected stage and version. -/
theorem checkTransition_eq_ok {tenant id : Id} {t : Transition} {c : Count}
    (h : s.checkTransition tenant id t = .ok c) :
    s.count? tenant id = some c ∧ t.change.check c = .ok () ∧
      (t.change.target.isOpen = true → s.isBusy c = false) ∧
      ∀ i ∈ t.newItems, ∀ j ∈ s.items, j.key ≠ i.key := by
  obtain ⟨c₁, hfind, hcheck⟩ := bind_eq_ok_iff.mp h
  obtain ⟨_, hchange, hcheck⟩ := bind_eq_ok_iff.mp hcheck
  split at hcheck
  · cases hcheck
  · next hbusy =>
    obtain ⟨_, hnew, hc⟩ := bind_eq_ok_iff.mp hcheck
    cases hc
    refine ⟨elim_eq_ok_iff.mp hfind, hchange, fun hopen => by simpa [hopen] using hbusy, ?_⟩
    intro i hi
    unfold checkNew at hnew
    split at hnew
    · cases hnew
    · next hnone =>
      have hi := List.find?_eq_none.mp hnone i hi
      exact itemByKey?_eq_none_iff.mp (by simpa using hi)

/-- A transition that is made has passed its checks, and puts the count as it is changed, the items
that it settles, its new ones, and all their reports. -/
theorem change_eq_ok_iff {tenant id : Id} {t : Transition} {c' : Count} :
    s.change tenant id t supply = .ok (c', s') ↔
      ∃ c items reports, s.checkTransition tenant id t = .ok c ∧
        s.settled c t supply = .ok (items, reports) ∧ c' = t.change.apply c (supply.time 0) ∧
        s' = ((s.putCount c').putItems (written (items ++ t.newItems) (supply.time 0))).putReports
          (t.reports ++ reports) := by
  constructor
  · intro h
    obtain ⟨c, hcheck, h⟩ := bind_eq_ok_iff.mp h
    obtain ⟨⟨items, reports⟩, hsettled, h⟩ := bind_eq_ok_iff.mp h
    refine ⟨c, items, reports, Halt.ofCheck_eq_ok_iff.mp hcheck,
      Halt.ofArithmetic_eq_ok_iff.mp hsettled, ?_⟩
    cases h
    simp [putItems, putReports, written, List.foldl_map]
  · rintro ⟨c, items, reports, hcheck, hsettled, rfl, rfl⟩
    refine bind_eq_ok_iff.mpr ⟨c, Halt.ofCheck_eq_ok_iff.mpr hcheck, bind_eq_ok_iff.mpr
      ⟨(items, reports), Halt.ofArithmetic_eq_ok_iff.mpr hsettled, ?_⟩⟩
    simp [putItems, putReports, written, List.foldl_map]

/-- A transition that is made has found its count in an expected stage and version. -/
theorem change_eq_ok {tenant id : Id} {t : Transition} {c' : Count}
    (h : s.change tenant id t supply = .ok (c', s')) :
    ∃ c ∈ s.counts, c.id = id ∧ c.tenant = tenant ∧ c.status ∈ t.change.expected ∧
      c.currentVersion = t.change.expectedVersion ∧
      (t.change.target.isOpen = true → s.isBusy c = false) ∧
      (∀ i ∈ t.newItems, ∀ j ∈ s.items, j.key ≠ i.key) ∧
      ∃ items reports, s.settled c t supply = .ok (items, reports) ∧
        c' = t.change.apply c (supply.time 0) ∧
        s' = ((s.putCount c').putItems (written (items ++ t.newItems) (supply.time 0))).putReports
          (t.reports ++ reports) := by
  obtain ⟨c, items, reports, hcheck, hsettled, hc', hs'⟩ := change_eq_ok_iff.mp h
  obtain ⟨hfind, hchange, hbusy, hnew⟩ := checkTransition_eq_ok hcheck
  obtain ⟨hmem, hid, htenant⟩ := count?_eq_some hfind
  obtain ⟨hstatus, hversion⟩ := StatusChange.check_eq_ok_iff.mp hchange
  exact ⟨c, hmem, hid, htenant, hstatus, hversion, hbusy, hnew, items, reports, hsettled, hc', hs'⟩

theorem deleteCount_eq_ok {tenant id : Id} {allowed : List Status} {u : Unit}
    (h : s.deleteCount tenant id allowed = .ok (u, s')) :
    ∃ c ∈ s.counts, c.id = id ∧ c.tenant = tenant ∧ c.status ∈ allowed ∧
      s' = { s with
        counts := s.counts.filter (·.id ≠ id)
        items := s.items.filter (·.count ≠ id)
        reports := s.reports.filter (·.count ≠ id)
        attempts := s.attempts.filter (·.count ≠ id) } := by
  obtain ⟨c, hfind, h⟩ := bind_eq_ok_iff.mp h
  obtain ⟨hmem, hid, htenant⟩ :=
    count?_eq_some (elim_eq_ok_iff.mp (Halt.ofCheck_eq_ok_iff.mp hfind))
  split at h
  · next hallowed =>
    cases h
    exact ⟨c, hmem, hid, htenant, by simpa using hallowed, rfl⟩
  · cases h

/-- An item that is refreshed keeps what was counted, and its variance is computed anew. -/
theorem upsertItem_eq_ok {new i : Item} {outcome : UpsertOutcome}
    (h : s.upsertItem new supply = .ok ((i, outcome), s')) :
    ∃ c ∈ s.counts, c.id = new.count ∧ c.status.acceptsItems = true ∧
      c.currentVersion = new.version ∧
      ((∀ j ∈ s.items, j.key ≠ new.key) ∧ i = new ∧ s' = s.putItem new ∨
        ∃ old ∈ s.items, old.key = new.key ∧
          (old.countedQty = none ∧ i = refresh old new (supply.time 0) ∧ s' = s.putItem i ∨
            ∃ counted report, old.countedQty = some counted ∧
              (refresh old new (supply.time 0)).withCounted counted = .ok i ∧
              i.report? (supply.id 0) (supply.time 1) = .ok report ∧
              s' = (s.changeReport i (.ofReport? report)).putItem i)) := by
  obtain ⟨_, hcheck, h⟩ := bind_eq_ok_iff.mp h
  obtain ⟨c, hmem, hid, hedit, hversion⟩ := checkWritable_eq_ok (Halt.ofCheck_eq_ok_iff.mp hcheck)
  refine ⟨c, hmem, hid, hedit, hversion, ?_⟩
  split at h
  · next hnone =>
    cases h
    exact .inl ⟨itemByKey?_eq_none_iff.mp hnone, rfl, rfl⟩
  · next old hold =>
    obtain ⟨hold, hkey⟩ := itemByKey?_eq_some hold
    refine .inr ⟨old, hold, hkey, ?_⟩
    dsimp only at h
    split at h
    · next hcounted =>
      cases h
      exact .inl ⟨hcounted, rfl, rfl⟩
    · next counted hcounted =>
      obtain ⟨item, hitem, h⟩ := bind_eq_ok_iff.mp h
      obtain ⟨report, hreport, h⟩ := bind_eq_ok_iff.mp h
      cases h
      exact .inr ⟨counted, report, hcounted, Halt.ofArithmetic_eq_ok_iff.mp hitem,
        Halt.ofArithmetic_eq_ok_iff.mp hreport, rfl⟩

/-- Whether there was an item with the key tells whether one was inserted. -/
theorem upsertItem_outcome {new i : Item} {outcome : UpsertOutcome}
    (h : s.upsertItem new supply = .ok ((i, outcome), s')) :
    outcome = if (s.itemByKey? new.key).isSome then .updated else .inserted := by
  obtain ⟨_, -, h⟩ := bind_eq_ok_iff.mp h
  cases hold : s.itemByKey? new.key with
  | none =>
    rw [hold] at h
    cases h
    rfl
  | some old =>
    rw [hold] at h
    dsimp only at h
    split at h
    · cases h
      rfl
    · obtain ⟨_, -, h⟩ := bind_eq_ok_iff.mp h
      obtain ⟨_, -, h⟩ := bind_eq_ok_iff.mp h
      cases h
      rfl

theorem insertItem_eq_ok {new i : Item} (h : s.insertItem new = .ok (i, s')) :
    ∃ c ∈ s.counts, c.id = new.count ∧ c.status.acceptsItems = true ∧
      c.currentVersion = new.version ∧ (∀ j ∈ s.items, j.key ≠ new.key) ∧ i = new ∧
      s' = s.putItem new := by
  obtain ⟨_, hcheck, h⟩ := bind_eq_ok_iff.mp h
  obtain ⟨c, hmem, hid, hedit, hversion⟩ := checkWritable_eq_ok (Halt.ofCheck_eq_ok_iff.mp hcheck)
  split at h
  · cases h
  · next hnone =>
    cases h
    exact ⟨c, hmem, hid, hedit, hversion, itemByKey?_eq_none_iff.mp (by simpa using hnone), rfl, rfl⟩

theorem recordItem_eq_ok {new i : Item} {report : ReportChange} {now : Time}
    (h : s.recordItem new report now = .ok (i, s')) :
    ∃ stored ∈ s.items, stored.id = new.id ∧ stored.count = new.count ∧
      ∃ c ∈ s.counts, c.id = new.count ∧ c.status.acceptsItems = true ∧
        c.currentVersion = stored.version ∧ i = { new with updatedAt := now } ∧
        s' = (s.putItem i).changeReport i report := by
  unfold recordItem at h
  split at h
  · next stored hstored =>
    obtain ⟨hmem, hid, hcount⟩ := item?_eq_some hstored
    obtain ⟨_, hcheck, h⟩ := bind_eq_ok_iff.mp h
    obtain ⟨c, hc, hcid, hedit, hversion⟩ :=
      checkWritable_eq_ok (Halt.ofCheck_eq_ok_iff.mp hcheck)
    cases h
    exact ⟨stored, hmem, hid, hcount, c, hc, hcid, hedit, hversion, rfl, rfl⟩
  · cases h

theorem saveReport_eq_ok {r saved : Report} {now : Time}
    (h : s.saveReport r now = .ok (saved, s')) :
    (∃ old ∈ s.reports, old.id = r.id) ∧ saved = { r with updatedAt := now } ∧
      s' = { s with reports := putBy Report.id saved s.reports } := by
  unfold saveReport at h
  split at h
  · next hany =>
    cases h
    exact ⟨by simpa using hany, rfl, rfl⟩
  · cases h

end Store
end Recount
