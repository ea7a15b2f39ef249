import Mathlib.Data.List.Dedup
import Recount.Loading.Store
import Recount.Proofs.Concurrent.Alone
import Recount.Proofs.Loading.Upserting

/-!
# Records in a store

Records are merged until there is one for every code, so each of them is stored under a key of its
own. What storing one of them leaves there, storing the others does not touch.
-/

namespace Recount

/-- What a record tells the system of its item. -/
def ItemRecord.known (r : ItemRecord) : Item.Known :=
  ⟨r.displayName, r.uom, r.packQty, r.systemQty.getD .zero, r.cost, r.price, r.barcodes, r.category,
    r.brand⟩

namespace ItemRecord

variable {record : ItemRecord} {records merged before : List ItemRecord}

/-- Absorbing a record changes the codes only if its own one is new. -/
theorem codes_absorb (h : absorb record records = .ok merged) :
    merged.map (·.code) =
      if record.code ∈ records.map (·.code) then records.map (·.code)
      else records.map (·.code) ++ [record.code] := by
  induction records generalizing merged with
  | nil =>
    cases h
    rfl
  | cons r rest ih =>
    unfold absorb at h
    split at h
    · next hcode =>
      obtain ⟨both, hboth, rfl⟩ := map_eq_ok_iff.mp h
      obtain ⟨_, -, rfl⟩ := map_eq_ok_iff.mp hboth
      simp [hcode]
    · next hcode =>
      obtain ⟨rest', hrest, rfl⟩ := map_eq_ok_iff.mp h
      have hne : ¬ record.code = r.code := fun heq => hcode heq.symm
      rw [List.map_cons, List.map_cons, ih hrest]
      by_cases hmem : record.code ∈ rest.map (·.code)
      · rw [if_pos hmem, if_pos (List.mem_cons_of_mem _ hmem)]
      · rw [if_neg hmem, if_neg fun h => hmem ((List.mem_cons.mp h).resolve_left hne)]
        rfl

/-- What was merged before and the records have one record for each of their codes. -/
theorem codes_foldlM
    (h : records.foldlM (fun merged record => absorb record merged) before = .ok merged)
    (hbefore : (before.map (·.code)).Nodup) :
    (merged.map (·.code)).Nodup ∧ ∀ code, code ∈ merged.map (·.code) ↔
      code ∈ before.map (·.code) ∨ code ∈ records.map (·.code) := by
  induction records generalizing before with
  | nil =>
    cases h
    exact ⟨hbefore, fun code => by simp⟩
  | cons record records ih =>
    obtain ⟨next, hnext, h⟩ := bind_eq_ok_iff.mp h
    have hcodes := codes_absorb hnext
    have hnodup : (next.map (·.code)).Nodup := by
      rw [hcodes]
      split
      · exact hbefore
      · next hnew =>
        rw [← List.concat_eq_append]
        exact hbefore.concat hnew
    have hnextmem : ∀ code, code ∈ next.map (·.code) ↔
        code ∈ before.map (·.code) ∨ code = record.code := by
      intro code
      rw [hcodes]
      split
      · next hold => exact ⟨.inl, fun h => h.elim id fun heq => heq ▸ hold⟩
      · rw [List.mem_append, List.mem_singleton]
    obtain ⟨hmerged, hmem⟩ := ih h hnodup
    refine ⟨hmerged, fun code => ?_⟩
    rw [hmem code, hnextmem code, List.map_cons, List.mem_cons, or_assoc]

/-- Records are merged into one record for each of their codes. -/
theorem codes_dedupe (h : dedupe records = .ok merged) :
    (merged.map (·.code)).Perm (records.map (·.code)).dedup := by
  obtain ⟨hnodup, hmem⟩ := codes_foldlM h List.nodup_nil
  refine (List.perm_ext_iff_of_nodup hnodup (List.nodup_dedup _)).mpr fun code => ?_
  rw [hmem code, List.mem_dedup]
  exact or_iff_right List.not_mem_nil

end ItemRecord

namespace Loading

open Concurrent (Scene Ending Fresh)
open Store (Sound Upserted Current)

section Summaries

variable {us : List (Item × Except Error (Item × UpsertOutcome))}

def wasInserted : Item × Except Error (Item × UpsertOutcome) → Bool
  | (_, .ok (_, .inserted)) => true
  | _ => false

def wasUpdated : Item × Except Error (Item × UpsertOutcome) → Bool
  | (_, .ok (_, .updated)) => true
  | _ => false

/-- The items that were refused, each with the reason. -/
def refusals (us : List (Item × Except Error (Item × UpsertOutcome))) : List ItemError :=
  us.filterMap fun
    | (_, .ok _) => none
    | (i, .error e) => some ⟨i.code, e.message⟩

/-- A summary with the results for some more items. -/
def Summary.addAll (s : Summary) (us : List (Item × Except Error (Item × UpsertOutcome))) :
    Summary :=
  { s with
    inserted := s.inserted + us.countP wasInserted
    updated := s.updated + us.countP wasUpdated
    failed := s.failed + (refusals us).length
    errors := s.errors ++ refusals us }

theorem foldl_add {s : Summary} : us.foldl (fun s u => s.add u.1.code u.2) s = s.addAll us := by
  induction us generalizing s with
  | nil => simp [Summary.addAll, refusals]
  | cons u us ih =>
    rw [List.foldl_cons, ih]
    rcases u with ⟨i, e | ⟨j, _ | _⟩⟩ <;>
      simp [Summary.addAll, Summary.add, refusals, wasInserted, wasUpdated, List.countP_cons,
        Nat.add_assoc, Nat.add_comm 1]

/-- Every item is inserted, updated or refused. -/
theorem countP_add_length_refusals :
    us.countP wasInserted + us.countP wasUpdated + (refusals us).length = us.length := by
  induction us with
  | nil => rfl
  | cons u us ih =>
    rw [List.length_cons, ← ih]
    rcases u with ⟨i, e | ⟨j, _ | _⟩⟩ <;>
      simp only [refusals, List.countP_cons, List.filterMap_cons, wasInserted, wasUpdated,
        List.length_cons, if_true, Bool.false_eq_true, if_false] <;> omega

end Summaries

/-- The key under which a record is stored. -/
def keyOf (count : Count) (location : Id) (r : ItemRecord) : Item.Key :=
  ⟨count.id, location, r.code, count.currentVersion⟩

/-- What storing records, one for each code, makes of a store: under the key of each of them there
is one item, with what the record says and with what was counted before. All other items and their
reports stay as they are. -/
structure Stored (count : Count) (location : Id) (records : List ItemRecord) (s s' : Store) :
    Prop where
  carried : ∀ r ∈ records, ∃ i,
    (∀ j, j ∈ s'.items ∧ j.key = keyOf count location r ↔ j = i) ∧ i.known = r.known ∧
      s'.Current i ∧ ∀ old ∈ s.items, old.key = i.key → i.tally = old.tally
  items : ∀ i, (∀ r ∈ records, i.key ≠ keyOf count location r) → (i ∈ s'.items ↔ i ∈ s.items)
  reports : ∀ q, (∀ i ∈ s'.items, i.id = q.item → ∀ r ∈ records, i.key ≠ keyOf count location r) →
    (q ∈ s'.reports ↔ q ∈ s.reports)
  others : s' = { s with items := s'.items, reports := s'.reports }

variable {count : Count} {location : Id} {r other : ItemRecord} {records : List ItemRecord}
  {s s₁ s' : Store} {i new : Item} {outcome : UpsertOutcome}

theorem keyOf_ne (h : r.code ≠ other.code) : keyOf count location r ≠ keyOf count location other :=
  fun heq => h (congrArg Item.Key.code heq)

theorem Stored.nil : Stored count location [] s s where
  carried _ hr := absurd hr List.not_mem_nil
  items _ _ := Iff.rfl
  reports _ _ := Iff.rfl
  others := rfl

/-- A record is stored before others. -/
theorem Stored.cons (h : Upserted s new i outcome s₁) (hkey : new.key = keyOf count location r)
    (hknown : new.known = r.known) (hrest : Stored count location records s₁ s') (hs' : s'.Sound)
    (hdistinct : ∀ other ∈ records, r.code ≠ other.code) :
    Stored count location (r :: records) s s' := by
  have hikey : i.key = keyOf count location r := h.key.trans hkey
  have hapart : ∀ other ∈ records, keyOf count location r ≠ keyOf count location other :=
    fun other hother => keyOf_ne (hdistinct other hother)
  have hstays : ∀ j, j.key = keyOf count location r → (j ∈ s'.items ↔ j ∈ s₁.items) := fun j hj =>
    hrest.items j fun other hother => hj ▸ hapart other hother
  have hi : i ∈ s'.items := (hstays i hikey).mpr ((h.items i).mpr (.inl rfl))
  refine ⟨fun other hother => ?_, fun j hj => ?_, fun q hq => ?_, ?_⟩
  · rcases List.mem_cons.mp hother with rfl | hother
    · refine ⟨i, fun j => ⟨fun ⟨hj, hjkey⟩ => hs'.eq_of_key hj hi (hjkey.trans hikey.symm), ?_⟩,
        h.known.trans hknown, h.current.congr fun q hitem => hrest.reports q fun j hj hjid => ?_,
        fun old hold hokey => h.kept old hold (hokey.trans h.key)⟩
      · rintro rfl
        exact ⟨hi, hikey⟩
      · rw [eq_of_id_eq hs'.items_nodup hj hi (hjid.trans hitem), hikey]
        exact hapart
    · obtain ⟨k, honly, hkknown, hcurrent, hkept⟩ := hrest.carried other hother
      have hkkey : k.key = keyOf count location other := ((honly k).mpr rfl).2
      refine ⟨k, honly, hkknown, hcurrent, fun old hold hokey => hkept old ?_ hokey⟩
      refine (h.items old).mpr (.inr ⟨hold, ?_⟩)
      rw [hokey, hkkey, hkey]
      exact (hapart other hother).symm
  · obtain ⟨hhead, htail⟩ := List.forall_mem_cons.mp hj
    rw [hrest.items j htail, h.items j, hkey, and_iff_left hhead]
    exact or_iff_right fun heq => hhead (heq ▸ hikey)
  · have htail : q ∈ s'.reports ↔ q ∈ s₁.reports :=
      hrest.reports q fun j hj hjid => (List.forall_mem_cons.mp (hq j hj hjid)).2
    have hitem : q.item ≠ i.id := fun heq =>
      (List.forall_mem_cons.mp (hq i hi heq.symm)).1 hikey
    rw [htail, h.reports q hitem]
  · rw [hrest.others, h.others]

/-- A store to which a count belongs that accepts items. All its identifiers were drawn. -/
structure Ready (count : Count) (σ : Scene) : Prop where
  sound : σ.store.Sound
  drawn : ∀ id ∈ σ.store.ids, id ∈ σ.drawn
  stored : count ∈ σ.store.counts
  acceptsItems : count.status.acceptsItems = true

section Storing

variable {summary : Summary} {post : Ending Summary → Scene → Prop} {σ : Scene} {id : Id}
  {supply : Supply}

/-- What is drawn for a record and for storing it is new to the store. -/
theorem Ready.areNew (h : Ready count σ) (hid : id ∉ σ.drawn)
    (hfresh : Fresh (id :: σ.drawn) supply σ.store.demand) :
    σ.store.AreNew (id :: supply.ids σ.store.demand) [id] ∧
      σ.store.AreNew (id :: supply.ids σ.store.demand) (supply.ids σ.store.demand) where
  left :=
    { nodup := List.nodup_singleton id
      mem := List.forall_mem_singleton.mpr List.mem_cons_self
      unused := List.forall_mem_singleton.mpr fun hmem => hid (h.drawn id hmem) }
  right :=
    { nodup := hfresh.1
      mem := fun _ => List.mem_cons_of_mem id
      unused := fun other hother hmem =>
        hfresh.2 other hother (List.mem_cons_of_mem id (h.drawn other hmem)) }

/-- What a record is stored as fits, and more can be stored after it. -/
theorem Ready.upserted {time : Time} {past : List Concurrent.Exchange} (h : Ready count σ)
    (hid : id ∉ σ.drawn) (hfresh : Fresh (id :: σ.drawn) supply σ.store.demand)
    (hanswer : σ.store.upsertItem (itemOfRecord count location r id time) supply =
      .ok ((i, outcome), s')) :
    Upserted σ.store (itemOfRecord count location r id time) i outcome s' ∧
      Ready count ⟨s', supply.ids σ.store.demand ++ id :: σ.drawn, past⟩ := by
  obtain ⟨hnew, hsupply⟩ := h.areNew hid hfresh
  have hfits : (itemOfRecord count location r id time).Uncounted ∧
      σ.store.AreNew (id :: supply.ids σ.store.demand) [id] := ⟨⟨rfl, rfl, rfl, rfl⟩, hnew⟩
  have hnext := h.sound.upsertItem hfits hsupply hanswer
  have hupserted := h.sound.upserted hfits hsupply hanswer
  refine ⟨hupserted, hnext.sound, fun other hother => ?_, ?_, h.acceptsItems⟩
  · rw [List.mem_append, List.mem_cons]
    rcases hnext.evolves.mem_ids hother with hnew | hold
    · exact (List.mem_cons.mp hnew).elim (fun heq => .inr (.inl heq)) .inl
    · exact .inr (.inr (h.drawn other hold))
  · change count ∈ s'.counts
    rw [hupserted.others]
    exact h.stored

/-- A record is stored, unless the variance of what was counted before cannot be computed, and the
other records after it. -/
theorem leads_storeAll_cons (h : Ready count σ)
    (hcomputes : ∀ i ∈ σ.store.items, i.key = keyOf count location r → ∀ counted,
      i.countedQty = some counted → Computes r.known.systemQty counted)
    (hrest : ∀ new i outcome σ', new.key = keyOf count location r → new.known = r.known →
      Ready count σ' → Upserted σ.store new i outcome σ'.store →
      Action.Leads post
        (storeAll count location (summary.add r.code (.ok (i, outcome))) records) σ') :
    Action.Leads post (storeAll count location summary (r :: records)) σ := by
  unfold storeAll
  simp only [Action.leads_bind, Action.leads_now, Action.andThen_success, Action.leads_freshId,
    Action.leads_attempt, Action.leads_counts]
  intro time id hid supply hfresh
  let new := itemOfRecord count location r id time
  obtain ⟨i, outcome, s', hanswer⟩ : ∃ i outcome s',
      σ.store.upsertItem new supply = .ok ((i, outcome), s') :=
    h.sound.exists_upsertItem h.stored rfl h.acceptsItems rfl hcomputes
  obtain ⟨hupserted, hready⟩ := h.upserted hid hfresh hanswer
  have hcall : σ.store.answerCounts supply (.upsertItem new) = .ok ((i, outcome), s') := hanswer
  change Action.Answered (.counts (.upsertItem new)) _ _ _
    (σ.store.answerCounts supply (.upsertItem new))
  rw [hcall]
  exact hrest new i outcome _ rfl rfl hready hupserted

/-- Records are stored, one for each code. -/
theorem leads_storeAll (h : Ready count σ) (hdistinct : records.Pairwise (·.code ≠ ·.code))
    (hcomputes : ∀ r ∈ records, ∀ i ∈ σ.store.items, i.key = keyOf count location r →
      ∀ counted, i.countedQty = some counted → Computes r.known.systemQty counted) :
    Action.Leads (fun ending σ' => Ready count σ' ∧
        Stored count location records σ.store σ'.store ∧
        ∃ inserted updated, inserted + updated = records.length ∧
          ending = .success { summary with
            inserted := summary.inserted + inserted, updated := summary.updated + updated })
      (storeAll count location summary records) σ := by
  induction records generalizing σ summary with
  | nil => exact ⟨h, .nil, 0, 0, rfl, rfl⟩
  | cons r records ih =>
    obtain ⟨hhead, htail⟩ := List.forall_mem_cons.mp hcomputes
    obtain ⟨hdiffers, hdistinct⟩ := List.pairwise_cons.mp hdistinct
    refine leads_storeAll_cons h hhead fun new i outcome σ' hkey hknown hready hupserted => ?_
    refine (ih hready hdistinct fun other hother j hj hjkey => ?_).mono ?_
    · -- what is stored by now under another key was stored before
      rcases (hupserted.items j).mp hj with rfl | ⟨hj, -⟩
      · exact absurd (hupserted.key.symm.trans hjkey) (hkey ▸ keyOf_ne (hdiffers other hother))
      · exact htail other hother j hj hjkey
    · rintro ending σ'' ⟨hready', hstored, inserted, updated, hsum, rfl⟩
      refine ⟨hready', .cons hupserted hkey hknown hstored hready'.sound hdiffers, ?_⟩
      cases outcome with
      | inserted =>
        refine ⟨inserted + 1, updated, by rw [List.length_cons]; omega, ?_⟩
        simp only [Summary.add, Nat.add_assoc, Nat.add_comm 1]
      | updated =>
        refine ⟨inserted, updated + 1, by rw [List.length_cons]; omega, ?_⟩
        simp only [Summary.add, Nat.add_assoc, Nat.add_comm 1]

/-- Records that are stored already change only times of last changes. -/
theorem leads_storeAll_again (h : Ready count σ) (hdistinct : records.Pairwise (·.code ≠ ·.code))
    (hcarried : ∀ r ∈ records, ∃ i ∈ σ.store.items, i.key = keyOf count location r ∧
      i.known = r.known ∧ σ.store.Current i) :
    Action.Leads (fun ending σ' => σ'.store.unstamped = σ.store.unstamped ∧
        ending = .success { summary with updated := summary.updated + records.length })
      (storeAll count location summary records) σ := by
  induction records generalizing σ summary with
  | nil => exact ⟨rfl, rfl⟩
  | cons r records ih =>
    obtain ⟨⟨old, hold, hokey, hoknown, hcurrent⟩, htail⟩ := List.forall_mem_cons.mp hcarried
    obtain ⟨hdiffers, hdistinct⟩ := List.pairwise_cons.mp hdistinct
    have hcomputes : ∀ j ∈ σ.store.items, j.key = keyOf count location r → ∀ counted,
        j.countedQty = some counted → Computes r.known.systemQty counted := by
      intro j hj hjkey counted hcounted
      rw [← hoknown, h.sound.eq_of_key hold hj (hokey.trans hjkey.symm)]
      exact (h.sound.consistent j hj).computes hcounted
    refine leads_storeAll_cons h hcomputes fun new i outcome σ' hkey hknown hready hupserted => ?_
    obtain ⟨rfl, hunstamped⟩ :=
      hupserted.again old hold (hokey.trans hkey.symm) (hoknown.trans hknown.symm) hcurrent
    refine (ih hready hdistinct fun other hother => ?_).mono ?_
    · obtain ⟨j, hj, hjkey, hjknown, hjcurrent⟩ := htail other hother
      have hne : j.key ≠ new.key := by
        rw [hjkey, hkey]
        exact (keyOf_ne (hdiffers other hother)).symm
      have hj' := (hupserted.items j).mpr (.inr ⟨hj, hne⟩)
      refine ⟨j, hj', hjkey, hjknown,
        hjcurrent.congr fun q hitem => hupserted.reports q fun heq => ?_⟩
      have hi' := (hupserted.items i).mpr (.inl rfl)
      have hsame := eq_of_id_eq hready.sound.items_nodup hj' hi' (hitem.symm.trans heq)
      exact hne (hsame ▸ hupserted.key)
    · rintro ending σ'' ⟨hsame, rfl⟩
      refine ⟨hsame.trans hunstamped, ?_⟩
      simp only [Summary.add, List.length_cons, Nat.add_assoc, Nat.add_comm 1]

end Storing

end Loading

end Recount
