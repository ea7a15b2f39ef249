import Recount.Proofs.Concurrent.Replay
import Recount.Proofs.Concurrent.Sound
import Recount.Proofs.Loading.Storing
import Recount.Proofs.Tenant.Performing

/-!
# Loading again

A load enters what the system knows, one item for each code, and never touches what was counted.
Loading the same records once more finds everything as it should be: it only renews the times of the
last changes.
-/

namespace Recount.Loading

open Concurrent (World Reachable Exchange Scene Ending nobody)

variable {count : Count} {location : Id} {records merged : List ItemRecord} {s : Summary} {σ : Scene}

/-- Records that can be merged are stored as the merged ones are. -/
theorem leads_storeRecords {post : Ending Summary → Scene → Prop}
    (hmerged : ItemRecord.dedupe records = .ok merged) :
    Action.Leads post (storeRecords count location s records) σ ↔
      Action.Leads post (storeAll count location { s with items := merged.length } merged) σ := by
  unfold storeRecords
  rw [hmerged, Action.leads_bind, Action.leads_arithmetic_ok, Action.andThen_success]

/-- A load that is not interrupted stores one item for each code of its records, with what the
merged record says, and lets stand what was counted; all other items and their reports stay as they
are. Nothing fails, as long as the variance of what was counted can be computed. The same load once
more inserts nothing and updates each of these items, and only times of last changes are not as
before. -/
theorem reload_idempotent {sources : Sources} {w : World} (hw : Reachable sources nobody w)
    (count : Count) (hcount : count ∈ w.store.counts)
    (hopen : count.status = .draft ∨ count.status = .active) (location : Id)
    (records merged : List ItemRecord) (hmerged : ItemRecord.dedupe records = .ok merged)
    (hcomputes : ∀ r ∈ merged, ∀ i ∈ w.store.items, i.key = keyOf count location r →
      ∀ counted, i.countedQty = some counted → Computes (r.systemQty.getD .zero) counted) :
    (merged.map (·.code)).Perm (records.map (·.code)).dedup ∧
    ∀ (s : Summary) (past : List Exchange) (ending : Ending Summary) (σ : Scene),
      (storeRecords count location s records).Runs ⟨w.store, w.drawn, past⟩ ending σ →
      Stored count location merged w.store σ.store ∧
      (∃ inserted updated, inserted + updated = merged.length ∧
        ending = .success { s with
          items := merged.length
          inserted := s.inserted + inserted
          updated := s.updated + updated }) ∧
      ∀ (s' : Summary) (ending' : Ending Summary) (σ' : Scene),
        (storeRecords count location s' records).Runs σ ending' σ' →
        ending' = .success { s' with
          items := merged.length
          updated := s'.updated + merged.length } ∧
        σ'.store.unstamped = σ.store.unstamped := by
  have hcodes := ItemRecord.codes_dedupe hmerged
  have hdistinct : merged.Pairwise (·.code ≠ ·.code) :=
    List.pairwise_map.mp (hcodes.nodup_iff.mpr (List.nodup_dedup _))
  have hready : ∀ past, Ready count ⟨w.store, w.drawn, past⟩ := fun past =>
    { sound := hw.sound.store
      drawn := fun id hid => (hw.sound.known id hid).1
      stored := hcount
      acceptsItems := by rcases hopen with h | h <;> rw [h] <;> rfl }
  refine ⟨hcodes, fun s past ending σ hrun => ?_⟩
  obtain ⟨hready', hstored, hending⟩ := Action.leads_iff_runs.mp
    ((leads_storeRecords hmerged).mpr (leads_storeAll (hready past) hdistinct hcomputes)) _ _ hrun
  refine ⟨hstored, hending, fun s' ending' σ' hagain => ?_⟩
  have hcarried : ∀ r ∈ merged, ∃ i ∈ σ.store.items, i.key = keyOf count location r ∧
      i.known = r.known ∧ σ.store.Current i := by
    intro r hr
    obtain ⟨i, honly, hknown, hcurrent, -⟩ := hstored.carried r hr
    obtain ⟨hi, hkey⟩ := (honly i).mpr rfl
    exact ⟨i, hi, hkey, hknown, hcurrent⟩
  obtain ⟨hsame, hending'⟩ := Action.leads_iff_runs.mp
    ((leads_storeRecords hmerged).mpr (leads_storeAll_again hready' hdistinct hcarried)) _ _ hagain
  exact ⟨hending', hsame⟩

section Replay

open Concurrent (Surroundings played played_reachable newCount newItem noSources goIn goOn
  roundSupply calm oneDigit)

/-- An item is added to a count, of which the system knows none and seven were counted. -/
def sevenCounted : World := played noSources
  (.begin newCount :: goIn 1 0 :: .begin (newItem "A" (some (oneDigit 7))) :: goOn 2 1 8)

/-- The count of the item. -/
def countOfSeven : Count := sevenCounted.store.counts.head?.getD default

/-- What the system knows of a code. -/
def recordOf (code : String) (n : Nat) : ItemRecord :=
  ⟨code, none, some (oneDigit n), none, none, none, none, none, none, none⟩

/-- Three records of two items: the system knows of seven of the item that was counted. -/
def splitRecords : List ItemRecord := [recordOf "A" 3, recordOf "B" 2, recordOf "A" 4]

/-- The records are loaded, as from a file. -/
def loadedOnce : Action Summary :=
  storeRecords countOfSeven (.ofNat 5) { source := .file, version := 1 } splitRecords

/-- The records are loaded twice. -/
def loadedTwice : Action (Summary × Summary) := do
  let first ← loadedOnce
  let second ← loadedOnce
  return (first, second)

/-- Identifiers and times are drawn by rounds. -/
def fromRound (first : Nat) : Surroundings where
  draw k :=
    { id := (roundSupply (first + k)).id
      report := fun item => item
      time := (roundSupply (first + k)).time }
  erp _ _ := calm

/-- How many items a load inserted and updated. -/
def Summary.stored (s : Summary) : Nat × Nat := (s.inserted, s.updated)

theorem reload_idempotent_sevenCounted :
    ∃ s₁ s₂ σ σ', loadedOnce.Runs ⟨sevenCounted.store, sevenCounted.drawn, []⟩ (.success s₁) σ ∧
      s₁.stored = (1, 1) ∧
      Stored countOfSeven (.ofNat 5) [recordOf "A" 7, recordOf "B" 2] sevenCounted.store σ.store ∧
      loadedOnce.Runs σ (.success s₂) σ' ∧ s₂.stored = (0, 2) ∧
      σ'.store.unstamped = σ.store.unstamped := by
  have hfresh : (fromRound 30).FreshFor loadedTwice.run sevenCounted.store sevenCounted.drawn 0 :=
    by decide +kernel
  have hresult : (((fromRound 30).perform loadedTwice sevenCounted.store).1.toOption.bind
      Except.toOption).map (fun loads => (loads.1.stored, loads.2.stored)) =
        some ((1, 1), (0, 2)) := by
    decide +kernel
  have hcount : countOfSeven ∈ sevenCounted.store.counts ∧ countOfSeven.status = .draft := by
    decide +kernel
  have hmerged : ItemRecord.dedupe splitRecords = .ok [recordOf "A" 7, recordOf "B" 2] := by
    decide +kernel
  have hcounted : ∀ i ∈ sevenCounted.store.items, i.countedQty = some (oneDigit 7) := by
    decide +kernel
  have hcomputes : ∀ r ∈ [recordOf "A" 7, recordOf "B" 2],
      Computes (r.systemQty.getD .zero) (oneDigit 7) := by
    decide +kernel
  obtain ⟨-, hloads⟩ := reload_idempotent (played_reachable fun _ _ h => h) countOfSeven
    hcount.1 (.inl hcount.2) (.ofNat 5) splitRecords _ hmerged fun r hr i hi _ counted heq => by
      cases (hcounted i hi).symm.trans heq
      exact hcomputes r hr
  obtain ⟨σ', hruns, -⟩ := Surroundings.exists_runs_perform hfresh
  generalize ((fromRound 30).perform loadedTwice sevenCounted.store).1 = result at hruns hresult
  match result with
  | .ok (.ok (first, second)) =>
    obtain ⟨s₁, σ, hfirst, hrest⟩ := hruns.bind
    obtain ⟨s₂, σ₂, hsecond, hlast⟩ := hrest.bind
    obtain ⟨hending, rfl⟩ := hlast.eq_of_pure
    cases hending
    have hstored := Option.some.inj hresult
    obtain ⟨hafter, -, hagain⟩ := hloads _ [] _ σ hfirst
    exact ⟨first, second, σ, σ', hfirst, congrArg Prod.fst hstored, hafter, hsecond,
      congrArg Prod.snd hstored, (hagain _ _ σ' hsecond).2⟩
  | .ok (.error _) => cases hresult
  | .error _ => cases hresult

end Replay

end Recount.Loading
