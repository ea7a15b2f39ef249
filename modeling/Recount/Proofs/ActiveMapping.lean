import Recount.Proofs.Concurrent.Replay
import Recount.Proofs.Tenant.Orderly

/-!
# The active mapping

A change of a mapping writes back the whole mapping as it was read, with its flag, which may have
changed since. Whoever writes an active mapping makes its siblings inactive in the same call, so
that the flag may be stale but is never raised twice for one data set.
-/

namespace Recount

/-- The mappings that the active mapping of a data set is chosen from. -/
def Store.candidates (s : Store) (tenant : Id) (dataset : Dataset) : List Mapping :=
  s.mappings.filter fun m => m.tenant = tenant && m.dataset = dataset && m.isActive

section Candidates

variable {s : Store} {tenant : Id} {dataset : Dataset} {m : Mapping}

theorem Store.mem_candidates : m ∈ s.candidates tenant dataset ↔
    m ∈ s.mappings ∧ m.tenant = tenant ∧ m.dataset = dataset ∧ m.isActive = true := by
  simp [candidates, and_assoc]

/-- The first candidate is the one that is found. -/
theorem Store.activeMapping?_eq_head? :
    s.activeMapping? tenant dataset = (s.candidates tenant dataset).head? := by
  rw [candidates, List.head?_filter]
  rfl

/-- One mapping of a data set at most is a candidate, and it is the one that is found. -/
theorem Store.Registered.candidates_eq (h : s.Registered) :
    s.candidates tenant dataset = (s.activeMapping? tenant dataset).toList := by
  have hnodup : (s.candidates tenant dataset).Nodup := (List.Nodup.of_map _ h.nodup).filter _
  rw [activeMapping?_eq_head?]
  match hlist : s.candidates tenant dataset with
  | [] => rfl
  | [m] => rfl
  | m :: n :: rest =>
    have hmem : ∀ a ∈ m :: n :: rest, a ∈ s.mappings ∧ a.tenant = tenant ∧ a.dataset = dataset ∧
        a.isActive = true := fun a ha => mem_candidates.mp (hlist ▸ ha)
    obtain ⟨hm, htenant, hdataset, hactive⟩ := hmem m List.mem_cons_self
    obtain ⟨hn, htenant', hdataset', hactive'⟩ := hmem n (by simp)
    have hsame : m = n := h.active_unique m hm n hn (htenant.trans htenant'.symm)
      (hdataset.trans hdataset'.symm) hactive hactive'
    rw [hlist, hsame] at hnodup
    exact absurd List.mem_cons_self (List.nodup_cons.mp hnodup).1

end Candidates

namespace Concurrent

variable {sources : Loading.Sources} {alone : Task → Prop} {w : World}

/-- However the tasks of all users interleave, and however stale a mapping is by the time that it is
written back, one mapping of a tenant for a data set is active at most. So there is one
candidate at most for the mapping that is to be used, and it is found if there is one. -/
theorem active_mapping_alone (hw : Reachable sources alone w) (tenant : Id) (dataset : Dataset) :
    (∀ m ∈ w.store.mappings, ∀ n ∈ w.store.mappings, m.tenant = n.tenant → m.dataset = n.dataset →
      m.isActive = true → n.isActive = true → m = n) ∧
    (w.store.candidates tenant dataset).length ≤ 1 ∧
    ∀ m, w.store.activeMapping? tenant dataset = some m ↔ m ∈ w.store.candidates tenant dataset := by
  have hregistered : w.store.Registered := hw.orderly.registered
  refine ⟨hregistered.active_unique, ?_, fun m => ?_⟩
  · rw [hregistered.candidates_eq]
    exact Option.length_toList_le
  · rw [hregistered.candidates_eq, Option.mem_toList]

/-- One connection to read mappings over. -/
def oneConnection : Loading.Sources := ⟨[(.ofNat 9, .postgres)], {}⟩

/-- A mapping of the items of a tenant is created. -/
def newMapping (name : String) (isActive : Bool) : Task :=
  .createMapping (.ofNat 1)
    { connection := .ofNat 9, dataset := .items, name, mainTable := "items", joins := [],
      fields := [⟨"code", "item_code", .string, none⟩], filters := [], rawQuery := none, isActive }
    (.ofNat 3)

/-- A mapping gets another name. -/
def rename (mapping : Nat) (name : String) : Task :=
  .updateMapping (.ofNat 1) (.ofNat mapping) ⟨some name, none, none, none, none, none⟩

/-- A task that renames the active mapping has read it when another mapping becomes active, and
writes it back. -/
def staleFlag : List Move :=
  [.begin (newMapping "A" true), .begin (newMapping "B" false)] ++ goOn 1 0 3 ++ goOn 4 1 3 ++
  [.begin (rename 2000 "C"), goIn 7 2, .begin (.setActive (.ofNat 1) (.ofNat 5000) true),
    goIn 8 3] ++
  goOn 9 2 2

/-- The flags of the mappings of a world, with their names. -/
def flags (w : World) : List (String × Bool) := w.store.mappings.map fun m => (m.name, m.isActive)

theorem active_mapping_alone_staleFlag :
    flags (played oneConnection (staleFlag.take 12)) = [("A", false), ("B", true)] ∧
      flags (played oneConnection staleFlag) = [("C", true), ("B", false)] ∧
      ((played oneConnection staleFlag).store.candidates (.ofNat 1) .items).length ≤ 1 := by
  have hw : Reachable oneConnection nobody (played oneConnection staleFlag) :=
    played_reachable fun _ _ h => h
  exact ⟨by decide +kernel, by decide +kernel,
    (active_mapping_alone hw (.ofNat 1) .items).2.1⟩

end Concurrent
end Recount
