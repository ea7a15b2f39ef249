import Mathlib.Tactic.ByContra
import Recount.Proofs.Concurrent.Replay
import Recount.Proofs.Count.Stages

/-!
# One open count for every warehouse

A count that is active or on hold occupies its warehouse. A transition that opens a
count sees that its warehouse is free of others and takes it in one step, so that no
two counts get in the way of each other, whatever was read before.
-/

namespace Recount

namespace Store

variable {s s' : Store} {supply : Supply} {c d : Count}

/-- No two counts have one identifier, and no two open counts of a tenant one warehouse. -/
structure Exclusive (s : Store) : Prop where
  nodup : (s.counts.map Count.id).Nodup
  unique : ∀ c ∈ s.counts, ∀ d ∈ s.counts, c.tenant = d.tenant → c.warehouse = d.warehouse →
    c.status.isOpen = true → d.status.isOpen = true → c.id = d.id

/-- A warehouse is free for a count if every open count in it is the count itself. -/
theorem isBusy_eq_false_iff :
    s.isBusy c = false ↔ ∀ d ∈ s.counts, d.tenant = c.tenant → d.warehouse = c.warehouse →
      d.status.isOpen = true → d.id = c.id := by
  simp only [isBusy, List.any_eq_false, Bool.and_eq_true, decide_eq_true_eq, not_and]
  constructor
  · intro h d hd htenant hwarehouse hopen
    by_contra hne
    exact h d hd ⟨⟨hne, htenant⟩, hwarehouse⟩ hopen
  · rintro h d hd ⟨⟨hne, htenant⟩, hwarehouse⟩ hopen
    exact hne (h d hd htenant hwarehouse hopen)

/-- A count may be put where it is not open, or where no other open count has its warehouse. -/
theorem Exclusive.putBy (h : s.Exclusive)
    (hfree : c.status.isOpen = true → ∀ d ∈ s.counts, d.tenant = c.tenant →
      d.warehouse = c.warehouse → d.status.isOpen = true → d.id = c.id)
    (hcounts : s'.counts = Recount.putBy Count.id c s.counts) : s'.Exclusive where
  nodup := by
    rw [hcounts]
    exact nodup_putBy h.nodup
  unique d hd e he htenant hwarehouse hdopen heopen := by
    rcases mem_of_mem_putBy (hcounts ▸ hd) with hdc | hd' <;>
      rcases mem_of_mem_putBy (hcounts ▸ he) with hec | he'
    · rw [hdc, hec]
    · subst hdc
      exact (hfree hdopen e he' htenant.symm hwarehouse.symm heopen).symm
    · subst hec
      exact hfree heopen d hd' htenant hwarehouse hdopen
    · exact h.unique d hd' e he' htenant hwarehouse hdopen heopen

/-- Every call keeps the warehouses apart. -/
theorem Exclusive.answer (h : s.Exclusive) {call : StoreCall} {result}
    (hanswer : s.answer supply call = .ok (result, s')) : s'.Exclusive := by
  have hcounts := answer_counts hanswer
  generalize hafter : s'.counts = after at hcounts
  cases hcounts with
  | same => exact ⟨hafter ▸ h.nodup, hafter ▸ h.unique⟩
  | created new =>
    refine h.putBy (fun hopen => ?_) hafter
    -- A count that is created is a draft.
    cases hopen
  | @changed c _ _ t hc _ _ _ _ hbusy =>
    refine h.putBy (fun hopen d hd htenant hwarehouse hdopen => ?_) hafter
    rw [StatusChange.apply_status] at hopen
    rw [StatusChange.apply_tenant] at htenant
    rw [StatusChange.apply_warehouse] at hwarehouse
    rw [StatusChange.apply_id]
    exact isBusy_eq_false_iff.mp (hbusy hopen) d hd htenant hwarehouse hdopen
  | deleted =>
    have hmem : ∀ d ∈ s'.counts, d ∈ s.counts := by
      rw [hafter]
      exact fun d hd => List.mem_of_mem_filter hd
    constructor
    · rw [hafter]
      exact nodup_map_filter _ h.nodup
    · intro c hc d hd
      exact h.unique c (hmem c hc) d (hmem d hd)

end Store

namespace Concurrent

variable {sources : Loading.Sources} {alone : Task → Prop} {w : World}

theorem Reachable.exclusive (hw : Reachable sources alone w) : w.store.Exclusive := by
  refine hw.induction (P := fun w => w.store.Exclusive) ?_ (fun _ _ h => h) ?_
  · exact ⟨List.nodup_nil, fun c hc => absurd hc List.not_mem_nil⟩
  · intro w n w' h hadvance
    rcases hadvance.store_cases with hsame | ⟨supply, call, result, -, hanswer⟩
    · exact hsame ▸ h
    · exact h.answer hanswer

/-- However the tasks of all users interleave, no two counts of one tenant and one warehouse are
active or on hold at the same time. -/
theorem open_count_unique (hw : Reachable sources nobody w) {c d : Count}
    (hc : c ∈ w.store.counts) (hd : d ∈ w.store.counts) (htenant : c.tenant = d.tenant)
    (hwarehouse : c.warehouse = d.warehouse) (hcopen : c.status.isOpen = true)
    (hdopen : d.status.isOpen = true) : c = d := by
  have hid := hw.exclusive.unique c hc d hd htenant hwarehouse hcopen hdopen
  exact eq_of_id_eq hw.exclusive.nodup hc hd hid

/-- Two counts of one warehouse are created and started at the same time. Both tasks see a draft,
and the one that makes its transition first takes the warehouse. -/
def twoStarts : List Move :=
  let start (count : Nat) : Task := .changeStage (.ofNat 1) (.ofNat count)
    ⟨.start, List.mem_cons_self⟩ (.ofNat 3)
  [.begin newCount, goIn 1 0, .begin newCount, goIn 2 1, .begin (start 1000), .begin (start 2000),
    goIn 3 2, goIn 4 3, goIn 5 3, goIn 6 2]

theorem open_count_unique_twoStarts :
    ∃ c ∈ (played noSources twoStarts).store.counts,
      ∃ d ∈ (played noSources twoStarts).store.counts, c.id = .ofNat 2000 ∧ c.tenant = d.tenant ∧
        c.warehouse = d.warehouse ∧ c.status.isOpen = true ∧ d.status.isOpen = true ∧ c = d := by
  have hw : Reachable noSources nobody (played noSources twoStarts) :=
    played_reachable fun _ _ h => h
  have hopen : ∃ c ∈ (played noSources twoStarts).store.counts,
      c.id = .ofNat 2000 ∧ c.status.isOpen = true := by decide
  obtain ⟨c, hc, hid, hcopen⟩ := hopen
  exact ⟨c, hc, c, hc, hid, rfl, rfl, hcopen, hcopen,
    open_count_unique hw hc hc rfl rfl hcopen hcopen⟩

end Concurrent
end Recount
