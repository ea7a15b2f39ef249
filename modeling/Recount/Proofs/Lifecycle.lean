import Recount.Proofs.Count.Stages
import Recount.Proofs.NextVersion

/-!
# The lifecycle of counts

Whatever tasks run at the same time, a count goes from one step to the next as it is, or
by one move between its stages. Its versions are numbered from 1, only a recount opens
another one, and a count that was given up stays as it is until it is deleted.
-/

namespace Recount

open Relation

namespace Store

variable {s s' : Store} {new : List Id} {supply : Supply}

/-- The versions of each count are numbered from 1, and every item belongs to one of them. -/
structure Versioned (s : Store) : Prop where
  first : ∀ c ∈ s.counts, 1 ≤ c.currentVersion
  total : ∀ c ∈ s.counts, c.totalVersions = c.currentVersion
  items : ∀ i ∈ s.items, ∃ c ∈ s.counts, c.id = i.count ∧ 1 ≤ i.version ∧
    i.version ≤ c.currentVersion

/-- A count that is there before and afterwards is kept or was moved, and one that is there only
afterwards is a draft of its first version. -/
structure Follows (s s' : Store) : Prop where
  kept_or_moved : ∀ c ∈ s.counts, ∀ c' ∈ s'.counts, c'.id = c.id → c' = c ∨ c.Moved c'
  new_draft : ∀ c' ∈ s'.counts, (∀ c ∈ s.counts, c.id ≠ c'.id) →
    c'.status = .draft ∧ c'.currentVersion = 1 ∧ c'.totalVersions = 1

/-- Nothing happens to counts that stay or go. -/
theorem Sound.follows_of_subset (h : s.Sound) (hcounts : ∀ c ∈ s'.counts, c ∈ s.counts) :
    s.Follows s' where
  kept_or_moved _ hc _ hc' hid := .inl (eq_of_id_eq h.counts_nodup (hcounts _ hc') hc hid)
  new_draft c' hc' hnew := absurd rfl (hnew c' (hcounts c' hc'))

/-- A transition that fits moves its count. -/
theorem FitsChange.moved {id : Id} {t : Transition} (h : FitsChange s new id t) {c : Count}
    (hstatus : c.status ∈ t.change.expected) {now : Time} : c.Moved (t.change.apply c now) := by
  cases h with
  | stage change version actor hchange =>
    obtain ⟨hmoves, hopens⟩ := moves_of_stageChange hchange hstatus
    exact Count.moved_apply hmoves hopens
  | completion version actor =>
    obtain ⟨hmoves, hopens⟩ := moves_of_completion hstatus
    exact Count.moved_apply hmoves hopens
  | recount version actor =>
    obtain ⟨hmoves, hopens⟩ := moves_of_recount hstatus
    exact Count.moved_apply hmoves hopens

/-- A call that fits keeps or moves the counts that stay. -/
theorem Sound.follows_answer {call : CountCall} {result} (h : s.Sound) (hfits : s.Fits new call)
    (hsupply : s.AreNew new (supply.ids s.demand))
    (hanswer : s.answer supply (.counts call) = .ok (result, s')) : s.Follows s' := by
  have hcounts := answer_counts hanswer
  generalize hafter : s'.counts = after at hcounts
  cases hcounts with
  | same => exact h.follows_of_subset fun c hc => hafter ▸ hc
  | created new' =>
    have hfresh : supply.id 0 ∈ supply.ids s.demand := Supply.id_mem_ids (Nat.succ_pos _)
    constructor
    · intro c hc c' hc' hid
      rcases mem_of_mem_putBy (hafter ▸ hc') with rfl | hold
      · exact absurd hid.symm (hsupply.count_ne hfresh hc)
      · exact .inl (eq_of_id_eq h.counts_nodup hold hc hid)
    · intro c' hc' hnew
      rcases mem_of_mem_putBy (hafter ▸ hc') with rfl | hold
      · exact ⟨rfl, rfl, rfl⟩
      · exact absurd rfl (hnew c' hold)
  | @changed moved tenant id t hmoved _ _ hstatus =>
    constructor
    · intro c hc c' hc' hid
      rcases mem_of_mem_putBy (hafter ▸ hc') with rfl | hold
      · rw [StatusChange.apply_id] at hid
        obtain rfl : moved = c := eq_of_id_eq h.counts_nodup hmoved hc hid
        exact .inr (FitsChange.moved hfits hstatus)
      · exact .inl (eq_of_id_eq h.counts_nodup hold hc hid)
    · intro c' hc' hnew
      rcases mem_of_mem_putBy (hafter ▸ hc') with rfl | hold
      · exact absurd StatusChange.apply_id.symm (hnew moved hmoved)
      · exact absurd rfl (hnew c' hold)
  | deleted => exact h.follows_of_subset fun c hc => List.mem_of_mem_filter (hafter ▸ hc)

/-- No version comes before the first one. -/
structure FromFirst (s : Store) : Prop where
  counts : ∀ c ∈ s.counts, 1 ≤ c.currentVersion
  items : ∀ i ∈ s.items, 1 ≤ i.version

/-- A call that fits puts every item into the version of its count, or into the next one. -/
theorem FromFirst.items_answer (hfirst : s.FromFirst) {call : CountCall} {result} (h : s.Sound)
    (hfits : s.Fits new call) (hsupply : s.AreNew new (supply.ids s.demand))
    (hanswer : s.answer supply (.counts call) = .ok (result, s')) {i : Item} (hi : i ∈ s'.items) :
    1 ≤ i.version := by
  have hold : ∀ old ∈ s.items, old.key = i.key → 1 ≤ i.version := by
    intro old hold hkey
    have hversion : old.version = i.version := congrArg Item.Key.version hkey
    exact hversion ▸ hfirst.items old hold
  have hwritten : ∀ j, call.writes? = some j → j.key = i.key → 1 ≤ i.version := by
    intro j hwrites hkey
    obtain ⟨⟨c, hc, -, -, hcurrent⟩, -⟩ := h.items_of_writes hfits hanswer hwrites
    have hversion : j.version = i.version := congrArg Item.Key.version hkey
    have hcount := hfirst.counts c hc
    omega
  cases h.origin hfits hsupply hanswer hi with
  | kept hmem _ hkey => exact hold _ hmem hkey
  | upserted => exact hwritten i rfl rfl
  | inserted => exact hwritten i rfl rfl
  | recorded _ hkey => exact hwritten _ rfl hkey.symm
  | settled _ hmem _ hkey => exact hold _ hmem hkey
  | @carried tenant count t entered hmem _ hkey =>
    obtain ⟨c, hc, -, -, -, hcurrent, -⟩ := change_eq_ok hanswer
    have hplace := (FitsChange.newItems_place hfits hmem).2
    have hversion : i.version = entered.version := congrArg Item.Key.version hkey
    have hcount := hfirst.counts c hc
    omega

/-- Calls that fit keep versions numbered from the first one. -/
theorem FromFirst.answer (hfirst : s.FromFirst) {call : CountCall} {result} (h : s.Sound)
    (hfits : s.Fits new call) (hsupply : s.AreNew new (supply.ids s.demand))
    (hanswer : s.answer supply (.counts call) = .ok (result, s')) : s'.FromFirst where
  counts c' hc' := by
    have hfollows := h.follows_answer hfits hsupply hanswer
    by_cases hnew : ∀ c ∈ s.counts, c.id ≠ c'.id
    · exact Int.le_of_eq (hfollows.new_draft c' hc' hnew).2.1.symm
    · push Not at hnew
      obtain ⟨c, hc, hid⟩ := hnew
      have hcount := hfirst.counts c hc
      rcases hfollows.kept_or_moved c hc c' hc' hid.symm with rfl | hmoved
      · exact hcount
      · have hversion := hmoved.currentVersion
        split at hversion <;> omega
  items _ hi := hfirst.items_answer h hfits hsupply hanswer hi

end Store

namespace Concurrent

open Store

variable {sources : Loading.Sources} {alone : Task → Prop} {w w' : World} {n : Nat}

/-- When a task goes on, each count is kept or moved. -/
theorem World.Sound.follows_advance (h : w.Sound) (hadvance : Advance n w w') :
    w.store.Follows w'.store := by
  rcases h.advance_cases hadvance with ⟨call, result, new, supply, hmakes⟩ | hrests
  · exact h.store.follows_answer hmakes.fits hmakes.areNew hmakes.answer
  · exact h.store.follows_of_subset fun c hc => hrests.counts ▸ hc

theorem World.Sound.follows_step (h : w.Sound) (hstep : Step sources nobody w w') :
    w.store.Follows w'.store := by
  cases hstep with
  | begin t => exact h.store.follows_of_subset fun c hc => hc
  | advance hadvance => exact h.follows_advance hadvance
  | whole t ht => exact ht.elim

theorem Reachable.fromFirst (hw : Reachable sources alone w) : w.store.FromFirst := by
  refine (hw.induction (P := fun w => w.Sound ∧ w.store.FromFirst) ?_ ?_ ?_).2
  · exact ⟨.empty, fun c hc => absurd hc List.not_mem_nil, fun i hi => absurd hi List.not_mem_nil⟩
  · exact fun w t ⟨hsound, hfirst⟩ => ⟨hsound.begin, hfirst.counts, hfirst.items⟩
  · intro w n w' ⟨hsound, hfirst⟩ hadvance
    refine ⟨hsound.advance hadvance, ?_⟩
    rcases hsound.advance_cases hadvance with ⟨call, result, new, supply, hmakes⟩ | hrests
    · exact hfirst.answer hsound.store hmakes.fits hmakes.areNew hmakes.answer
    · exact ⟨hrests.counts ▸ hfirst.counts, hrests.items ▸ hfirst.items⟩

theorem Reachable.versioned (hw : Reachable sources alone w) : w.store.Versioned where
  first := hw.fromFirst.counts
  total := hw.numbered
  items i hi := by
    obtain ⟨c, hc, hid, hle⟩ := hw.sound.store.item_stored i hi
    exact ⟨c, hc, hid, hw.fromFirst.items i hi, hle⟩

theorem Step.drawn_subset (h : Step sources nobody w w') : ∀ id ∈ w.drawn, id ∈ w'.drawn := by
  cases h with
  | begin t => exact fun id hid => hid
  | advance hadvance => exact hadvance.drawn_subset
  | whole t ht => exact ht.elim

/-- What a count has become later came about by moves, one after the other. -/
theorem Reachable.moves_of_later (hw : Reachable sources nobody w)
    (hlater : ReflTransGen (Step sources nobody) w w') {c c' : Count} (hc : c ∈ w.store.counts)
    (hc' : c' ∈ w'.store.counts) (hid : c'.id = c.id) : ReflTransGen Count.Moved c c' := by
  have hall : c.id ∈ w'.drawn ∧
      ∀ c' ∈ w'.store.counts, c'.id = c.id → ReflTransGen Count.Moved c c' := by
    clear hc' hid
    induction hlater with
    | refl =>
      refine ⟨(hw.sound.known _ (count_id_mem_ids hc)).1, fun c' hc' hid => ?_⟩
      rw [eq_of_id_eq hw.sound.store.counts_nodup hc' hc hid]
    | @tail w₁ w₂ hbefore hstep ih =>
      have hw₁ : Reachable sources nobody w₁ := hw.trans hbefore
      obtain ⟨hdrawn, hmoves⟩ := ih
      refine ⟨hstep.drawn_subset _ hdrawn, fun c₂ hc₂ hid => ?_⟩
      by_cases habsent : ∀ d ∈ w₁.store.counts, d.id ≠ c.id
      · -- An identifier that was drawn is not given to another count.
        have hgone : w₁.Gone c.id := ⟨hdrawn, habsent⟩
        exact absurd hid ((hgone.step hw₁.sound hstep).absent c₂ hc₂)
      · push Not at habsent
        obtain ⟨c₁, hc₁, hid₁⟩ := habsent
        have hfollows := hw₁.sound.follows_step hstep
        rcases hfollows.kept_or_moved c₁ hc₁ c₂ hc₂ (hid.trans hid₁.symm) with rfl | hmoved
        · exact hmoves _ hc₁ hid₁
        · exact (hmoves c₁ hc₁ hid₁).tail hmoved
  exact hall.2 c' hc' hid

/-- However the tasks interleave, the versions of every count are numbered from 1 and hold its
items. Each step keeps or moves the counts that it does not delete, and a new count is a draft of
version 1. So later on, a count is where a sequence of moves has led, in no earlier version, and it
is as it was if it had been given up. -/
theorem counts_follow_lifecycle (hw : Reachable sources nobody w) :
    w.store.Versioned ∧ (∀ w', Step sources nobody w w' → w.store.Follows w'.store) ∧
      ∀ w', ReflTransGen (Step sources nobody) w w' →
        ∀ c ∈ w.store.counts, ∀ c' ∈ w'.store.counts, c'.id = c.id →
          ReflTransGen Count.Moved c c' ∧ c.currentVersion ≤ c'.currentVersion ∧
            (c.status = .cancelled → c' = c) := by
  refine ⟨hw.versioned, fun w' hstep => hw.sound.follows_step hstep, ?_⟩
  intro w' hlater c hc c' hc' hid
  have hmoves := hw.moves_of_later hlater hc hc' hid
  exact ⟨hmoves, Count.currentVersion_le_of_moves hmoves, Count.eq_of_moves_of_cancelled hmoves⟩

/-- A submitted count is recounted, and given up while its second version is counted. -/
def recountedThenCancelled : List Move :=
  .begin (.openRecount (.ofNat 1) (.ofNat 1000) (.ofNat 3)) :: goOn 21 4 6 ++
    .begin (.changeStage (.ofNat 1) (.ofNat 1000) ⟨.cancel, by simp [stageChanges]⟩ (.ofNat 3)) ::
      goOn 27 5 2

theorem counts_follow_lifecycle_recountedThenCancelled :
    ∃ w, Reachable noSources nobody w ∧ w.store.Versioned ∧
      ∃ c ∈ (played noSources oneOfTwo).store.counts, ∃ c' ∈ w.store.counts,
        c.status = .submitted ∧ c.currentVersion = 1 ∧ c'.status = .cancelled ∧
          c'.currentVersion = 2 ∧ ReflTransGen Count.Moved c c' ∧
          ∀ w', ReflTransGen (Step noSources nobody) w w' →
            ∀ d ∈ w'.store.counts, d.id = c'.id → d = c' := by
  have hplayed : Reachable noSources nobody (played noSources oneOfTwo) :=
    played_reachable fun _ _ h => h
  have hcount : ∃ c ∈ (played noSources oneOfTwo).store.counts, c.id = .ofNat 1000 ∧
      c.status = .submitted ∧ c.currentVersion = 1 := by
    decide +kernel
  have hplay : ((played noSources oneOfTwo).play? noSources recountedThenCancelled).any fun w =>
      w.store.counts.any fun c' =>
        c'.id = .ofNat 1000 ∧ c'.status = .cancelled ∧ c'.currentVersion = 2 := by
    decide +kernel
  obtain ⟨c, hc, hid, hstatus, hversion⟩ := hcount
  obtain ⟨w, hrun, hfound⟩ := (Option.any_eq_true _ _).mp hplay
  obtain ⟨c', hc', hcancelled⟩ := List.any_eq_true.mp hfound
  obtain ⟨hid', hstatus', hversion'⟩ := of_decide_eq_true hcancelled
  have hrun : ReflTransGen (Step noSources nobody) (played noSources oneOfTwo) w :=
    World.play?_steps (fun _ _ h => h) hrun
  have hw : Reachable noSources nobody w := hplayed.trans hrun
  obtain ⟨-, -, hbefore⟩ := counts_follow_lifecycle hplayed
  obtain ⟨hversioned, -, hafter⟩ := counts_follow_lifecycle hw
  refine ⟨w, hw, hversioned, c, hc, c', hc', hstatus, hversion, hstatus', hversion', ?_, ?_⟩
  · exact (hbefore w hrun c hc c' hc' (hid'.trans hid.symm)).1
  · exact fun w' hlater d hd hdid => (hafter w' hlater c' hc' d hd hdid).2.2 hstatus'

end Concurrent
end Recount
