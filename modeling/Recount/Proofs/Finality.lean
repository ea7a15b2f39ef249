import Recount.Proofs.Settlement

/-!
# Settlement is final

Every item of a version that was settled has a quantity and a status that says whether
it is the one of the system. From the moment of the settlement on, no item of the version
is changed, added or removed, except that all of them go when the count is deleted.
-/

namespace Recount.Concurrent

open Store

variable {sources : Loading.Sources} {alone : Task → Prop} {w w' w'' : World} {n : Nat} {count : Id}
  {version : Int} {qty : Id → Option Decimal}

/-- The items of settled versions are settled in every world that is reached. -/
theorem Reachable.allSettled (hw : Reachable sources alone w) : w.store.AllSettled := by
  refine (hw.induction (P := fun w => w.Sound ∧ w.store.AllSettled) ?_ ?_ ?_).2
  · exact ⟨.empty, fun c hc => absurd hc List.not_mem_nil⟩
  · exact fun w t ⟨hsound, hall⟩ => ⟨hsound.begin, hall⟩
  · intro w n w' ⟨hsound, hall⟩ hadvance
    refine ⟨hsound.advance hadvance, ?_⟩
    rcases hsound.advance_cases hadvance with ⟨call, result, new, supply, hmakes⟩ | hrests
    · exact hall.answer hsound.store hmakes.fits hmakes.areNew hmakes.answer
    · unfold AllSettled
      rw [hrests.counts, hrests.items]
      exact hall

/-- The count that an exchange deleted. -/
def deleted? : Exchange → Option Id
  | ⟨.store (.counts call), .ok _⟩ => call.deletes?
  | _ => none

theorem deleted?_eq_none {e : Exchange}
    (h : ∀ call result, e ≠ ⟨.store (.counts call), .ok result⟩) : deleted? e = none := by
  unfold deleted?
  split
  · next call result => exact absurd rfl (h call result)
  · rfl

/-- A task that goes on leaves the items of a version that has ended as they are, unless it deletes
the count. -/
theorem World.Sound.itemsOf_advance (h : w.Sound) (hadvance : Advance n w w')
    (hended : w.store.Ended count version) :
    ∃ last, w'.log = last ++ w.log ∧ w'.store.itemsOf count (some version) =
      if ∃ e ∈ last, deleted? e = some count then [] else w.store.itemsOf count (some version) := by
  rcases h.advance_cases hadvance with ⟨call, result, new, supply, hmakes⟩ | hrests
  · refine ⟨[_], hmakes.log, ?_⟩
    rw [h.store.itemsOf_answer hmakes.fits hmakes.areNew hmakes.answer hended]
    simp [deleted?]
  · obtain ⟨last, hlast, hnot⟩ := hrests.log
    refine ⟨last, hlast, ?_⟩
    have hkept : ¬ ∃ e ∈ last, deleted? e = some count := by
      rintro ⟨e, he, hdeleted⟩
      rw [deleted?_eq_none fun call result heq => hnot call result (heq ▸ he)] at hdeleted
      cases hdeleted
    rw [if_neg hkept]
    unfold itemsOf
    rw [hrests.items]

/-- The items of a version that has ended stay as they are, until the count is deleted. -/
theorem Reachable.itemsOf_later (hw : Reachable sources nobody w) (hdrawn : count ∈ w.drawn)
    (hended : w.store.Ended count version)
    (hlater : Relation.ReflTransGen (Step sources nobody) w w') :
    (count ∈ w'.drawn ∧ w'.store.Ended count version) ∧
      ∃ since, w'.log = since ++ w.log ∧ w'.store.itemsOf count (some version) =
        if ∃ e ∈ since, deleted? e = some count then []
        else w.store.itemsOf count (some version) := by
  induction hlater with
  | refl => exact ⟨⟨hdrawn, hended⟩, [], rfl, by simp⟩
  | @tail w₁ w₂ hbefore hstep ih =>
    obtain ⟨⟨hdrawn₁, hended₁⟩, since, hlog, hitems⟩ := ih
    have hw₁ : Reachable sources nobody w₁ := hw.trans hbefore
    have hsound := hw₁.sound
    cases hstep with
    | begin t ht => exact ⟨⟨hdrawn₁, hended₁⟩, since, hlog, hitems⟩
    | advance hadvance =>
      obtain ⟨last, hlast, hnext⟩ := hsound.itemsOf_advance hadvance hended₁
      refine ⟨⟨hadvance.drawn_subset count hdrawn₁, hsound.ended_advance hdrawn₁ hended₁ hadvance⟩,
        last ++ since, by rw [hlast, hlog, List.append_assoc], ?_⟩
      rw [hnext, hitems]
      simp only [List.mem_append, or_and_right, exists_or]
      split <;> split <;> simp_all
    | whole t ht => exact ht.elim

/-- There is no count with an identifier, and there will be none. -/
structure World.Gone (count : Id) (w : World) : Prop where
  drawn : count ∈ w.drawn
  absent : ∀ c ∈ w.store.counts, c.id ≠ count

theorem World.Gone.advance (h : w.Gone count) (hsound : w.Sound) (hadvance : Advance n w w') :
    w'.Gone count := by
  refine ⟨hadvance.drawn_subset count h.drawn, ?_⟩
  rcases hsound.advance_cases hadvance with ⟨call, result, new, supply, hmakes⟩ | hrests
  · have hcounts := answer_counts hmakes.answer
    generalize w'.store.counts = after at hcounts
    cases hcounts with
    | same => exact h.absent
    | created new' =>
      intro c hc
      rcases mem_of_mem_putBy hc with rfl | hc
      · rintro rfl
        exact hmakes.fresh.2 _ (Supply.id_mem_ids (Nat.succ_pos _)) h.drawn
      · exact h.absent c hc
    | changed hc =>
      intro d hd
      rcases mem_of_mem_putBy hd with rfl | hd
      · rw [StatusChange.apply_id]
        exact h.absent _ hc
      · exact h.absent d hd
    | deleted => exact fun c hc => h.absent c (List.mem_of_mem_filter hc)
  · exact hrests.counts ▸ h.absent

/-- A count that is gone does not come back. -/
theorem World.Gone.step (h : w.Gone count) (hsound : w.Sound)
    (hstep : Step sources nobody w w') : w'.Gone count := by
  cases hstep with
  | begin t => exact ⟨h.drawn, h.absent⟩
  | advance hadvance => exact h.advance hsound hadvance
  | whole t ht => exact ht.elim

/-- An exchange that deletes a count leaves none with its identifier. -/
theorem World.Sound.gone_of_deleted (h : w.Sound) (hadvance : Advance n w w') {e : Exchange}
    (hlog : w'.log = e :: w.log) (hdeleted : deleted? e = some count) : w'.Gone count := by
  rcases h.advance_cases hadvance with ⟨call, result, new, supply, hmakes⟩ | hrests
  · cases (List.cons.inj (hlog.symm.trans hmakes.log)).1
    cases call with
    | delete tenant id allowed =>
      obtain ⟨c, hc, hid, -, -, hstore⟩ := deleteCount_eq_ok hmakes.answer
      cases hdeleted
      refine ⟨hadvance.drawn_subset _ (hid ▸ (h.known _ (count_id_mem_ids hc)).1), fun d hd => ?_⟩
      rw [hstore] at hd
      simpa using (List.mem_filter.mp hd).2
    | _ => cases hdeleted
  · rw [deleted?_eq_none (hrests.ne_of_log hlog)] at hdeleted
    cases hdeleted

/-- A count that was deleted is gone for good. -/
theorem Reachable.gone_of_deleted (hw : Reachable sources alone w) {e : Exchange} (he : e ∈ w.log)
    (hdeleted : deleted? e = some count) : w.Gone count := by
  have hall : w.Sound ∧ ∀ e ∈ w.log, ∀ count, deleted? e = some count → w.Gone count := by
    refine hw.induction (P := fun w => w.Sound ∧ ∀ e ∈ w.log, ∀ count, deleted? e = some count →
      w.Gone count) ⟨.empty, fun e he => absurd he List.not_mem_nil⟩ ?_ ?_
    · exact fun w t ⟨hsound, hgone⟩ => ⟨hsound.begin, fun e he count hdeleted =>
        ⟨(hgone e he count hdeleted).drawn, (hgone e he count hdeleted).absent⟩⟩
    · intro w n w' ⟨hsound, hgone⟩ hadvance
      refine ⟨hsound.advance hadvance, fun e he count hdeleted => ?_⟩
      rcases hadvance.log_cases with hlog | ⟨last, hlog⟩
      · exact (hgone e (hlog ▸ he) count hdeleted).advance hsound hadvance
      · rw [hlog] at he
        rcases List.mem_cons.mp he with rfl | he
        · exact hsound.gone_of_deleted hadvance hlog hdeleted
        · exact (hgone e he count hdeleted).advance hsound hadvance
  exact hall.2 e he count hdeleted

/-- However the tasks of all users interleave, settlement is final. All items of a version that was
left behind, and of a count that is submitted, completed or closed, have a quantity, and they are
approved or show a variance by whether it is the quantity of the system. And from the moment at which
a version is settled, its items stay just as they are, until the count is deleted with all of them. -/
theorem settled_items_final (hw : Reachable sources nobody w) :
    (∀ c ∈ w.store.counts, ∀ i ∈ w.store.items, i.count = c.id →
      i.version < c.currentVersion ∨ c.status.isSettled = true → i.IsSettled) ∧
    ∀ n w' e count version, Advance n w w' → w'.log = e :: w.log →
      settled? e = some (count, version) →
      ∀ w'', Relation.ReflTransGen (Step sources nobody) w' w'' →
        ∃ since, w''.log = since ++ w'.log ∧ w''.store.itemsOf count (some version) =
          if ∃ e ∈ since, deleted? e = some count then []
          else w'.store.itemsOf count (some version) := by
  refine ⟨hw.allSettled, fun n w' e count version hadvance hlog hsettled w'' hlater => ?_⟩
  obtain ⟨hpast, -⟩ := hw.faithful.past_of_settled hadvance hlog hsettled
  have hw' : Reachable sources nobody w' := hw.tail (.advance hadvance)
  exact (hw'.itemsOf_later hpast.drawn hpast.ended hlater).2

/-- The count is recounted, and the record that came too late is tried after all. -/
def recountAfter : List Move :=
  .begin (.openRecount (.ofNat 1) (.ofNat 1000) (.ofNat 3)) :: goOn 19 5 5 ++ [goIn 24 3]

theorem settled_items_final_lateRecord :
    ∃ w', Advance 4 (played noSources lateRecord) w' ∧
      ∃ w'', Relation.ReflTransGen (Step noSources nobody) w' w'' ∧
        (∃ c ∈ w''.store.counts, c.id = .ofNat 1000 ∧ c.currentVersion = 2) ∧
        (∃ i ∈ w''.store.itemsOf (.ofNat 1000) (some 1), i.IsSettled) ∧
        w''.store.itemsOf (.ofNat 1000) (some 1) = w'.store.itemsOf (.ofNat 1000) (some 1) := by
  have hw : Reachable noSources nobody (played noSources lateRecord) :=
    played_reachable fun _ _ h => h
  have hplay : ((played noSources lateRecord).move? noSources (goIn 18 4)).any (fun w' =>
      w'.log.length = (played noSources lateRecord).log.length + 1 ∧
      w'.log.head?.bind settled? = some (.ofNat 1000, 1) ∧
      (w'.play? noSources recountAfter).any fun w'' =>
        (∃ c ∈ w''.store.counts, c.id = .ofNat 1000 ∧ c.currentVersion = 2 ∧
          ∃ i ∈ w''.store.items, i.count = c.id ∧ i.version = 1) ∧
        ∀ e ∈ w''.log, deleted? e ≠ some (.ofNat 1000)) := by
    decide +kernel
  obtain ⟨w', hw', hchecked⟩ := (Option.any_eq_true _ _).mp hplay
  simp only [decide_eq_true_eq] at hchecked
  obtain ⟨hlength, hsettled, hlater⟩ := hchecked
  obtain ⟨w'', hw'', hchecked⟩ := (Option.any_eq_true _ _).mp hlater
  simp only [decide_eq_true_eq] at hchecked
  obtain ⟨⟨c, hc, hid, hcurrent, i, hi, hcount, hversion⟩, hkept⟩ := hchecked
  have hadvance : Advance 4 (played noSources lateRecord) w' := World.move?_advance hw'
  have hsteps : Relation.ReflTransGen (Step noSources nobody) w' w'' :=
    World.play?_steps (fun _ _ h => h) hw''
  rcases hadvance.log_cases with hsame | ⟨e, hlog⟩
  · rw [hsame] at hlength
    omega
  rw [hlog] at hsettled
  have hreached : Reachable noSources nobody w'' := (hw.tail (.advance hadvance)).trans hsteps
  have hpast : i.version < c.currentVersion := by
    rw [hversion, hcurrent]
    decide
  obtain ⟨since, hsince, hitems⟩ :=
    (settled_items_final hw).2 4 w' e _ _ hadvance hlog hsettled w'' hsteps
  refine ⟨w', hadvance, w'', hsteps, ⟨c, hc, hid, hcurrent⟩, ⟨i, ?_, ?_⟩, ?_⟩
  · exact mem_itemsOf.mpr ⟨hi, hcount.trans hid, fun v hv => hversion.trans (Option.some.inj hv)⟩
  · exact (settled_items_final hreached).1 c hc i hi hcount (.inl hpast)
  · rw [hitems, if_neg]
    rintro ⟨e', he', hdeleted⟩
    exact hkept e' (hsince ▸ List.mem_append_left _ he') hdeleted

end Recount.Concurrent
