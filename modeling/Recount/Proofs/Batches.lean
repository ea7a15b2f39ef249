import Recount.Proofs.Concurrent.Sound
import Recount.Proofs.Counting.Entries
import Recount.Proofs.Reloading

/-!
# Batches

A batch records its entries as if each of them were sent alone, one after the other: it fails for
the same entries, and leaves the same items and reports. Only the times differ, and the identifiers
of the reports that it opens. An entry whose variance is out of range ends the batch.
-/

/-! ## Batches one by one -/

namespace Recount.Action

open Concurrent (Scene Ending)

/-- An attempt that comes to an end has made its action come to the same end. -/
theorem Runs.attempt {α : Type} {x : Action α} {σ σ' : Scene} {result : Except Error α}
    (h : Action.Runs (Action.attempt x) σ (.success result) σ') :
    x.Runs σ (.ofResult (.ok result)) σ' := by
  have hleads : Leads (fun ending σ' => ∀ result, ending = .success result →
      x.Runs σ (.ofResult (.ok result)) σ') (Action.attempt x) σ := by
    refine leads_attempt.mpr (leads_iff_runs.mpr fun ending σ' hrun => ?_)
    cases ending <;> rintro _ ⟨⟩ <;> exact hrun
  exact leads_iff_runs.mp hleads _ _ h result rfl

end Recount.Action

namespace Recount.Counting

open Concurrent (Scene Ending)

variable {c : Count} {tenant count actor : Id} {version : Int} {r : SubmitEntries}
  {done rest : List CountEntry} {σ σ' : Scene}

/-- A batch that is not for the current version of an editable count changes nothing. -/
theorem leads_submit_refused
    (h : ∀ c, Editable σ.store tenant count c → version = c.currentVersion → r.entries = []) :
    Action.Leads (fun ending σ' => (∃ e, ending = .failure e) ∧ σ'.store = σ.store)
      (submit tenant count version r actor) σ := by
  refine leads_checkFields (fun _ => ⟨⟨_, rfl⟩, rfl⟩) fun hfaults =>
    leads_editableCount (fun _ e σ' _ hidle => ⟨⟨e, rfl⟩, hidle.store⟩) fun c σ₁ hc hidle => ?_
  by_cases hversion : version = c.currentVersion
  · exact absurd hfaults (by simp [SubmitEntries.faults, faultUnless, h c hc hversion])
  · rw [if_pos hversion]
    exact ⟨⟨_, rfl⟩, hidle.store⟩

/-- A batch for the current version of an editable count goes on after entries that do not
overrun. -/
theorem leads_submit_append {post : Ending SubmitSummary → Scene → Prop}
    (hσ : σ.store.Apart σ.drawn) (hc : Editable σ.store tenant count c)
    (hversion : version = c.currentVersion) (hne : r.entries ≠ [])
    (hentries : r.entries = done ++ rest)
    (hfree : ∀ e ∈ done, ¬ Overruns σ.store c e.item e.counted)
    (hrest : ∀ after σ', Sums (σ.store.accepts c) done ⟨version, 0, 0, []⟩ after →
      σ'.store.untimed σ.drawn = done.foldl (Store.noted c actor) (σ.store.untimed σ.drawn) →
      Steady σ σ' → Action.Leads post (submitEntries c actor after rest) σ') :
    Action.Leads post (submit tenant count version r actor) σ := by
  refine leads_checkFields (fun hfaults => ?_) fun _ =>
    leads_editableCount (fun hnone => absurd hc (hnone c)) fun c' σ₁ hc' hidle => ?_
  · exact absurd (by simpa [SubmitEntries.faults, faultUnless] using hne) hfaults
  cases hc.1.symm.trans hc'.1
  have hsteady := hidle.steady hσ
  rw [if_neg (not_not.mpr hversion), hentries]
  refine leads_submitEntries_append (hc.of_counts hsteady.counts) hsteady.apart hidle.drawn ?_ ?_
  · rwa [hidle.store]
  · intro after σ₂ hsums hstore hsteady₂
    rw [hidle.store] at hsums hstore
    exact hrest after σ₂ hsums hstore (hsteady.trans hsteady₂)

/-- A batch for the current version of an editable count comes to the same as requests for its
entries that are sent one by one, failures being passed over, as long as none of its entries has a
variance that is out of range: it succeeds, tells how many of the requests succeed and fail, and for
which items they fail, and leaves the same store. The first entry without a variance ends the batch
after what the entries before it have recorded. For no other version or count is anything
changed. -/
theorem submit_singly_iff (hσ : σ.store.Apart σ.drawn) {ending : Ending SubmitSummary}
    (hrun : (submit tenant count version r actor).Runs σ ending σ') :
    ((∀ c, Editable σ.store tenant count c → version = c.currentVersion → r.entries = []) →
      (∃ e, ending = .failure e) ∧ σ'.store = σ.store) ∧
    ∀ c, Editable σ.store tenant count c → version = c.currentVersion → r.entries ≠ [] →
      (∀ endings τ, Singly tenant count actor r.entries σ endings τ →
        ((∃ summary, ending = .success summary ∧ Summarizes version r.entries endings summary ∧
            σ'.store.untimed σ.drawn = τ.store.untimed σ.drawn) ↔
          ∀ e ∈ r.entries, ¬ Overruns σ.store c e.item e.counted)) ∧
      ∀ done entry rest, r.entries = done ++ entry :: rest →
        (∀ e ∈ done, ¬ Overruns σ.store c e.item e.counted) →
        Overruns σ.store c entry.item entry.counted →
        (∃ o, ending = .overflow o) ∧ ∀ endings τ, Singly tenant count actor done σ endings τ →
          σ'.store.untimed σ.drawn = τ.store.untimed σ.drawn := by
  refine ⟨fun h => Action.leads_iff_runs.mp (leads_submit_refused h) _ _ hrun, ?_⟩
  intro c hc hversion hne
  refine ⟨fun endings τ hsingly => ⟨?_, fun hfree => ?_⟩, ?_⟩
  · rintro ⟨summary, rfl, -⟩ e he hover
    obtain ⟨o, ho⟩ := (Action.leads_iff_runs.mp submit_overflowsIff _ _ hrun).mpr
      ⟨c, hc, hversion, e, he, hover⟩
    cases ho
  · obtain ⟨hends, hstore⟩ := hsingly.noted hc hσ (fun _ hid => hid) hfree
    have hleads : Action.Leads (fun ending σ' => ∃ summary, ending = .success summary ∧
        Summarizes version r.entries endings summary ∧
        σ'.store.untimed σ.drawn = τ.store.untimed σ.drawn)
        (submit tenant count version r actor) σ := by
      refine leads_submit_append hσ hc hversion hne (List.append_nil _).symm hfree
        fun after σ₁ hsums hbatch _ => ?_
      exact ⟨after, rfl, hsums.summarizes hends, hbatch.trans hstore.symm⟩
    exact Action.leads_iff_runs.mp hleads _ _ hrun
  · intro done entry rest hentries hfree hover
    have hleads : Action.Leads (fun ending σ' => (∃ o, ending = .overflow o) ∧
        σ'.store.untimed σ.drawn = done.foldl (Store.noted c actor) (σ.store.untimed σ.drawn))
        (submit tenant count version r actor) σ := by
      refine leads_submit_append hσ hc hversion hne hentries hfree
        fun after σ₁ _ hbatch hsteady => ?_
      refine Action.leads_bind.mpr (Action.leads_attempt.mpr ((leads_recordInVersion_recording
        (hc.of_counts hsteady.counts) hsteady.apart hsteady.drawn).mono ?_))
      rintro ending σ₂ ⟨hrecording, -⟩
      obtain ⟨⟨o, rfl⟩, hsame⟩ := hrecording.overruns (hsteady.measured.overruns_iff.mpr hover)
      exact ⟨⟨o, rfl⟩, by rw [hsame, hbatch]⟩
    obtain ⟨hoverflow, hstore⟩ := Action.leads_iff_runs.mp hleads _ _ hrun
    refine ⟨hoverflow, fun endings τ hsingly => ?_⟩
    rw [hstore, (hsingly.noted hc hσ (fun _ hid => hid) hfree).2]

/-- In every world that can be reached, the reports are told apart. -/
theorem apart_of_reachable {sources : Loading.Sources} {w : Concurrent.World}
    (hw : Concurrent.Reachable sources Concurrent.nobody w) : w.store.Apart w.drawn where
  nodup := hw.sound.store.reports_nodup
  drawn _ hq := (hw.sound.known _ (Store.report_id_mem_ids hq)).1

section Replay

open Concurrent (World Surroundings played played_reachable newCount noSources goIn goOn oneDigit)
open Loading (fromRound)

/-- Sends the entries one by one. -/
def sendAll (tenant count actor : Id) : List CountEntry → Action (List (Except Error Item))
  | [] => return []
  | entry :: entries => do
    let result ← Action.attempt (updateItem tenant count entry.item ⟨entry.counted⟩ actor)
    let results ← sendAll tenant count actor entries
    return result :: results

theorem singly_of_runs {entries : List CountEntry} {results : List (Except Error Item)} {τ : Scene}
    (h : (sendAll tenant count actor entries).Runs σ (.success results) τ) :
    Singly tenant count actor entries σ (results.map fun result => .ofResult (.ok result)) τ := by
  induction entries generalizing σ results with
  | nil =>
    obtain ⟨hresults, rfl⟩ := h.eq_of_pure
    cases hresults
    exact .nil
  | cons entry entries ih =>
    obtain ⟨result, σ₁, hfirst, h⟩ := h.bind
    obtain ⟨results', σ₂, hrest, h⟩ := h.bind
    obtain ⟨hresults, rfl⟩ := h.eq_of_pure
    cases hresults
    exact .cons hfirst.attempt (ih hrest)

/-- The least quantity that is not zero. -/
def hardlyAny : Decimal := .ofParts 1 28

/-- A count of two items, of which the system knows hardly any and none. -/
def twoListed : World := played noSources
  (.begin newCount :: goIn 1 0 ::
    .begin (.addItem (.ofNat 1) (.ofNat 1000) ⟨.ofNat 5, "A", "A", none, none, hardlyAny, none⟩
      (.ofNat 3)) :: goOn 2 1 4 ++ .begin (Concurrent.newItem "B" none) :: goOn 6 2 4)

/-- A quantity of an item of the count, by its place. -/
def entryOf (place n : Nat) : CountEntry :=
  ⟨(twoListed.store.items[place]?.map Item.id).getD .nil, oneDigit n⟩

/-- Both items are counted, one of them twice, and one that is not there. -/
def fourEntries : List CountEntry := [entryOf 1 7, entryOf 2 1, entryOf 0 0, entryOf 1 0]

/-- A batch for the count. -/
def batchOf (entries : List CountEntry) : Action SubmitSummary :=
  submit (.ofNat 1) (.ofNat 1000) 1 ⟨entries⟩ (.ofNat 3)

theorem submit_singly_iff_fourEntries :
    ∃ summary endings σ' τ,
      (batchOf fourEntries).Runs ⟨twoListed.store, twoListed.drawn, []⟩ (.success summary) σ' ∧
      Singly (.ofNat 1) (.ofNat 1000) (.ofNat 3) fourEntries
        ⟨twoListed.store, twoListed.drawn, []⟩ endings τ ∧
      Summarizes 1 fourEntries endings summary ∧ (summary.updated, summary.failed) = (3, 1) ∧
      σ'.store.untimed twoListed.drawn = τ.store.untimed twoListed.drawn := by
  have hapart : twoListed.store.Apart twoListed.drawn :=
    apart_of_reachable (played_reachable fun _ _ h => h)
  have hfresh : (fromRound 30).FreshFor (batchOf fourEntries).run twoListed.store
      twoListed.drawn 0 := by decide +kernel
  have hfresh' : (fromRound 30).FreshFor (sendAll (.ofNat 1) (.ofNat 1000) (.ofNat 3)
      fourEntries).run twoListed.store twoListed.drawn 0 := by decide +kernel
  have hsums : (((fromRound 30).perform (batchOf fourEntries) twoListed.store).1.toOption.bind
      Except.toOption).map (fun s => (s.updated, s.failed)) = some (3, 1) := by decide +kernel
  have hsent : (((fromRound 30).perform (sendAll (.ofNat 1) (.ofNat 1000) (.ofNat 3) fourEntries)
      twoListed.store).1.toOption.bind Except.toOption).isSome = true := by decide +kernel
  obtain ⟨c, hc, hversion⟩ : ∃ c, Editable twoListed.store (.ofNat 1) (.ofNat 1000) c ∧
      1 = c.currentVersion := by
    have hone : (twoListed.store.count? (.ofNat 1) (.ofNat 1000)).any
        (fun c => c.status.acceptsItems && c.currentVersion = 1) = true := by decide +kernel
    cases hc : twoListed.store.count? (.ofNat 1) (.ofNat 1000) with
    | none =>
      rw [hc] at hone
      cases hone
    | some c =>
      rw [hc, Option.any_some, Bool.and_eq_true, decide_eq_true_iff] at hone
      exact ⟨c, ⟨hc, hone.1⟩, hone.2.symm⟩
  obtain ⟨σ', hruns, -⟩ := Surroundings.exists_runs_perform hfresh
  obtain ⟨τ, hsends, -⟩ := Surroundings.exists_runs_perform hfresh'
  generalize ((fromRound 30).perform (batchOf fourEntries) twoListed.store).1 = result
    at hruns hsums
  generalize ((fromRound 30).perform (sendAll (.ofNat 1) (.ofNat 1000) (.ofNat 3) fourEntries)
    twoListed.store).1 = results at hsends hsent
  match result, results with
  | .ok (.ok summary), .ok (.ok results) =>
    have hsingly := singly_of_runs hsends
    have hfree : ∀ e ∈ fourEntries, ¬ Overruns twoListed.store c e.item e.counted := by
      intro e he hover
      obtain ⟨o, ho⟩ := (Action.leads_iff_runs.mp submit_overflowsIff _ _ hruns).mpr
        ⟨c, hc, hversion, e, he, hover⟩
      cases ho
    obtain ⟨hsame, -⟩ := (submit_singly_iff hapart hruns).2 c hc hversion (List.cons_ne_nil _ _)
    obtain ⟨summary', heq, hsummarizes, hstore⟩ := (hsame _ _ hsingly).mpr hfree
    cases heq
    exact ⟨summary, _, σ', τ, hruns, hsingly, hsummarizes, Option.some.inj hsums, hstore⟩
  | .error _, _ | .ok (.error _), _ => cases hsums
  | _, .error _ | _, .ok (.error _) => cases hsent

/-- A batch whose first entry overruns records nothing, though its second one would be recorded
alone. -/
theorem not_submit_singly :
    (∃ σ', (batchOf [entryOf 0 8, entryOf 1 7]).Runs ⟨twoListed.store, twoListed.drawn, []⟩
      (.overflow .division) σ' ∧ σ'.store.items.map Item.countedQty = [none, none]) ∧
    ∃ i τ, (updateItem (.ofNat 1) (.ofNat 1000) (entryOf 1 7).item ⟨oneDigit 7⟩ (.ofNat 3)).Runs
      ⟨twoListed.store, twoListed.drawn, []⟩ (.success i) τ ∧
      τ.store.items.map Item.countedQty = [none, some (oneDigit 7)] := by
  have hfresh : (fromRound 30).FreshFor (batchOf [entryOf 0 8, entryOf 1 7]).run twoListed.store
      twoListed.drawn 0 := by decide +kernel
  have hfresh' : (fromRound 30).FreshFor (updateItem (.ofNat 1) (.ofNat 1000) (entryOf 1 7).item
      ⟨oneDigit 7⟩ (.ofNat 3)).run twoListed.store twoListed.drawn 0 := by decide +kernel
  have hover : ((fromRound 30).perform (batchOf [entryOf 0 8, entryOf 1 7])
      twoListed.store).1.map (fun _ => ()) = .error .division := by decide +kernel
  have hlone : (((fromRound 30).perform (updateItem (.ofNat 1) (.ofNat 1000) (entryOf 1 7).item
      ⟨oneDigit 7⟩ (.ofNat 3)) twoListed.store).1.toOption.bind Except.toOption).isSome = true := by
    decide +kernel
  obtain ⟨σ', hruns, hstore⟩ := Surroundings.exists_runs_perform hfresh
  obtain ⟨τ, hruns', hstore'⟩ := Surroundings.exists_runs_perform hfresh'
  refine ⟨⟨σ', ?_, by rw [hstore]; decide +kernel⟩, ?_⟩
  · generalize ((fromRound 30).perform (batchOf [entryOf 0 8, entryOf 1 7])
      twoListed.store).1 = result at hruns hover
    cases result with
    | error o =>
      cases hover
      exact hruns
    | ok result => cases hover
  · have hcounted : τ.store.items.map Item.countedQty = [none, some (oneDigit 7)] := by
      rw [hstore']
      decide +kernel
    generalize ((fromRound 30).perform (updateItem (.ofNat 1) (.ofNat 1000) (entryOf 1 7).item
      ⟨oneDigit 7⟩ (.ofNat 3)) twoListed.store).1 = result at hruns' hlone
    match result with
    | .ok (.ok i) => exact ⟨i, τ, hruns', hcounted⟩
    | .ok (.error _) => cases hlone
    | .error _ => cases hlone

end Replay

end Recount.Counting
