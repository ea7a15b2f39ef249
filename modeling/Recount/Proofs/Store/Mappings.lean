import Recount.Proofs.Store.Effects

/-!
# Mappings of a store

Identifiers tell mappings apart, and one mapping of a tenant for a data set is active at most. Calls
about mappings keep this, and calls about counts leave mappings alone.
-/

namespace Recount

/-- The mapping as it is when it is made active or inactive. -/
def Mapping.flagged (m : Mapping) (active : Bool) (time : Time) : Mapping :=
  { m with isActive := active, updatedAt := time }

namespace Store

variable {s s' : Store} {supply : Supply} {m n : Mapping} {now : Time}

/-- What holds of the mappings of a store at any time. -/
structure Registered (s : Store) : Prop where
  nodup : (s.mappings.map Mapping.id).Nodup
  /-- One mapping of a data set is active at most. -/
  active_unique : ∀ m ∈ s.mappings, ∀ n ∈ s.mappings, m.tenant = n.tenant → m.dataset = n.dataset →
    m.isActive = true → n.isActive = true → m = n

theorem Registered.empty : Registered .empty where
  nodup := List.nodup_nil
  active_unique _ hm := absurd hm List.not_mem_nil

theorem Registered.of_same (h : s.Registered) (hsame : s'.mappings = s.mappings) : s'.Registered where
  nodup := hsame ▸ h.nodup
  active_unique := hsame ▸ h.active_unique

section Deactivate

/-- A mapping that becomes inactive for another one keeps its identity. -/
theorem exists_of_mem_deactivateSiblings (hn : n ∈ (s.deactivateSiblings m now).mappings) :
    ∃ old ∈ s.mappings, old.id = n.id ∧ old.tenant = n.tenant ∧ (n.isActive = true → n = old) := by
  obtain ⟨old, hold, heq⟩ := List.mem_map.mp hn
  refine ⟨old, hold, ?_⟩
  split at heq
  · subst heq
    exact ⟨rfl, rfl, fun h => by cases h⟩
  · subst heq
    exact ⟨rfl, rfl, fun _ => rfl⟩

/-- The other mappings of the tenant for the data set are inactive. -/
theorem inactive_of_mem_deactivateSiblings (hn : n ∈ (s.deactivateSiblings m now).mappings)
    (hid : n.id ≠ m.id) (htenant : n.tenant = m.tenant) (hdataset : n.dataset = m.dataset) :
    n.isActive = false := by
  obtain ⟨old, -, heq⟩ := List.mem_map.mp hn
  split at heq
  · subst heq
    rfl
  · next hnot =>
    subst heq
    simpa [hid, htenant, hdataset] using hnot

theorem Registered.deactivateSiblings (h : s.Registered) :
    (s.deactivateSiblings m now).Registered where
  nodup := by
    have hids : (s.deactivateSiblings m now).mappings.map Mapping.id = s.mappings.map Mapping.id := by
      unfold Store.deactivateSiblings
      rw [List.map_map]
      refine List.map_congr_left fun old _ => ?_
      dsimp only [Function.comp_apply]
      split <;> rfl
    rw [hids]
    exact h.nodup
  active_unique a ha b hb htenant hdataset hactive hactive' := by
    obtain ⟨old, hold, -, -, heq⟩ := exists_of_mem_deactivateSiblings ha
    obtain ⟨old', hold', -, -, heq'⟩ := exists_of_mem_deactivateSiblings hb
    obtain rfl := heq hactive
    obtain rfl := heq' hactive'
    exact h.active_unique a hold b hold' htenant hdataset hactive hactive'

/-- A mapping is put that is inactive, or whose siblings are. -/
theorem Registered.putMapping (h : s.Registered)
    (halone : m.isActive = true → ∀ n ∈ s.mappings, n.id ≠ m.id → n.tenant = m.tenant →
      n.dataset = m.dataset → n.isActive = false) : (s.putMapping m).Registered where
  nodup := nodup_putBy h.nodup
  active_unique a ha b hb htenant hdataset hactive hactive' := by
    rcases (mem_putBy_iff h.nodup).mp ha with rfl | ⟨hold, hne⟩ <;>
      rcases (mem_putBy_iff h.nodup).mp hb with rfl | ⟨hold', hne'⟩
    · rfl
    · rw [halone hactive b hold' hne' htenant.symm hdataset.symm] at hactive'
      cases hactive'
    · rw [halone hactive' a hold hne htenant hdataset] at hactive
      cases hactive
    · exact h.active_unique a hold b hold' htenant hdataset hactive hactive'

theorem Registered.enterMapping (h : s.Registered) : (s.enterMapping m now).Registered := by
  unfold Store.enterMapping
  split
  · exact h.deactivateSiblings.putMapping fun _ n hn => inactive_of_mem_deactivateSiblings hn
  · next hnot => exact h.putMapping fun hactive => absurd hactive hnot

end Deactivate

theorem mapping?_eq_some {tenant id : Id} (h : s.mapping? tenant id = some m) :
    m ∈ s.mappings ∧ m.id = id ∧ m.tenant = tenant := by
  obtain ⟨hfind, htenant⟩ := Option.filter_eq_some_iff.mp h
  exact ⟨List.mem_of_find?_eq_some hfind, by simpa using List.find?_some hfind,
    by simpa using htenant⟩

theorem mapping?_putMapping : (s.putMapping m).mapping? m.tenant m.id = some m := by
  unfold mapping? putMapping
  rw [find?_putBy_self, Option.filter_some, if_pos (decide_eq_true rfl)]

theorem mapping?_enterMapping : (s.enterMapping m now).mapping? m.tenant m.id = some m := by
  unfold Store.enterMapping
  split <;> exact mapping?_putMapping

theorem updateMapping_eq_ok {changed : Mapping}
    (h : s.updateMapping m now = .ok (changed, s')) :
    (∃ old ∈ s.mappings, old.id = m.id ∧ old.tenant = m.tenant) ∧ changed = m ∧
      s' = s.enterMapping m now := by
  unfold updateMapping at h
  split at h
  · next hsome =>
    cases h
    obtain ⟨old, hold⟩ := Option.isSome_iff_exists.mp hsome
    exact ⟨⟨old, mapping?_eq_some hold⟩, rfl, rfl⟩
  · cases h

/-- A call about mappings is answered so that one of a data set is active at most. -/
theorem Registered.answer {call : MappingCall} {result} (h : s.Registered)
    (hanswer : s.answerMappings supply call = .ok (result, s')) : s'.Registered := by
  cases call with
  | create m =>
    cases hanswer
    exact h.enterMapping
  | update m =>
    obtain ⟨-, -, rfl⟩ := updateMapping_eq_ok hanswer
    exact h.enterMapping
  | setActive tenant id active =>
    change s.setActive tenant id active supply = _ at hanswer
    unfold setActive at hanswer
    split at hanswer
    · cases hanswer
    · next m hm =>
      cases hanswer
      cases active with
      | true =>
        exact h.deactivateSiblings.putMapping fun _ n hn => inactive_of_mem_deactivateSiblings hn
      | false => exact h.putMapping fun hactive => by cases hactive
  | _ =>
    cases hanswer
    exact h

section Flags

theorem exists_flagged_of_mem_deactivateSiblings
    (hn : n ∈ (s.deactivateSiblings m now).mappings) :
    ∃ old ∈ s.mappings, ∃ active time, n = old.flagged active time := by
  obtain ⟨old, hold, rfl⟩ := List.mem_map.mp hn
  refine ⟨old, hold, ?_⟩
  split
  · exact ⟨false, now, rfl⟩
  · exact ⟨old.isActive, old.updatedAt, rfl⟩

theorem exists_flagged_of_mem_enterMapping (hn : n ∈ (s.enterMapping m now).mappings) :
    n = m ∨ ∃ old ∈ s.mappings, ∃ active time, n = old.flagged active time := by
  unfold enterMapping at hn
  split at hn
  · exact (mem_of_mem_putBy hn).imp_right exists_flagged_of_mem_deactivateSiblings
  · exact (mem_of_mem_putBy hn).imp_right fun hn => ⟨n, hn, n.isActive, n.updatedAt, rfl⟩

/-- A call about mappings stores what it writes, and changes the flags of other mappings at most. -/
theorem answerMappings_cases {call : MappingCall} {result}
    (hanswer : s.answerMappings supply call = .ok (result, s')) (hm : m ∈ s'.mappings) :
    call = .create m ∨ call = .update m ∨
      ∃ old ∈ s.mappings, ∃ active time, m = old.flagged active time := by
  cases call with
  | create new =>
    cases hanswer
    rcases exists_flagged_of_mem_enterMapping hm with rfl | hold
    · exact .inl rfl
    · exact .inr (.inr hold)
  | update new =>
    obtain ⟨-, -, rfl⟩ := updateMapping_eq_ok hanswer
    rcases exists_flagged_of_mem_enterMapping hm with rfl | hold
    · exact .inr (.inl rfl)
    · exact .inr (.inr hold)
  | setActive tenant id active =>
    change s.setActive tenant id active supply = _ at hanswer
    unfold setActive at hanswer
    split at hanswer
    · cases hanswer
    · next stored hstored =>
      obtain ⟨hstored, -⟩ := mapping?_eq_some hstored
      cases hanswer
      rcases mem_of_mem_putBy hm with rfl | hm
      · exact .inr (.inr ⟨stored, hstored, active, supply.time 1, rfl⟩)
      · cases active with
        | true => exact .inr (.inr (exists_flagged_of_mem_deactivateSiblings hm))
        | false => exact .inr (.inr ⟨m, hm, m.isActive, m.updatedAt, rfl⟩)
  | _ =>
    cases hanswer
    exact .inr (.inr ⟨m, hm, m.isActive, m.updatedAt, rfl⟩)

/-- A mapping that is there after a call about mappings has an identifier that was in use before, or
is created by the call. -/
theorem answerMappings_mappings {call : MappingCall} {result}
    (hanswer : s.answerMappings supply call = .ok (result, s')) (hm : m ∈ s'.mappings) :
    (∃ old ∈ s.mappings, old.id = m.id) ∨ call = .create m := by
  rcases answerMappings_cases hanswer hm with rfl | rfl | ⟨old, hold, -, -, rfl⟩
  · exact .inr rfl
  · obtain ⟨⟨old, hold, hid, -⟩, -⟩ := updateMapping_eq_ok hanswer
    exact .inl ⟨old, hold, hid⟩
  · exact .inl ⟨old, hold, rfl⟩

end Flags

end Store
end Recount
