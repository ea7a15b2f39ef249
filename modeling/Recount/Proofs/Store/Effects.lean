import Recount.Proofs.Store.Answers

/-!
# What calls leave alone

Writing items does not touch counts, writing reports does not touch items, and so on.
The counts of a store change in three ways only: a draft is created, one count is
moved by a transition, or one is deleted.
-/

namespace Recount

/-- The first identifiers of a supply. -/
def Supply.ids (supply : Supply) (n : Nat) : List Id := (List.range n).map supply.id

theorem Supply.id_mem_ids {supply : Supply} {k n : Nat} (h : k < n) :
    supply.id k ∈ supply.ids n :=
  List.mem_map_of_mem (List.mem_range.mpr h)

namespace Store

variable {s s' : Store} {supply : Supply}

/-- As many identifiers as one call may draw. -/
def demand (s : Store) : Nat := s.items.length + 1

section Frames

variable {items : List Item} {reports : List Report}

@[simp] theorem putItems_counts : (s.putItems items).counts = s.counts := by
  induction items generalizing s with
  | nil => rfl
  | cons i items ih => exact ih

@[simp] theorem putItems_reports : (s.putItems items).reports = s.reports := by
  induction items generalizing s with
  | nil => rfl
  | cons i items ih => exact ih

@[simp] theorem putItems_items : (s.putItems items).items = putAll Item.id items s.items := by
  induction items generalizing s with
  | nil => rfl
  | cons i items ih => exact ih

@[simp] theorem putReports_counts : (s.putReports reports).counts = s.counts := by
  induction reports generalizing s with
  | nil => rfl
  | cons r reports ih => exact ih

@[simp] theorem putReports_items : (s.putReports reports).items = s.items := by
  induction reports generalizing s with
  | nil => rfl
  | cons r reports ih => exact ih

theorem putItems_eq : s.putItems items = { s with items := putAll Item.id items s.items } := by
  induction items generalizing s with
  | nil => rfl
  | cons i items ih => exact ih

theorem putReports_eq :
    s.putReports reports = { s with reports := (s.putReports reports).reports } := by
  induction reports generalizing s with
  | nil => rfl
  | cons r reports ih =>
    change (s.putReport r).putReports reports = _
    rw [ih]
    rfl

theorem changeReport_eq {i : Item} {change : ReportChange} :
    s.changeReport i change = { s with reports := (s.changeReport i change).reports } := by
  cases change <;> rfl

@[simp] theorem changeReport_counts {i : Item} {change : ReportChange} :
    (s.changeReport i change).counts = s.counts := by
  cases change <;> rfl

@[simp] theorem changeReport_items {i : Item} {change : ReportChange} :
    (s.changeReport i change).items = s.items := by
  cases change <;> rfl

end Frames

/-- A call is answered as a whole, or it is refused or overflows and the store stays as it is. -/
theorem step_cases {call : StoreCall} {answer} (h : s.step supply call = (answer, s')) :
    (∃ result, answer = .ok (.ok result) ∧ s.answer supply call = .ok (result, s')) ∨
      s' = s ∧ ∀ result, answer ≠ .ok (.ok result) := by
  unfold step at h
  split at h
  · next result store hanswer =>
    cases h
    exact .inl ⟨result, rfl, hanswer⟩
  · cases h
    exact .inr ⟨rfl, by simp⟩
  · cases h
    exact .inr ⟨rfl, by simp⟩

section Answered

variable {count id : Id} {i : Item} {r : Report}

/-- An item that is read is stored. -/
theorem step_getItem (h : s.step supply (.counts (.getItem count id)) = (.ok (.ok (some i)), s')) :
    i ∈ s'.items := by
  obtain ⟨hanswer, rfl⟩ := Prod.mk.inj h
  exact (item?_eq_some (Except.ok.inj (Except.ok.inj hanswer))).1

/-- An item that is inserted is stored as it is. -/
theorem step_insertItem {new : Item}
    (h : s.step supply (.counts (.insertItem new)) = (.ok (.ok i), s')) : i ∈ s'.items := by
  rcases step_cases h with ⟨result, hresult, hanswer⟩ | ⟨-, hnot⟩
  · cases hresult
    obtain ⟨_, _, _, _, _, _, rfl, rfl⟩ := insertItem_eq_ok hanswer
    exact mem_putBy_self
  · exact absurd rfl (hnot i)

theorem step_listItems {version : Option Int} {items : List Item}
    (h : s.step supply (.counts (.listItems count version)) = (.ok (.ok items), s')) :
    items = s.listItems count version := by
  obtain ⟨hanswer, rfl⟩ := Prod.mk.inj h
  exact (Except.ok.inj (Except.ok.inj hanswer)).symm

theorem step_getReport
    (h : s.step supply (.counts (.getReport count id)) = (.ok (.ok (some r)), s')) :
    r ∈ s'.reports ∧ r.count = count := by
  obtain ⟨hanswer, rfl⟩ := Prod.mk.inj h
  obtain ⟨hmem, -, hcount⟩ := report?_eq_some (Except.ok.inj (Except.ok.inj hanswer))
  exact ⟨hmem, hcount⟩

theorem step_get {tenant : Id} {c : Count}
    (h : s.step supply (.counts (.get tenant count)) = (.ok (.ok (some c)), s')) :
    c ∈ s'.counts ∧ c.id = count := by
  obtain ⟨hanswer, rfl⟩ := Prod.mk.inj h
  obtain ⟨hmem, hid, -⟩ := count?_eq_some (Except.ok.inj (Except.ok.inj hanswer))
  exact ⟨hmem, hid⟩

end Answered

/-- A call about mappings changes nothing but mappings. -/
theorem answerMappings_store {call : MappingCall} {result}
    (h : s.answerMappings supply call = .ok (result, s')) :
    s' = { s with mappings := s'.mappings } := by
  cases call with
  | create m =>
    cases h
    unfold enterMapping
    split <;> rfl
  | update m =>
    change s.updateMapping m (supply.time 0) = _ at h
    unfold updateMapping at h
    split at h
    · cases h
      unfold enterMapping
      split <;> rfl
    · cases h
  | setActive tenant id active =>
    change s.setActive tenant id active supply = _ at h
    unfold setActive at h
    split at h
    · cases h
    · cases h
      cases active <;> rfl
  | get tenant id => cases h; rfl
  | list tenant dataset => cases h; rfl
  | findActive tenant dataset => cases h; rfl

theorem answerMappings_eq_ok {call : MappingCall} {result}
    (h : s.answerMappings supply call = .ok (result, s')) :
    s'.counts = s.counts ∧ s'.items = s.items ∧ s'.reports = s.reports ∧
      s'.attempts = s.attempts := by
  rw [answerMappings_store h]
  exact ⟨rfl, rfl, rfl, rfl⟩

/-- A call about counts leaves mappings alone, and an attempt is recorded only if this is asked. -/
theorem answerCounts_eq_ok {call : CountCall} {result}
    (h : s.answerCounts supply call = .ok (result, s')) :
    s'.mappings = s.mappings ∧ ∀ a ∈ s'.attempts, a ∈ s.attempts ∨ call = .addAttempt a := by
  cases call with
  | change tenant id t =>
    obtain ⟨_, -, -, -, -, -, -, -, _, _, -, -, rfl⟩ := change_eq_ok h
    rw [putReports_eq, putItems_eq]
    exact ⟨rfl, fun a ha => .inl ha⟩
  | delete tenant id allowed =>
    obtain ⟨_, -, -, -, -, rfl⟩ := deleteCount_eq_ok h
    exact ⟨rfl, fun a ha => .inl (List.mem_of_mem_filter ha)⟩
  | upsertItem new =>
    obtain ⟨_, _, _, _, _, ⟨_, _, rfl⟩ | ⟨_, _, _, ⟨_, _, rfl⟩ | ⟨_, _, _, _, _, rfl⟩⟩⟩ :=
      upsertItem_eq_ok h
    · exact ⟨rfl, fun a ha => .inl ha⟩
    · exact ⟨rfl, fun a ha => .inl ha⟩
    · rw [changeReport_eq]
      exact ⟨rfl, fun a ha => .inl ha⟩
  | insertItem new =>
    obtain ⟨_, _, _, _, _, _, _, rfl⟩ := insertItem_eq_ok h
    exact ⟨rfl, fun a ha => .inl ha⟩
  | recordItem new report =>
    obtain ⟨_, _, _, _, _, _, _, _, _, _, rfl⟩ := recordItem_eq_ok h
    rw [changeReport_eq]
    exact ⟨rfl, fun a ha => .inl ha⟩
  | saveReport r =>
    obtain ⟨_, _, rfl⟩ := saveReport_eq_ok h
    exact ⟨rfl, fun a ha => .inl ha⟩
  | addAttempt a =>
    cases h
    refine ⟨rfl, fun b hb => (List.mem_append.mp hb).imp_right fun hb => ?_⟩
    rw [List.mem_singleton.mp hb]
  | _ =>
    cases h
    exact ⟨rfl, fun a ha => .inl ha⟩

/-- The counts that a call may leave. -/
inductive CountsAfter (s : Store) (supply : Supply) : StoreCall → List Count → Prop
  | same {call} (hnot : ∀ tenant id t, call ≠ .counts (.change tenant id t)) :
      CountsAfter s supply call s.counts
  | created (new : NewCount) :
      CountsAfter s supply (.counts (.create new))
        (putBy Count.id (s.createCount new (supply.id 0) (supply.time 0)).1 s.counts)
  | changed {c tenant id t} (hc : c ∈ s.counts) (hid : c.id = id) (htenant : c.tenant = tenant)
      (hstatus : c.status ∈ t.change.expected)
      (hversion : c.currentVersion = t.change.expectedVersion)
      (hbusy : t.change.target.isOpen = true → s.isBusy c = false) :
      CountsAfter s supply (.counts (.change tenant id t))
        (putBy Count.id (t.change.apply c (supply.time 0)) s.counts)
  | deleted {c tenant id allowed} (hc : c ∈ s.counts) (hid : c.id = id)
      (htenant : c.tenant = tenant) (hstatus : c.status ∈ allowed) :
      CountsAfter s supply (.counts (.delete tenant id allowed)) (s.counts.filter (·.id ≠ id))

theorem answer_counts {call : StoreCall} {result} (h : s.answer supply call = .ok (result, s')) :
    CountsAfter s supply call s'.counts := by
  cases call with
  | mappings call =>
    have hcounts := (answerMappings_eq_ok h).1
    exact hcounts ▸ .same (by simp)
  | counts call =>
    cases call with
    | create new => cases h; exact .created new
    | change tenant id t =>
      obtain ⟨c, hc, hid, htenant, hstatus, hversion, hbusy, -, -, -, -, rfl, rfl⟩ := change_eq_ok h
      rw [putReports_counts, putItems_counts]
      exact .changed hc hid htenant hstatus hversion hbusy
    | delete tenant id allowed =>
      obtain ⟨c, hc, hid, htenant, hstatus, rfl⟩ := deleteCount_eq_ok h
      exact .deleted hc hid htenant hstatus
    | upsertItem new =>
      obtain ⟨_, _, _, _, _, ⟨_, _, rfl⟩ | ⟨_, _, _, ⟨_, _, rfl⟩ | ⟨_, _, _, _, _, rfl⟩⟩⟩ :=
        upsertItem_eq_ok h
      · exact .same (by simp)
      · exact .same (by simp)
      · rw [show (putItem _ _).counts = (s.changeReport _ _).counts from rfl, changeReport_counts]
        exact .same (by simp)
    | insertItem new =>
      obtain ⟨_, _, _, _, _, _, _, rfl⟩ := insertItem_eq_ok h
      exact .same (by simp)
    | recordItem new report =>
      obtain ⟨_, _, _, _, _, _, _, _, _, _, rfl⟩ := recordItem_eq_ok h
      rw [changeReport_counts]
      exact .same (by simp)
    | saveReport r =>
      obtain ⟨_, _, rfl⟩ := saveReport_eq_ok h
      exact .same (by simp)
    | addAttempt a => cases h; exact .same (by simp)
    | _ => cases h; exact .same (by simp)

end Store
end Recount
