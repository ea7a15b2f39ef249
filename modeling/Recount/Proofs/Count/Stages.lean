import Mathlib.Logic.Relation
import Recount.Count.Transition
import Recount.Counting.Review

/-!
# The stages of a count

The work on a version is under way from the draft until the version is settled. Only a
recount sets a count that is past this under way again, and it opens a new version.
-/

namespace Recount

open Counting

/-- The current version is being counted, or waits for it. -/
def Status.isUnderWay : Status → Bool
  | .draft | .active | .onHold => true
  | _ => false

/-- The current version was settled, and the count was not given up since. -/
def Status.isSettled : Status → Bool
  | .submitted | .completed | .closed => true
  | _ => false

theorem Status.not_isUnderWay_of_isSettled {status : Status} (h : status.isSettled = true) :
    status.isUnderWay = false := by
  cases status <;> first | rfl | cases h

/-- The changes of stage that the service offers. -/
def stageChanges : List StageChange :=
  [.start, .pause, .resume, .finalize, .close, .reactivate, .cancel]

theorem finalize_mem_stageChanges : StageChange.finalize ∈ stageChanges := by
  simp [stageChanges]

theorem cancel_mem_stageChanges : StageChange.cancel ∈ stageChanges := by
  simp [stageChanges]

/-- A change of stage sets no count under way that was past it. -/
theorem isUnderWay_of_stageChange {change : StageChange} (hchange : change ∈ stageChanges)
    (htarget : change.target.isUnderWay = true) {status : Status}
    (hstatus : status ∈ change.expected) : status.isUnderWay = true := by
  simp only [stageChanges, List.mem_cons, List.not_mem_nil, or_false] at hchange
  rcases hchange with rfl | rfl | rfl | rfl | rfl | rfl | rfl
  · rw [List.mem_singleton.mp hstatus]
    rfl
  · rw [List.mem_singleton.mp hstatus]
    rfl
  · rw [List.mem_singleton.mp hstatus]
    rfl
  all_goals cases htarget

/-- A change of stage leads to a settled stage from a settled stage only. -/
theorem isSettled_of_stageChange {change : StageChange} (hchange : change ∈ stageChanges)
    (htarget : change.target.isSettled = true) {status : Status}
    (hstatus : status ∈ change.expected) : status.isSettled = true := by
  simp only [stageChanges, List.mem_cons, List.not_mem_nil, or_false] at hchange
  rcases hchange with rfl | rfl | rfl | rfl | rfl | rfl | rfl
  case inr.inr.inr.inl | inr.inr.inr.inr.inl | inr.inr.inr.inr.inr.inl =>
    rw [List.mem_singleton.mp hstatus]
    rfl
  all_goals cases htarget

theorem isUnderWay_of_acceptsItems {status : Status} (h : status.acceptsItems = true) :
    status.isUnderWay = true := by
  cases status <;> first | rfl | cases h

theorem not_isUnderWay_of_recountable {status : Status} (h : status ∈ recountable) :
    status.isUnderWay = false := by
  cases status <;> first | rfl | simp [recountable] at h

theorem isSettled_of_recountable {status : Status} (h : status ∈ recountable) :
    status.isSettled = true := by
  cases status <;> first | rfl | simp [recountable] at h

end Recount

/-! ## What a transition changes of a count

A change moves a count to its target, remembers a milestone, and may open the next
version. Whose count it is and which warehouse it takes stock of stay as they are. -/

namespace Recount

namespace Count

variable {c : Count} {milestone : Milestone} {m : Mark}

@[simp] theorem mark_id : (c.mark milestone m).id = c.id := by cases milestone <;> rfl

@[simp] theorem mark_tenant : (c.mark milestone m).tenant = c.tenant := by cases milestone <;> rfl

@[simp] theorem mark_warehouse : (c.mark milestone m).warehouse = c.warehouse := by
  cases milestone <;> rfl

@[simp] theorem mark_sequence : (c.mark milestone m).sequence = c.sequence := by
  cases milestone <;> rfl

@[simp] theorem mark_status : (c.mark milestone m).status = c.status := by cases milestone <;> rfl

@[simp] theorem mark_currentVersion : (c.mark milestone m).currentVersion = c.currentVersion := by
  cases milestone <;> rfl

@[simp] theorem mark_totalVersions : (c.mark milestone m).totalVersions = c.totalVersions := by
  cases milestone <;> rfl

end Count

namespace StatusChange

variable {change : StatusChange} {c : Count} {now : Time}

@[simp] theorem apply_id : (change.apply c now).id = c.id := by
  unfold apply
  cases change.milestone <;> simp

@[simp] theorem apply_tenant : (change.apply c now).tenant = c.tenant := by
  unfold apply
  cases change.milestone <;> simp

@[simp] theorem apply_warehouse : (change.apply c now).warehouse = c.warehouse := by
  unfold apply
  cases change.milestone <;> simp

@[simp] theorem apply_sequence : (change.apply c now).sequence = c.sequence := by
  unfold apply
  cases change.milestone <;> simp

@[simp] theorem apply_status : (change.apply c now).status = change.target := by
  unfold apply
  cases change.milestone <;> simp

@[simp] theorem apply_currentVersion :
    (change.apply c now).currentVersion =
      c.currentVersion + if change.opensVersion then 1 else 0 := by
  unfold apply
  cases change.milestone <;> simp

@[simp] theorem apply_totalVersions :
    (change.apply c now).totalVersions =
      c.totalVersions + if change.opensVersion then 1 else 0 := by
  unfold apply
  cases change.milestone <;> simp

end StatusChange
end Recount

/-! ## How a count moves

The stage of a count moves along the edges of a graph. The two edges that lead from a
submitted or a completed count back to an active one open the next version, and no edge
leaves the stage of a count that was given up. -/

namespace Recount

open Counting Relation

/-- The moves of a count between its stages. -/
inductive Status.Moves : Status → Status → Prop
  | start : Moves .draft .active
  | pause : Moves .active .onHold
  | resume : Moves .onHold .active
  | complete : Moves .active .submitted
  | completeDraft : Moves .draft .submitted
  | finalize : Moves .submitted .completed
  | close : Moves .completed .closed
  | reactivate : Moves .closed .completed
  | recount : Moves .submitted .active
  | recountCompleted : Moves .completed .active
  | cancel {status : Status}
      (h : status ∈ [.draft, .active, .onHold, .submitted, .completed]) : Moves status .cancelled

/-- The moves that open the next version. -/
def Status.opensVersion : Status → Status → Bool
  | .submitted, .active | .completed, .active => true
  | _, _ => false

/-- No move leaves a count that was given up. -/
theorem Status.Moves.ne_cancelled {status status' : Status} (h : status.Moves status') :
    status ≠ .cancelled := by
  rintro rfl
  cases h with
  | cancel h => simp at h

/-- A change of stage is one of the moves, and opens no version. -/
theorem moves_of_stageChange {change : StageChange} (hchange : change ∈ stageChanges)
    {status : Status} (hstatus : status ∈ change.expected) :
    status.Moves change.target ∧ status.opensVersion change.target = false := by
  simp only [stageChanges, List.mem_cons, List.not_mem_nil, or_false] at hchange
  rcases hchange with rfl | rfl | rfl | rfl | rfl | rfl | rfl
  case inr.inr.inr.inr.inr.inr =>
    refine ⟨.cancel hstatus, ?_⟩
    cases status <;> rfl
  all_goals
    obtain rfl := List.mem_singleton.mp hstatus
    exact ⟨by constructor, rfl⟩

/-- The completion of a version is a move from a draft or an active count. -/
theorem moves_of_completion {status : Status} (hstatus : status ∈ [.active, .draft]) :
    status.Moves .submitted ∧ status.opensVersion .submitted = false := by
  have hcases : status = .active ∨ status = .draft := by simpa using hstatus
  rcases hcases with rfl | rfl
  · exact ⟨.complete, rfl⟩
  · exact ⟨.completeDraft, rfl⟩

/-- A recount is a move from a submitted or a completed count, and opens a version. -/
theorem moves_of_recount {status : Status} (hstatus : status ∈ recountable) :
    status.Moves .active ∧ status.opensVersion .active = true := by
  have hcases : status = .submitted ∨ status = .completed := by simpa [recountable] using hstatus
  rcases hcases with rfl | rfl
  · exact ⟨.recount, rfl⟩
  · exact ⟨.recountCompleted, rfl⟩

namespace Count

variable {c c' : Count}

/-- A count has moved to another stage, and on to its next version if the move opens one. -/
structure Moved (c c' : Count) : Prop where
  id : c'.id = c.id
  tenant : c'.tenant = c.tenant
  warehouse : c'.warehouse = c.warehouse
  moves : c.status.Moves c'.status
  currentVersion : c'.currentVersion =
    c.currentVersion + if c.status.opensVersion c'.status then 1 else 0
  totalVersions : c'.totalVersions =
    c.totalVersions + if c.status.opensVersion c'.status then 1 else 0

/-- A change moves a count if its target is one of the moves from where the count is. -/
theorem moved_apply {change : StatusChange} {now : Time} (hmoves : c.status.Moves change.target)
    (hopens : c.status.opensVersion change.target = change.opensVersion) :
    c.Moved (change.apply c now) where
  id := StatusChange.apply_id
  tenant := StatusChange.apply_tenant
  warehouse := StatusChange.apply_warehouse
  moves := by
    rw [StatusChange.apply_status]
    exact hmoves
  currentVersion := by rw [StatusChange.apply_currentVersion, StatusChange.apply_status, hopens]
  totalVersions := by rw [StatusChange.apply_totalVersions, StatusChange.apply_status, hopens]

/-- The moves of a count lead to no earlier version. -/
theorem currentVersion_le_of_moves (h : ReflTransGen Moved c c') :
    c.currentVersion ≤ c'.currentVersion := by
  induction h with
  | refl => exact Int.le_refl _
  | @tail d d' _ hmoved ih =>
    have hnext := hmoved.currentVersion
    split at hnext <;> omega

/-- A count that was given up makes no more moves. -/
theorem eq_of_moves_of_cancelled (h : ReflTransGen Moved c c') (hc : c.status = .cancelled) :
    c' = c := by
  induction h with
  | refl => rfl
  | tail _ hmoved ih =>
    subst ih
    exact absurd hc hmoved.moves.ne_cancelled

end Count
end Recount
