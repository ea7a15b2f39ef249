import Recount.Proofs.Concurrent.History
import Recount.Proofs.Store.Mappings

/-!
# Changes of a mapping

A mapping that is there is changed in two ways: some of its fields are replaced, which opens its next
version, or it is made active or inactive. The first kind of change reads the mapping, and writes it
back as a whole after it was checked. The second kind is one call.
-/

namespace Recount

/-- A change of a mapping that is there. -/
inductive MappingChange where
  | update (r : UpdateMapping)
  | setActive (active : Bool)

/-- A mapping with its times left aside. -/
def Mapping.timeless (m : Mapping) : Mapping := { m with createdAt := default, updatedAt := default }

theorem Mapping.same_of_timeless_eq {m n : Mapping} (h : m.timeless = n.timeless) :
    m.version = n.version ∧ m.isActive = n.isActive := by
  have hversion : m.timeless.version = n.timeless.version := congrArg _ h
  have hflag : m.timeless.isActive = n.timeless.isActive := congrArg _ h
  exact ⟨hversion, hflag⟩

namespace MappingChange

variable {c d : MappingChange} {m m' before : Mapping} {t t' : Time}

/-- What a mapping becomes by a change. -/
def apply : MappingChange → Mapping → Time → Mapping
  | update r, m, time => m.withChanges r time
  | setActive active, m, time => m.flagged active time

/-- The change finds the mapping as it would leave it. -/
def Idle (c : MappingChange) (m : Mapping) : Prop := c = setActive m.isActive

/-- What two changes leave when one is made after the other. -/
inductive Serial (c d : MappingChange) (before : Mapping) : Mapping → Prop
  | inOrder (t t' : Time) : Serial c d before (d.apply (c.apply before t) t')
  | reversed (t t' : Time) : Serial c d before (c.apply (d.apply before t) t')

/-- Times aside, a mapping is what two changes leave when one is made after the other. -/
def Serialized (c d : MappingChange) (before after : Mapping) : Prop :=
  ∃ s, Serial c d before s ∧ s.timeless = after.timeless

theorem Serialized.symm {after : Mapping} (h : Serialized c d before after) :
    Serialized d c before after := by
  obtain ⟨s, hserial, htimeless⟩ := h
  refine ⟨s, ?_, htimeless⟩
  cases hserial with
  | inOrder t t' => exact .reversed t t'
  | reversed t t' => exact .inOrder t t'

/-- Times aside, what a change leaves depends on nothing but the mapping without its times. -/
theorem timeless_apply (h : m.timeless = m'.timeless) :
    (c.apply m t).timeless = (c.apply m' t').timeless := by
  obtain ⟨⟩ := m
  obtain ⟨⟩ := m'
  simp only [Mapping.timeless, Mapping.mk.injEq] at h
  cases c <;> simp_all [apply, Mapping.timeless, Mapping.withChanges, Mapping.flagged]

/-- An idle change leaves the mapping as it is, times aside. -/
theorem Idle.timeless_eq (h : c.Idle m) : (c.apply m t).timeless = m.timeless := by
  rw [Idle] at h
  subst h
  rfl

/-- An update that overwrites another change with what it has read before comes out as if they were
made one after the other just if the other change was idle. -/
theorem serialized_overwrite_iff {r : UpdateMapping} :
    Serialized c (.update r) before ((update r).apply before t) ↔ c.Idle before := by
  constructor
  · rintro ⟨s, hserial, htimeless⟩
    obtain ⟨hversion, hflag⟩ := Mapping.same_of_timeless_eq htimeless
    have hversion : s.version = before.version + 1 := hversion
    have hflag : s.isActive = before.isActive := hflag
    cases c with
    | update r' =>
      have hraised : s.version = before.version + 1 + 1 := by
        cases hserial <;> rfl
      omega
    | setActive active =>
      have hset : s.isActive = active := by
        cases hserial <;> rfl
      rw [Idle, ← hflag, hset]
  · intro hidle
    exact ⟨_, .inOrder default t, timeless_apply hidle.timeless_eq⟩

/-- The version after two updates, one after the other. -/
theorem Serialized.version {r r' : UpdateMapping} {after : Mapping}
    (h : Serialized (.update r) (.update r') before after) : after.version = before.version + 2 := by
  obtain ⟨s, hserial, htimeless⟩ := h
  have hversion : s.version = after.version := (Mapping.same_of_timeless_eq htimeless).1
  have hraised : s.version = before.version + 1 + 1 := by
    cases hserial <;> rfl
  omega

/-- The flag after it was set and the mapping was updated, one after the other. -/
theorem Serialized.isActive {active : Bool} {r : UpdateMapping} {after : Mapping}
    (h : Serialized (.setActive active) (.update r) before after) : after.isActive = active := by
  obtain ⟨s, hserial, htimeless⟩ := h
  rw [← (Mapping.same_of_timeless_eq htimeless).2]
  cases hserial <;> rfl

end MappingChange

namespace Concurrent

open Recount.Action
open Program (Rule)

variable {tenant id : Id} {c : MappingChange}

/-- The task that makes a change. -/
def taskOf (tenant id : Id) : MappingChange → Task
  | .update r => .updateMapping tenant id r
  | .setActive active => .setActive tenant id active

/-- The action that makes a change. -/
def actionOf (connections : Erp.Connections) (tenant id : Id) : MappingChange → Action Mapping
  | .update r => Mapping.update connections tenant id r
  | .setActive active => Mapping.setActive tenant id active

/-- The exchange by which the mapping is read that is to be changed. A flag is set in the same call. -/
inductive IsRead (tenant id : Id) : MappingChange → Exchange → Prop
  | update {r : UpdateMapping} {found : Mapping} :
      IsRead tenant id (.update r) ⟨.store (.mappings (.get tenant id)), .ok (some found)⟩
  | setActive {active : Bool} {result : Mapping} :
      IsRead tenant id (.setActive active)
        ⟨.store (.mappings (.setActive tenant id active)), .ok result⟩

/-- The exchange by which a change is written. -/
inductive IsWrite (tenant id : Id) : MappingChange → Exchange → Prop
  | update {r : UpdateMapping} {changed result : Mapping} :
      IsWrite tenant id (.update r) ⟨.store (.mappings (.update changed)), .ok result⟩
  | setActive {active : Bool} {result : Mapping} :
      IsWrite tenant id (.setActive active)
        ⟨.store (.mappings (.setActive tenant id active)), .ok result⟩

/-- What a task has asked that is about to write a mapping with changes. -/
def readPast (tenant id : Id) (stored : Mapping) (time : Time) : List Exchange :=
  [⟨.now, time⟩, ⟨.store (.mappings (.get tenant id)), .ok (some stored)⟩]

/-- An update writes the mapping that it has read, with its changes. -/
def WritesRead (tenant id : Id) (c : MappingChange) : Rule Request Request.Answer := fun h q =>
  match q with
  | .store (.mappings (.update changed)) =>
    ∃ r stored time, c = .update r ∧ h = readPast tenant id stored time ∧
      changed = stored.withChanges r time
  | _ => True

/-- A change that has succeeded was written. -/
theorem actionOf_keeps (connections : Erp.Connections) : Keeps (WritesRead tenant id c)
    (fun _ past => ∃ e ∈ past, IsWrite tenant id c e) (actionOf connections tenant id c) [] := by
  cases c with
  | update r =>
    refine keeps_bind.mpr (keeps_checkFields.mpr fun _ => ?_)
    simp only [Mapping.get, keeps_bind, keeps_mappings, keeps_require]
    refine ⟨trivial, ?_⟩
    rintro _ stored rfl
    simp only [keeps_ite, keeps_fail, keeps_bind, keeps_now, keeps_check]
    refine ⟨fun _ => trivial, fun _ => ⟨trivial, fun time _ _ => keeps_mappings.mpr ⟨?_, ?_⟩⟩⟩
    · exact ⟨r, stored, time, rfl, rfl, rfl⟩
    · exact fun result => ⟨_, List.mem_cons_self, .update⟩
  | setActive active =>
    exact keeps_mappings.mpr ⟨trivial, fun result => ⟨_, List.mem_cons_self, .setActive⟩⟩

section Ends

variable {connections : Erp.Connections} {past : List Exchange} {r : UpdateMapping} {changed : Mapping}

/-- An update that is about to write has its end before it. -/
theorem update_reaches {next} (h : (Mapping.update connections tenant id r).run.Reaches past
    (.ask (.store (.mappings (.update changed))) next)) : next = .done := by
  unfold Mapping.update checkFields at h
  split at h
  swap
  · cases h.of_done.2
  rcases h.of_ask with ⟨-, heq⟩ | ⟨answer, later, -, h⟩
  · cases (Program.ask.inj heq).1
  rcases answer with e | _ | stored
  · cases h.of_done.2
  · cases h.of_done.2
  change (if r.fields.any List.isEmpty then _ else _ : Action Mapping).run.Reaches _ _ at h
  split at h
  · cases h.of_done.2
  rcases h.of_ask with ⟨-, heq⟩ | ⟨time, later, -, h⟩
  · cases (Program.ask.inj heq).1
  dsimp only at h
  change (check ((stored.withChanges r time).checkStorable connections) >>= _ :
    Action Mapping).run.Reaches _ _ at h
  cases hcheck : (stored.withChanges r time).checkStorable connections with
  | error e =>
    rw [hcheck] at h
    cases h.of_done.2
  | ok =>
    rw [hcheck] at h
    rcases h.of_ask with ⟨-, heq⟩ | ⟨answer, later, -, h⟩
    · obtain ⟨hq, hnext⟩ := Program.ask.inj heq
      cases hq
      exact eq_of_heq hnext
    · cases h.of_done.2

/-- A change that is written succeeds. -/
theorem IsWrite.succeeds {e : Exchange} {next} (he : IsWrite tenant id c e)
    (h : (actionOf connections tenant id c).run.Reaches past (.ask e.request next)) :
    ∃ result, next e.answer = .done (.ok result) := by
  cases he with
  | @update r changed result => exact ⟨result, congrFun (update_reaches h) (.ok result)⟩
  | @setActive active result =>
    rcases h.of_ask with ⟨-, heq⟩ | ⟨answer, later, -, h⟩
    · exact ⟨result, congrFun (eq_of_heq (Program.ask.inj heq).2) (.ok result)⟩
    · cases h.of_done.2

end Ends

end Concurrent
end Recount
