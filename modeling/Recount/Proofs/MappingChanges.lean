import Recount.Proofs.ActiveMapping
import Recount.Proofs.Concurrent.Unfolding
import Recount.Proofs.Mapping.Changing

/-!
# Changes of a mapping at the same time

Two tasks change one mapping, in any order and with any other requests in between. An update writes
the mapping back as it has read it, with its own changes. What the other task has changed in between
is lost then, so the two come out as one after the other only if there was nothing to lose.
-/

namespace Recount.Concurrent

open Store MappingChange

variable {sources : Loading.Sources} {world : Nat → World} {last n m s t : Nat} {tenant id : Id}
  {c d : MappingChange} {before stored result : Mapping} {w w' : World}

/-- The mapping of a tenant. -/
def World.mapping (w : World) (tenant id : Id) : Option Mapping := w.store.mapping? tenant id

/-- A task makes a change of a mapping. -/
def World.Makes (w : World) (n : Nat) (tenant id : Id) (c : MappingChange) : Prop :=
  ∃ work, w.works[n]? = some work ∧ work.task = taskOf tenant id c

/-- A task has made a change of a mapping with success. -/
def World.Changed (connections : Erp.Connections) (w : World) (n : Nat) (tenant id : Id)
    (c : MappingChange) : Prop :=
  w.Makes n tenant id c ∧
    ∃ result, w.Returned n (actionOf connections tenant id c) (.ok result)

/-- A task writes its change of a mapping. -/
structure Writes (n : Nat) (w w' : World) (tenant id : Id) (c : MappingChange) : Prop where
  makes : w.Makes n tenant id c
  writes : ∃ e, Exchanges n w w' e ∧ IsWrite tenant id c e

/-- Two tasks change a mapping, and both succeed. At first neither of them has asked anything, and
the mapping changes only when one of them writes it. -/
structure Race (sources : Loading.Sources) (world : Nat → World) (last n m : Nat) (tenant id : Id)
    (c d : MappingChange) (before : Mapping) : Prop where
  unfolds : Unfolds sources nobody last world
  ne : n ≠ m
  before : (world 0).mapping tenant id = some before
  begun : ∀ work, ((world 0).works[n]? = some work ∨ (world 0).works[m]? = some work) → work.past = []
  changed : (world last).Changed sources.connections n tenant id c
  changed' : (world last).Changed sources.connections m tenant id d
  quiet : ∀ t < last, (world (t + 1)).mapping tenant id = (world t).mapping tenant id ∨
    Writes n (world t) (world (t + 1)) tenant id c ∨ Writes m (world t) (world (t + 1)) tenant id d

/-- A task makes a change: it reads the mapping at one moment and writes it at another one. A flag is
set at one moment. -/
structure Takes (world : Nat → World) (last n : Nat) (tenant id : Id) (c : MappingChange)
    (read write : Nat) : Prop where
  read_le : read ≤ write
  write_lt : write < last
  atomic : ∀ active, c = .setActive active → read = write
  reads : ∃ e, Exchanges n (world read) (world (read + 1)) e ∧ IsRead tenant id c e
  writes : Writes n (world write) (world (write + 1)) tenant id c
  leaves : ∃ found time, (world read).mapping tenant id = some found ∧
    (world (write + 1)).mapping tenant id = some (c.apply found time)

section Answers

variable {s s' : Store} {drawn drawn' : List Id}

theorem Answers.getMapping {answer}
    (h : Answers s drawn (.store (.mappings (.get tenant id))) answer s' drawn') :
    answer = .ok (s.mapping? tenant id) := h.eq_of_step fun _ => rfl

theorem Answers.updateMapping {changed : Mapping}
    (h : Answers s drawn (.store (.mappings (.update changed))) (.ok result) s' drawn') :
    s'.mapping? changed.tenant changed.id = some changed := by
  obtain ⟨supply, hanswer⟩ := h.exists_answer
  obtain ⟨-, -, rfl⟩ := updateMapping_eq_ok hanswer
  exact mapping?_enterMapping

theorem Answers.setActive {active : Bool}
    (h : Answers s drawn (.store (.mappings (.setActive tenant id active))) (.ok result) s' drawn') :
    ∃ found time, s.mapping? tenant id = some found ∧
      s'.mapping? tenant id = some (found.flagged active time) := by
  obtain ⟨supply, hanswer⟩ := h.exists_answer
  change s.setActive tenant id active supply = _ at hanswer
  unfold Store.setActive at hanswer
  split at hanswer
  · cases hanswer
  · next found hfound =>
    obtain ⟨-, rfl, rfl⟩ := mapping?_eq_some hfound
    cases hanswer
    exact ⟨found, supply.time 1, hfound, mapping?_putMapping⟩

end Answers

/-- A task that makes a change has come as far in it as its history says. -/
theorem Reachable.change_reaches (hw : Reachable sources nobody w) {work : Work}
    (hwork : work ∈ w.works) (htask : work.task = taskOf tenant id c) {q : Request} {next}
    (hrest : work.rest = .ask q next) :
    ∃ next', (actionOf sources.connections tenant id c).run.Reaches work.past (.ask q next') := by
  obtain ⟨r, hr, hcame⟩ := hw.action_reaches hwork
  obtain ⟨next', rfl, -⟩ := hcame _ _ hrest
  obtain ⟨task, past, rest⟩ := work
  subst htask
  cases c <;> exact ⟨next', hr⟩

/-- What a task that makes a change asks, it may ask. -/
theorem Reachable.writesRead (hw : Reachable sources nobody w) {work : Work} (hwork : work ∈ w.works)
    (htask : work.task = taskOf tenant id c) {q : Request} {next} (hrest : work.rest = .ask q next) :
    WritesRead tenant id c work.past q := by
  obtain ⟨next', hr⟩ := hw.change_reaches hwork htask hrest
  exact (hr.keeps (actionOf_keeps sources.connections)).1.1

/-- A task that has made a change has come to the result of its action. -/
theorem World.Changed.exists_done (h : w.Changed sources.connections n tenant id c) :
    ∃ work result, w.works[n]? = some work ∧ work.task = taskOf tenant id c ∧
      ((taskOf tenant id c).action sources).run.Reaches work.past (.done result) := by
  obtain ⟨⟨work, hwork, htask⟩, result, done, hdone, hreaches⟩ := h
  cases hwork.symm.trans hdone
  cases c <;> exact ⟨work, _, hwork, htask, hreaches⟩

/-- A task that writes its change has made it then. -/
theorem Writes.changed (hw : Reachable sources nobody w) (h : Writes n w w' tenant id c) :
    w'.Changed sources.connections n tenant id c := by
  obtain ⟨work, hwork, htask⟩ := h.makes
  obtain ⟨e, hexchange, he⟩ := h.writes
  obtain ⟨asking, next, hasking, hrest, hafter⟩ := hexchange.exists_works
  cases hwork.symm.trans hasking
  obtain ⟨next', hr⟩ := hw.change_reaches (List.mem_of_getElem? hwork) htask hrest
  obtain ⟨result, hdone⟩ := he.succeeds hr
  exact ⟨⟨_, hafter, htask⟩, result, _, hafter, hdone ▸ hr.ask e.answer⟩

namespace Unfolds

variable (h : Unfolds sources nobody last world)
include h

/-- A change that was made stays made. -/
theorem changed_later (hst : s ≤ t) (ht : t ≤ last)
    (hchanged : (world s).Changed sources.connections n tenant id c) :
    (world t).Changed sources.connections n tenant id c := by
  obtain ⟨work, _, hwork, htask, hreaches⟩ := hchanged.exists_done
  obtain ⟨after, hafter, htask', hpast⟩ := h.past_of_done hst ht hwork htask hreaches
  obtain ⟨-, result, done, hdone, hreturned⟩ := hchanged
  cases hwork.symm.trans hdone
  exact ⟨⟨after, hafter, htask'⟩, result, after, hafter, hpast ▸ hreturned⟩

/-- A task writes its change only once. -/
theorem writes_unique (hs : s < last) (ht : t < last)
    (hwrites : Writes n (world s) (world (s + 1)) tenant id c)
    (hwrites' : Writes n (world t) (world (t + 1)) tenant id c) : s = t := by
  wlog hle : s ≤ t generalizing s t
  · exact (this ht hs hwrites' hwrites (by omega)).symm
  by_contra hne
  have hlt : s + 1 ≤ t := by omega
  obtain ⟨work, _, hwork, htask, hreaches⟩ :=
    (hwrites.changed (h.reachable (Nat.le_of_lt hs))).exists_done
  obtain ⟨e, hexchange, -⟩ := hwrites'.writes
  exact h.not_exchanges_of_done hlt ht hwork htask hreaches hexchange

/-- A change that has succeeded was written at some moment, if its task had asked nothing at first. -/
theorem exists_writes (hbegun : ∀ work, (world 0).works[n]? = some work → work.past = [])
    (hchanged : (world last).Changed sources.connections n tenant id c) :
    ∃ t < last, Writes n (world t) (world (t + 1)) tenant id c := by
  obtain ⟨⟨work, hwork, htask⟩, result, done, hdone, hreaches⟩ := hchanged
  cases hwork.symm.trans hdone
  obtain ⟨e, he, hwrite⟩ := (hreaches.keeps (actionOf_keeps _)).1 result rfl
  rcases h.asked (Nat.le_refl last) hwork he with ⟨first, hfirst, hmem⟩ | ⟨t, ht, hexchange⟩
  · rw [hbegun first hfirst] at hmem
    exact absurd hmem List.not_mem_nil
  · obtain ⟨asking, next, hasking, -⟩ := hexchange.exists_work
    obtain ⟨after, hafter, htask', -⟩ :=
      exchanged_since (h.later (Nat.le_of_lt ht) (Nat.le_refl last)) hasking
    cases hwork.symm.trans hafter
    exact ⟨t, ht, ⟨asking, hasking, htask'.symm.trans htask⟩, e, hexchange, hwrite⟩

/-- A task that writes its change has read the mapping before, or does so in the same call. -/
theorem exists_takes (hbegun : ∀ work, (world 0).works[n]? = some work → work.past = []) (ht : t < last)
    (hwrites : Writes n (world t) (world (t + 1)) tenant id c) :
    ∃ read, Takes world last n tenant id c read t := by
  obtain ⟨e, hexchange, he⟩ := hwrites.writes
  cases he with
  | @setActive active result =>
    obtain ⟨found, time, hfound, hleft⟩ := Answers.setActive hexchange.answers
    exact ⟨t, Nat.le_refl t, ht, fun _ _ => rfl, ⟨_, hexchange, .setActive⟩, hwrites, found, time,
      hfound, hleft⟩
  | @update r changed result =>
    obtain ⟨work, hwork, htask⟩ := hwrites.makes
    obtain ⟨asking, next, hasking, hrest⟩ := hexchange.exists_work
    cases hwork.symm.trans hasking
    have hw : Reachable sources nobody (world t) := h.reachable (Nat.le_of_lt ht)
    obtain ⟨r, stored, time, hr, hpast, rfl⟩ := hw.writesRead (List.mem_of_getElem? hwork) htask hrest
    cases hr
    have hmem : ⟨.store (.mappings (.get tenant id)), .ok (some stored)⟩ ∈ work.past := by
      rw [hpast]
      exact .tail _ (.head _)
    rcases h.asked (Nat.le_of_lt ht) hwork hmem with ⟨first, hfirst, hmem⟩ | ⟨read, hread, hreads⟩
    · rw [hbegun first hfirst] at hmem
      exact absurd hmem List.not_mem_nil
    · have hfound : (world read).mapping tenant id = some stored :=
        (Except.ok.inj hreads.answers.getMapping).symm
      obtain ⟨-, rfl, rfl⟩ := mapping?_eq_some hfound
      exact ⟨read, Nat.le_of_lt hread, ht, nofun, ⟨_, hreads, .update⟩, hwrites, stored, time, hfound,
        Answers.updateMapping hexchange.answers⟩

end Unfolds

namespace Race

variable (h : Race sources world last n m tenant id c d before)
include h

theorem symm : Race sources world last m n tenant id d c before where
  unfolds := h.unfolds
  ne := h.ne.symm
  before := h.before
  begun work hwork := h.begun work hwork.symm
  changed := h.changed'
  changed' := h.changed
  quiet t ht := (h.quiet t ht).imp_right Or.symm

theorem exists_takes : ∃ read write, Takes world last n tenant id c read write := by
  have hbegun : ∀ work, (world 0).works[n]? = some work → work.past = [] :=
    fun work hwork => h.begun work (.inl hwork)
  obtain ⟨write, hwrite, hwrites⟩ := h.unfolds.exists_writes hbegun h.changed
  obtain ⟨read, htakes⟩ := h.unfolds.exists_takes hbegun hwrite hwrites
  exact ⟨read, write, htakes⟩

variable {read write read' write' : Nat}
variable (hn : Takes world last n tenant id c read write)
variable (hm : Takes world last m tenant id d read' write')
include hn hm

/-- The mapping stays as it is while neither of the two writes it. -/
theorem mapping_kept {a b : Nat} (hab : a ≤ b) (hb : b ≤ last) (hwrite : write < a ∨ b ≤ write)
    (hwrite' : write' < a ∨ b ≤ write') :
    (world b).mapping tenant id = (world a).mapping tenant id := by
  induction hab with
  | refl => rfl
  | @step b hab ih =>
    have hle : a ≤ b := hab
    rcases h.quiet b hb with hsame | hwrites | hwrites
    · rw [hsame]
      exact ih (by omega) (by omega) (by omega)
    · have := h.unfolds.writes_unique hb hn.write_lt hwrites hn.writes
      omega
    · have := h.unfolds.writes_unique hb hm.write_lt hwrites hm.writes
      omega

/-- A task does not read the mapping just when the other one writes it, and it does not write it then
either. -/
theorem takes_ne : read' ≠ write ∧ write' ≠ write := by
  obtain ⟨e, hwrites, -⟩ := hn.writes.writes
  constructor <;> rintro rfl
  · obtain ⟨e', hreads, -⟩ := hm.reads
    exact h.ne (hwrites.task_unique hreads)
  · obtain ⟨e', hwrites', -⟩ := hm.writes.writes
    exact h.ne (hwrites.task_unique hwrites')

/-- The task that writes last has read the mapping before or after the other one has written it. -/
theorem mapping_last_cases (hlt : write < write') : ∃ z, (world last).mapping tenant id = some z ∧
    ((write < read' ∧ ∃ t t', z = d.apply (c.apply before t) t') ∨
      (read' < write ∧ ∃ r t, d = .update r ∧ z = (update r).apply before t)) := by
  have hread := hn.read_le
  have hread' := hm.read_le
  have hlast := hm.write_lt
  obtain ⟨found, time, hfound, hleft⟩ := hn.leaves
  obtain ⟨found', time', hfound', hleft'⟩ := hm.leaves
  have hkept : (world last).mapping tenant id = some (d.apply found' time') := by
    rw [h.mapping_kept hn hm (a := write' + 1) hlast (Nat.le_refl last) (by omega) (by omega), hleft']
  have hbefore : ∀ t ≤ write, (world t).mapping tenant id = some before := fun t ht => by
    rw [h.mapping_kept hn hm (Nat.zero_le t) (by omega) (by omega) (by omega), h.before]
  cases (hbefore read hread).symm.trans hfound
  refine ⟨_, hkept, ?_⟩
  rcases Nat.lt_or_gt_of_ne (h.takes_ne hn hm).1 with hover | hafter
  · cases (hbefore read' (by omega)).symm.trans hfound'
    refine .inr ⟨hover, ?_⟩
    cases d with
    | update r => exact ⟨r, time', rfl, rfl⟩
    | setActive active =>
      have := hm.atomic active rfl
      omega
  · have hleft : (world read').mapping tenant id = some (c.apply before time) := by
      rw [h.mapping_kept hn hm (a := write + 1) hafter (by omega) (by omega) (by omega), hleft]
    cases hleft.symm.trans hfound'
    exact .inl ⟨hafter, time, time', rfl⟩

/-- What is left if one of the two writes before the other one. -/
theorem serialized_of_lt (hlt : write < write') : ∃ z, (world last).mapping tenant id = some z ∧
    (Serialized c d before z ↔ (read' < write → c.Idle before)) ∧
    (∀ r r', c = .update r → d = .update r' →
      (Serialized c d before z ↔ z.version = before.version + 2)) ∧
    (∀ active r, c = .setActive active → d = .update r →
      (Serialized c d before z ↔ z.isActive = active)) ∧
    (∀ active, d = .setActive active → Serialized c d before z) := by
  obtain ⟨z, hz, ⟨hafter, t, t', rfl⟩ | ⟨hover, r, t, rfl, rfl⟩⟩ := h.mapping_last_cases hn hm hlt
  · have hserial : Serialized c d before (d.apply (c.apply before t) t') := ⟨_, .inOrder t t', rfl⟩
    refine ⟨_, hz, ⟨fun _ _ => by omega, fun _ => hserial⟩, ?_, ?_, fun _ _ => hserial⟩
    · rintro r r' rfl rfl
      exact ⟨Serialized.version, fun _ => hserial⟩
    · rintro active r rfl rfl
      exact ⟨Serialized.isActive, fun _ => hserial⟩
  · refine ⟨_, hz, ?_, ?_, ?_, nofun⟩
    · rw [serialized_overwrite_iff]
      exact ⟨fun hidle _ => hidle, fun hidle => hidle hover⟩
    · rintro r' _ rfl -
      refine ⟨Serialized.version, fun hversion => ?_⟩
      have : before.version + 1 = before.version + 2 := hversion
      omega
    · rintro active _ rfl -
      refine ⟨Serialized.isActive, fun hflag => serialized_overwrite_iff.mpr ?_⟩
      exact congrArg MappingChange.setActive hflag.symm

end Race

/-- However two changes of a mapping interleave that both succeed, they come out as one after the
other just if neither of them is written between the moments at which the other one reads the mapping
and writes it, or it finds the mapping as it would leave it. Of two updates this is so just if the
version is raised by two, and of an update and a flag just if the flag is as it was set. -/
theorem mapping_changes_serializable_iff
    (h : Race sources world last n m tenant id c d before) :
    ∃ read write read' write' z, Takes world last n tenant id c read write ∧
      Takes world last m tenant id d read' write' ∧ (world last).mapping tenant id = some z ∧
      (Serialized c d before z ↔ (read' < write → write < write' → c.Idle before) ∧
        (read < write' → write' < write → d.Idle before)) ∧
      (∀ r r', c = .update r → d = .update r' →
        (Serialized c d before z ↔ z.version = before.version + 2)) ∧
      (∀ active r, c = .setActive active → d = .update r →
        (Serialized c d before z ↔ z.isActive = active)) := by
  obtain ⟨read, write, hn⟩ := h.exists_takes
  obtain ⟨read', write', hm⟩ := h.symm.exists_takes
  rcases Nat.lt_or_gt_of_ne (h.takes_ne hn hm).2 with hgt | hlt
  · obtain ⟨z, hz, hiff, hversion, -, hflag⟩ := h.symm.serialized_of_lt hm hn hgt
    have hsymm : Serialized c d before z ↔ Serialized d c before z := ⟨.symm, .symm⟩
    refine ⟨read, write, read', write', z, hn, hm, hz, ?_, ?_, ?_⟩
    · rw [hsymm, hiff]
      exact ⟨fun hidle => ⟨fun _ _ => by omega, fun hread _ => hidle hread⟩,
        fun hidle hread => hidle.2 hread hgt⟩
    · intro r r' hr hr'
      rw [hsymm, hversion r' r hr' hr]
    · rintro active r rfl rfl
      have hserial := (hflag active rfl).symm
      exact ⟨Serialized.isActive, fun _ => hserial⟩
  · obtain ⟨z, hz, hiff, hversion, hflag, -⟩ := h.serialized_of_lt hn hm hlt
    refine ⟨read, write, read', write', z, hn, hm, hz, ?_, hversion, hflag⟩
    rw [hiff]
    exact ⟨fun hidle => ⟨fun hread _ => hidle hread, fun _ _ => by omega⟩,
      fun hidle hread => hidle.1 hread hlt⟩

section Replay

/-- The mapping that an exchange left which wrote a change. -/
def changeWritten? (tenant id : Id) : MappingChange → Exchange → Option Mapping
  | .update _, ⟨.store (.mappings (.update _)), .ok result⟩ => some result
  | .setActive active, ⟨.store (.mappings (.setActive tenant' id' active')), .ok result⟩ =>
    if tenant' = tenant ∧ id' = id ∧ active' = active then some result else none
  | _, _ => none

theorem isWrite_of_changeWritten? {e : Exchange} (h : changeWritten? tenant id c e = some result) :
    IsWrite tenant id c e := by
  unfold changeWritten? at h
  split at h
  · exact .update
  · split at h
    · next heq =>
      obtain ⟨rfl, rfl, rfl⟩ := heq
      exact .setActive
    · cases h
  · cases h

/-- An exchange that leaves the store as it is: the clock is read, or a mapping. -/
def reads? : Exchange → Option Unit
  | ⟨.now, _⟩ => some ()
  | ⟨.store (.mappings (.get _ _)), _⟩ => some ()
  | _ => none

theorem Exchanges.store_of_reads {e : Exchange} (h : Exchanges n w w' e) (he : reads? e = some ()) :
    w'.store = w.store := by
  have hanswers := h.answers
  generalize w'.store = s', w'.drawn = drawn' at hanswers
  unfold reads? at he
  split at he
  · cases hanswers with
    | now => rfl
  · cases hanswers with
    | store supply hfresh hstep => exact (Prod.mk.inj hstep).2.symm
  · cases he

/-- In a course that was played, two tasks that begin in it write their changes of a mapping, and no
one else writes anything. -/
def Races (worlds : List World) (last n m write write' : Nat) (tenant id : Id) (c d : MappingChange) :
    Prop :=
  ((worldAt worlds 0).works.length = n ∧ (worldAt worlds 1).works.length = m ∧ n < m) ∧
    (write < last ∧ (lastLogged? worlds write (changeWritten? tenant id c)).isSome = true) ∧
    (write' < last ∧ (lastLogged? worlds write' (changeWritten? tenant id d)).isSome = true) ∧
    ∀ t < last, 1 < t → t ≠ write → t ≠ write' → lastLogged? worlds t reads? = some ()

instance (worlds : List World) (last n m write write' : Nat) (tenant id : Id) (c d : MappingChange) :
    Decidable (Races worlds last n m write write' tenant id c d) :=
  inferInstanceAs (Decidable (_ ∧ _))

variable {moves : List Move} {worlds : List World} {write write' : Nat}

/-- A task that has begun writes its change when it goes on and the log says so. -/
theorem World.worlds?_writes (hw : Reachable sources nobody w)
    (h : w.worlds? sources moves = some worlds) (hm : moves[s]? = some (.begin (taskOf tenant id c)))
    (hn : (worldAt worlds s).works.length = n) (hst : s < t) {supply : Supply}
    {erp : (call : ErpCall) → Except ErpFault call.Result} (hgo : moves[t]? = some (.go n supply erp))
    (hlogged : (lastLogged? worlds t (changeWritten? tenant id c)).isSome = true) :
    Writes n (worldAt worlds t) (worldAt worlds (t + 1)) tenant id c := by
  have ht : t < moves.length := (List.getElem?_eq_some_iff.mp hgo).1
  obtain ⟨result, hlogged⟩ := Option.isSome_iff_exists.mp hlogged
  obtain ⟨e, hexchange, he⟩ := exists_of_lastLogged? h hgo hlogged
  obtain ⟨first, hfirst, htask⟩ := World.worlds?_begun h hm hn
  have hunfolds : Unfolds sources nobody moves.length (worldAt worlds) :=
    World.worlds?_unfolds hw (fun _ _ h => h) h
  obtain ⟨work, hwork, htask', -⟩ :=
    exchanged_since (hunfolds.later (hst : s + 1 ≤ t) (Nat.le_of_lt ht)) hfirst
  exact ⟨⟨work, hwork, htask'.trans htask⟩, e, hexchange, isWrite_of_changeWritten? he⟩

/-- When neither of the two writes, nothing is written. -/
theorem Races.store_kept (hworlds : w.worlds? sources moves = some worlds)
    (h : Races worlds moves.length n m write write' tenant id c d)
    (hbegin : moves[0]? = some (.begin (taskOf tenant id c)))
    (hbegin' : moves[1]? = some (.begin (taskOf tenant id d))) (ht : t < moves.length)
    (hne : t ≠ write) (hne' : t ≠ write') :
    (worldAt worlds (t + 1)).store = (worldAt worlds t).store := by
  obtain ⟨-, -, -, hquiet⟩ := h
  rcases t with _ | _ | t
  · rw [World.worlds?_begin hworlds hbegin]
    rfl
  · rw [World.worlds?_begin hworlds hbegin']
    rfl
  · obtain ⟨k, e, hexchange, he⟩ := World.worlds?_logged hworlds ht (hquiet _ ht (by omega) hne hne')
    exact hexchange.store_of_reads he

theorem Races.race {supply supply' : Supply}
    {erp erp' : (call : ErpCall) → Except ErpFault call.Result}
    (hw : Reachable sources nobody w) (hworlds : w.worlds? sources moves = some worlds)
    (h : Races worlds moves.length n m write write' tenant id c d)
    (hbefore : w.mapping tenant id = some before)
    (hbegin : moves[0]? = some (.begin (taskOf tenant id c)))
    (hbegin' : moves[1]? = some (.begin (taskOf tenant id d)))
    (hgo : moves[write]? = some (.go n supply erp))
    (hgo' : moves[write']? = some (.go m supply' erp')) :
    Race sources (worldAt worlds) moves.length n m tenant id c d before := by
  have ⟨⟨hn, hm, hlt⟩, ⟨hwrite, hlogged⟩, ⟨hwrite', hlogged'⟩, _⟩ := h
  have hunfolds : Unfolds sources nobody moves.length (worldAt worlds) :=
    World.worlds?_unfolds hw (fun _ _ h => h) hworlds
  have hpos : 0 < write := Nat.pos_of_ne_zero fun hzero => by
    cases (hzero ▸ hgo).symm.trans hbegin
  have hpos' : 1 < write' := by
    rcases write' with _ | _ | write'
    · cases hgo'.symm.trans hbegin
    · cases hgo'.symm.trans hbegin'
    · omega
  have hwrites := World.worlds?_writes hw hworlds hbegin hn hpos hgo hlogged
  have hwrites' := World.worlds?_writes hw hworlds hbegin' hm hpos' hgo' hlogged'
  refine ⟨hunfolds, Nat.ne_of_lt hlt, World.worlds?_zero hworlds ▸ hbefore, ?begun, ?changed,
    ?changed', fun t ht => ?quiet⟩
  case begun =>
    rintro work (hwork | hwork)
    · have := (List.getElem?_eq_some_iff.mp hwork).1
      omega
    · have := (List.getElem?_eq_some_iff.mp hwork).1
      omega
  case changed =>
    exact hunfolds.changed_later hwrite (Nat.le_refl _)
      (hwrites.changed (hunfolds.reachable (Nat.le_of_lt hwrite)))
  case changed' =>
    exact hunfolds.changed_later hwrite' (Nat.le_refl _)
      (hwrites'.changed (hunfolds.reachable (Nat.le_of_lt hwrite')))
  case quiet =>
    by_cases hfirst : t = write
    · exact .inr (.inl (hfirst ▸ hwrites))
    by_cases hsecond : t = write'
    · exact .inr (.inr (hsecond ▸ hwrites'))
    · exact .inl (congrArg (Store.mapping? · tenant id)
        (h.store_kept hworlds hbegin hbegin' ht hfirst hsecond))

/-- A mapping is created. -/
def oneMapping : World := played oneConnection (.begin (newMapping "A" true) :: goOn 1 0 3)

/-- The change of a name. -/
def newName (name : String) : MappingChange := .update ⟨some name, none, none, none, none, none⟩

/-- Two changes of the only mapping begin. -/
def bothChanging (c d : MappingChange) : List Move :=
  [.begin (taskOf (.ofNat 1) (.ofNat 2000) c), .begin (taskOf (.ofNat 1) (.ofNat 2000) d)]

/-- The mapping is renamed and then made inactive. -/
def renamedBefore : List Move :=
  bothChanging (.setActive false) (newName "B") ++ goOn 10 2 3 ++ goOn 20 1 1

theorem mapping_changes_serializable_iff_renamedBefore : ∃ world before z,
    Race oneConnection world 6 1 2 (.ofNat 1) (.ofNat 2000) (.setActive false) (newName "B") before ∧
      (world 6).mapping (.ofNat 1) (.ofNat 2000) = some z ∧
      z.isActive = false ∧ z.name = "B" ∧
      Serialized (.setActive false) (newName "B") before z := by
  have hplayed : (oneMapping.worlds? oneConnection renamedBefore).any fun worlds =>
      (oneMapping.mapping (.ofNat 1) (.ofNat 2000)).any fun before =>
        Races worlds 6 1 2 5 4 (.ofNat 1) (.ofNat 2000) (.setActive false) (newName "B") ∧
          ((worldAt worlds 6).mapping (.ofNat 1) (.ofNat 2000)).any fun z =>
            z.isActive = false ∧ z.name = "B" := by
    decide +kernel
  obtain ⟨worlds, hworlds, hplayed⟩ := (Option.any_eq_true _ _).mp hplayed
  obtain ⟨before, hbefore, hplayed⟩ := (Option.any_eq_true _ _).mp hplayed
  obtain ⟨hraces, hplayed⟩ := of_decide_eq_true hplayed
  obtain ⟨z, hz, hplayed⟩ := (Option.any_eq_true _ _).mp hplayed
  obtain ⟨hflag, hname⟩ := of_decide_eq_true hplayed
  have hrace : Race oneConnection (worldAt worlds) 6 1 2 (.ofNat 1) (.ofNat 2000) (.setActive false)
      (newName "B") before :=
    hraces.race (played_reachable fun _ _ h => h) hworlds hbefore rfl rfl rfl rfl
  obtain ⟨_, _, _, _, z', -, -, hz', -, -, hiff⟩ := mapping_changes_serializable_iff hrace
  cases hz.symm.trans hz'
  exact ⟨_, before, z, hrace, hz, hflag, hname, (hiff false _ rfl rfl).mpr hflag⟩

/-- Two users read the mapping before either of them writes it with another name. -/
def renamedBetween : List Move :=
  bothChanging (newName "B") (newName "C") ++ goOn 10 1 2 ++ goOn 20 2 3 ++ goOn 30 1 1

/-- Two updates succeed that raise the version once. -/
theorem not_mapping_changes_serializable : ¬ ∀ (sources : Loading.Sources) (world : Nat → World)
    (last n m : Nat) (tenant id : Id) (c d : MappingChange) (before : Mapping),
    Race sources world last n m tenant id c d before →
      ∃ z, (world last).mapping tenant id = some z ∧ Serialized c d before z := by
  intro h
  have hplayed : (oneMapping.worlds? oneConnection renamedBetween).any fun worlds =>
      (oneMapping.mapping (.ofNat 1) (.ofNat 2000)).any fun before =>
        Races worlds 8 1 2 7 6 (.ofNat 1) (.ofNat 2000) (newName "B") (newName "C") ∧
          ((worldAt worlds 8).mapping (.ofNat 1) (.ofNat 2000)).map Mapping.version =
            some (before.version + 1) := by
    decide +kernel
  obtain ⟨worlds, hworlds, hplayed⟩ := (Option.any_eq_true _ _).mp hplayed
  obtain ⟨before, hbefore, hplayed⟩ := (Option.any_eq_true _ _).mp hplayed
  obtain ⟨hraces, hraised⟩ := of_decide_eq_true hplayed
  have hrace : Race oneConnection (worldAt worlds) 8 1 2 (.ofNat 1) (.ofNat 2000) (newName "B")
      (newName "C") before :=
    hraces.race (played_reachable fun _ _ h => h) hworlds hbefore rfl rfl rfl rfl
  obtain ⟨z, hz, hserialized⟩ := h _ _ _ _ _ _ _ _ _ _ hrace
  rw [hz] at hraised
  have hversion : z.version = before.version + 1 := Option.some.inj hraised
  have hversion' : z.version = before.version + 2 := hserialized.version
  omega

end Replay

end Recount.Concurrent
