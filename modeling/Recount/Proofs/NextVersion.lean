import Recount.Proofs.Counting.Recounting
import Recount.Proofs.Finality
import Recount.Proofs.Store.Settled

/-!
# The next version of a count

A recount of a settled count either leaves the store as it is or opens the next version,
whatever other tasks do in between. The version that it opens holds one item for every item of
the one before, which stays as it was.
-/

namespace Recount

open Counting

/-- A count has moved on to its next version, with an item for each item of the version before. -/
structure NextVersion (c : Count) (before after : Store) (outcome : RecountOutcome)
    (version : Int) : Prop where
  version_eq : version = c.currentVersion + 1
  stored : outcome.count ∈ after.counts
  id : outcome.count.id = c.id
  status : outcome.count.status = .active
  currentVersion : outcome.count.currentVersion = version
  totalVersions : outcome.count.totalVersions = version
  kept : after.itemsOf c.id (some c.currentVersion) = before.itemsOf c.id (some c.currentVersion)
  carried : Carried (before.itemsOf c.id (some c.currentVersion))
    (after.itemsOf c.id (some version))
  pending_before : outcome.pending =
    (before.itemsOf c.id (some c.currentVersion)).countP (·.hasVariance)
  pending_after : outcome.pending =
    (after.itemsOf c.id (some version)).countP (·.status = .pending)
  total : outcome.pending + outcome.carried =
    (before.itemsOf c.id (some c.currentVersion)).length

theorem NextVersion.congr {c : Count} {before before' after : Store} {outcome : RecountOutcome}
    {version : Int} (h : NextVersion c before after outcome version)
    (heq : before.itemsOf c.id (some c.currentVersion) =
      before'.itemsOf c.id (some c.currentVersion)) :
    NextVersion c before' after outcome version :=
  { h with
    kept := h.kept.trans heq
    carried := heq ▸ h.carried
    pending_before := h.pending_before.trans (congrArg _ heq)
    total := h.total.trans (congrArg _ heq) }

namespace Store

open Concurrent

variable {s s' : Store} {new : List Id} {supply : Supply}

/-- As many versions were opened as the number of the current one says. -/
def Numbered (s : Store) : Prop := ∀ c ∈ s.counts, c.totalVersions = c.currentVersion

theorem Numbered.answer (h : s.Numbered) {call : StoreCall} {result}
    (hanswer : s.answer supply call = .ok (result, s')) : s'.Numbered := by
  have hcounts := answer_counts hanswer
  unfold Numbered
  generalize s'.counts = after at hcounts
  cases hcounts with
  | same => exact h
  | created new =>
    intro c hc
    rcases mem_of_mem_putBy hc with rfl | hc
    · rfl
    · exact h c hc
  | changed hc =>
    intro d hd
    rcases mem_of_mem_putBy hd with rfl | hd
    · rw [StatusChange.apply_totalVersions, StatusChange.apply_currentVersion, h _ hc]
    · exact h d hd
  | deleted => exact fun c hc => h c (List.mem_of_mem_filter hc)

/-- The transition of a recount, with the items of the version as they are stored, moves the count
on to its next version. -/
theorem Sound.nextVersion {tenant actor : Id} {seen updated : Count} {items : List Item}
    {time : Time} {ids : List Id} (h : s.Sound) (hnumbered : s.Numbered)
    (hfits : FitsChange s new seen.id (recountOf seen actor items time ids))
    (hsupply : s.AreNew new (supply.ids s.demand))
    (hanswer : s.change tenant seen.id (recountOf seen actor items time ids) supply =
      .ok (updated, s')) (hlength : ids.length = items.length)
    (hitems : items.Perm (s.itemsOf seen.id (some seen.currentVersion))) :
    NextVersion seen s s' (outcomeOf items (recountOf seen actor items time ids) updated)
      updated.currentVersion := by
  have hnext : Next new s s' := h.change hfits hsupply hanswer
  obtain ⟨c, hc, hid, -, hstatus, hversion, -, -, settled, reports, -, rfl, hstore⟩ :=
    change_eq_ok hanswer
  have hcurrent : c.currentVersion = seen.currentVersion := hversion
  have hended : s.Ended seen.id seen.currentVersion := by
    intro d hd hdid
    rw [eq_of_id_eq h.counts_nodup hd hc (hdid.trans hid.symm)]
    exact .inr ⟨hcurrent, not_isUnderWay_of_recountable hstatus⟩
  have hkept : s'.itemsOf seen.id (some seen.currentVersion) =
      s.itemsOf seen.id (some seen.currentVersion) :=
    h.itemsOf_change hfits hsupply hanswer hended
  have hentered := h.itemsOf_recounted hfits hsupply hanswer rfl
  have hopened : (StatusChange.apply (recountOf seen actor items time ids).change c
      (supply.time 0)).currentVersion = seen.currentVersion + 1 := by
    rw [StatusChange.apply_currentVersion, hcurrent]
    rfl
  have hcarried : Carried (s.itemsOf seen.id (some seen.currentVersion)) (written
      (recountOf seen actor items time ids).newItems (supply.time 0)) :=
    carried_nextAll hitems hlength h.places_nodup
  rw [hopened]
  refine ⟨rfl, ?stored, ?id, ?status, ?currentVersion, ?totalVersions, hkept, ?carried, ?pending_before,
    ?pending_after, ?total⟩
  case stored =>
    rw [hstore, putReports_counts, putItems_counts]
    exact mem_putBy_self
  case id => exact StatusChange.apply_id.trans hid
  case status => exact StatusChange.apply_status
  case currentVersion => exact hopened
  case totalVersions =>
    refine (StatusChange.apply_totalVersions).trans ?_
    rw [hnumbered c hc, hcurrent]
    rfl
  case carried =>
    change Carried _ (s'.itemsOf seen.id (some ((recountOf seen actor items time ids).change.expectedVersion + 1)))
    rw [hentered]
    exact hcarried
  case pending_before => exact hitems.countP_eq _
  case pending_after =>
    change _ = (s'.itemsOf seen.id (some ((recountOf seen actor items time ids).change.expectedVersion + 1))).countP _
    rw [hentered, countP_written]
    exact (Item.countP_nextAll hlength).symm
  case total =>
    have hle : items.countP (·.hasVariance) ≤ items.length := List.countP_le_length
    have hentries : (recountOf seen actor items time ids).newItems.length = items.length :=
      Item.length_nextAll hlength
    rw [← hitems.length_eq]
    simp only [outcomeOf, hentries]
    omega

end Store

namespace Concurrent

open Store

variable {sources : Loading.Sources} {alone : Task → Prop} {w w' w₀ w₁ : World} {n : Nat}
  {work : Work} {tenant count actor : Id} {c : Count}

theorem Reachable.numbered (hw : Reachable sources alone w) : w.store.Numbered := by
  refine hw.induction (P := fun w => w.store.Numbered) ?_ (fun _ _ h => h) ?_
  · exact fun c hc => absurd hc List.not_mem_nil
  · intro w n w' h hadvance
    rcases hadvance.store_cases with hsame | ⟨supply, call, result, -, hanswer⟩
    · exact hsame ▸ h
    · exact h.answer hanswer

/-- A task that recounts has come as far in its recount as its history says. -/
theorem Reachable.recounting (hw : Reachable sources alone w) (hwork : w.works[n]? = some work)
    (htask : work.task = .openRecount tenant count actor) :
    ∃ r, (openRecount tenant count actor).run.Reaches work.past r ∧
      ∀ q next, work.rest = .ask q next → ∃ next', r = .ask q next' ∧
        next = fun answer => (next' answer).bind fun _ => .done () := by
  have hreaches := hw.action_reaches (List.mem_of_getElem? hwork)
  obtain ⟨task, past, rest⟩ := work
  subst htask
  exact hreaches

/-- A recount changes the store only when it opens a version, and it returns then. -/
theorem Reachable.store_eq_or_returned (hw : Reachable sources alone w)
    (hwork : w.works[n]? = some work) (htask : work.task = .openRecount tenant count actor)
    (hadvance : Advance n w w') :
    w'.store = w.store ∨ ∃ outcome version,
      w'.Returned n (openRecount tenant count actor) (.ok outcome) ∧
        outcome.newVersion = some version := by
  obtain ⟨r, hr, hcame⟩ := hw.recounting hwork htask
  obtain ⟨q, next, hask, ⟨answer, hexchange, hafter⟩ | ⟨-, -, -, -, -, hsame, -⟩⟩ :=
    hadvance.self_cases hwork
  · obtain ⟨next', rfl, -⟩ := hcame q next hask
    rcases (openRecount_reaches hr).answer_cases rfl answer with hquery | ⟨call, error, heq⟩ |
      ⟨outcome, version, hdone, hversion⟩
    · exact .inl (hquery.store_eq hexchange.answers)
    · cases heq
      exact .inl hexchange.answers.store_eq_of_refused
    · refine .inr ⟨outcome, version, ⟨_, hafter, ?_⟩, hversion⟩
      exact hdone ▸ hr.ask answer
  · exact .inl hsame

/-- A recount has looked at its count, which was settled then. -/
structure World.Looked (n : Nat) (tenant count : Id) (c : Count) (w : World) : Prop where
  drawn : count ∈ w.drawn
  ended : w.store.Ended count c.currentVersion
  past : ∃ work, w.works[n]? = some work ∧ work.past = seenPast tenant count c

/-- A recount that begins looks at the count as it is. -/
theorem Reachable.looked (hw : Reachable sources alone w₀) (hwork : w₀.works[n]? = some work)
    (htask : work.task = .openRecount tenant count actor) (hpast : work.past = [])
    (hc : c ∈ w₀.store.counts) (hid : c.id = count) (htenant : c.tenant = tenant)
    (hstatus : c.status ∈ recountable) (hfirst : Advance n w₀ w₁) :
    w₁.store = w₀.store ∧ w₁.Looked n tenant count c := by
  have hfound : w₀.store.count? tenant count = some c := by
    have hany : w₀.store.anyCount? count = some c :=
      (find?_id_eq_some_iff hw.sound.store.counts_nodup).mpr ⟨hc, hid⟩
    rw [count?, hany, Option.filter_some, htenant]
    simp
  obtain ⟨r, hr, hcame⟩ := hw.recounting hwork htask
  rw [hpast, openRecount_run] at hr
  obtain rfl := hr.unique .start
  obtain ⟨q, next, hask, ⟨answer, hexchange, hafter⟩ | ⟨call, supply, o, hq, hover, -⟩⟩ :=
    hfirst.self_cases hwork
  · obtain ⟨next', heq, -⟩ := hcame q next hask
    obtain ⟨rfl, -⟩ := Program.ask.inj heq
    have hquery : IsQuery (.store (.counts (.get tenant count))) := trivial
    have hsame : w₁.store = w₀.store := hquery.store_eq hexchange.answers
    have hanswer := hexchange.answers.get
    rw [hfound] at hanswer
    obtain rfl : answer = .ok (some c) := hanswer
    refine ⟨hsame, ?drawn, ?ended, _, hafter, ?past⟩
    case drawn =>
      exact hfirst.drawn_subset count (hid ▸ (hw.sound.known _ (count_id_mem_ids hc)).1)
    case ended =>
      intro d hd hdid
      rw [hsame] at hd
      rw [eq_of_id_eq hw.sound.store.counts_nodup hd hc (hdid.trans hid.symm)]
      exact .inr ⟨rfl, not_isUnderWay_of_recountable hstatus⟩
    case past =>
      rw [hpast]
      rfl
  · obtain ⟨next', heq, -⟩ := hcame q next hask
    obtain ⟨rfl, -⟩ := Program.ask.inj heq
    cases hq
    cases hover

theorem World.Looked.seen (h : w.Looked n tenant count c)
    (hrun : Relation.ReflTransGen (Step sources nobody) w w') {after : Work}
    (hafter : w'.works[n]? = some after) :
    ⟨.store (.counts (.get tenant count)), .ok (some c)⟩ ∈ after.past := by
  obtain ⟨work, hwork, hpast⟩ := h.past
  obtain ⟨after', hafter', -, hsuffix, -⟩ := exchanged_since hrun hwork
  cases hafter.symm.trans hafter'
  rw [hpast] at hsuffix
  exact hsuffix.subset (List.mem_singleton_self _)

section Later

variable (hw : Reachable sources nobody w) (h : w.Looked n tenant count c)
  (hrun : Relation.ReflTransGen (Step sources nobody) w w')

include hw h hrun

/-- As long as the count is there, its version keeps its items. -/
theorem World.Looked.kept {d : Count} (hd : d ∈ w'.store.counts) (hid : d.id = count) :
    w'.store.itemsOf count (some c.currentVersion) =
      w.store.itemsOf count (some c.currentVersion) := by
  have hw' : Reachable sources nobody w' := hw.trans hrun
  obtain ⟨-, since, hsince, hitems⟩ := hw.itemsOf_later h.drawn h.ended hrun
  rw [hitems, if_neg]
  rintro ⟨e, he, hdeleted⟩
  have hgone := hw'.gone_of_deleted (hsince ▸ List.mem_append_left _ he) hdeleted
  exact hgone.absent d hd hid

/-- The items that the recount is listed are those of the version, or there are none because the
count was deleted. -/
theorem World.Looked.listed {after : Work} (hafter : w'.works[n]? = some after) {answer}
    (he : ⟨.store (.counts (.listItems count (some c.currentVersion))), answer⟩ ∈ after.past) :
    ∃ items, answer = .ok items ∧
      (items.Perm (w.store.itemsOf count (some c.currentVersion)) ∨ items = []) := by
  obtain ⟨work, hwork, hpast⟩ := h.past
  obtain ⟨after', hafter', -, -, hsince⟩ := exchanged_since hrun hwork
  cases hafter.symm.trans hafter'
  rcases hsince _ he with he | ⟨a, b, ha, hexchange, -⟩
  · rw [hpast] at he
    injection List.mem_singleton.mp he with heq
    cases heq
  obtain ⟨-, since, -, hitems⟩ := hw.itemsOf_later h.drawn h.ended ha
  refine ⟨_, hexchange.answers.listItems, ?_⟩
  have hperm : (a.store.listItems count (some c.currentVersion)).Perm
      (a.store.itemsOf count (some c.currentVersion)) := List.mergeSort_perm _ _
  rw [hitems] at hperm
  split at hperm
  · exact .inr hperm.eq_nil
  · exact .inl hperm

/-- If no item differs, none of those that the recount is listed does. -/
theorem World.Looked.countP_eq_zero
    (hnone : ∀ i ∈ w.store.itemsOf count (some c.currentVersion), i.hasVariance = false)
    {after : Work} (hafter : w'.works[n]? = some after) {items : List Item}
    (he : ⟨.store (.counts (.listItems count (some c.currentVersion))), .ok items⟩ ∈ after.past) :
    items.countP (·.hasVariance) = 0 := by
  obtain ⟨items', heq, hitems⟩ := h.listed hw hrun hafter he
  cases heq
  rw [List.countP_eq_zero]
  intro i hi
  rcases hitems with hperm | rfl
  · rw [hnone i (hperm.subset hi)]
    exact Bool.false_ne_true
  · exact absurd hi List.not_mem_nil

/-- If no item differs, the recount returns as soon as it goes on, and leaves the store as it is. -/
theorem World.Looked.returned_none {w'' : World} {work : Work} (hwork : w'.works[n]? = some work)
    (htask : work.task = .openRecount tenant count actor) (hadvance : Advance n w' w'')
    (hnone : ∀ i ∈ w.store.itemsOf count (some c.currentVersion), i.hasVariance = false) :
    w''.store = w'.store ∧
      w''.Returned n (openRecount tenant count actor) (.ok ⟨none, 0, 0, c⟩) := by
  have hw' : Reachable sources nobody w' := hw.trans hrun
  obtain ⟨r, hr, hcame⟩ := hw'.recounting hwork htask
  obtain ⟨q, next, hask, hcases⟩ := hadvance.self_cases hwork
  obtain ⟨next', rfl, -⟩ := hcame q next hask
  have hseen := h.seen hrun hwork
  rcases (openRecount_reaches hr).ask_cases rfl hseen with heq | ⟨items, he, hdiffers⟩
  swap
  · exact absurd (h.countP_eq_zero hw hrun hnone hwork he) hdiffers
  obtain ⟨rfl, hnext⟩ := Program.ask.inj heq
  cases hnext
  rcases hcases with ⟨answer, hexchange, hafter⟩ | ⟨call, supply, o, hq, hover, -⟩
  swap
  · cases hq
    cases hover
  have hquery : IsQuery (.store (.counts (.listItems count (some c.currentVersion)))) := trivial
  refine ⟨hquery.store_eq hexchange.answers, _, hafter, ?_⟩
  obtain ⟨items, rfl, -⟩ := h.listed hw (hrun.tail (.advance hadvance)) hafter List.mem_cons_self
  have hzero := h.countP_eq_zero hw (hrun.tail (.advance hadvance)) hnone hafter List.mem_cons_self
  have hdone := hr.ask (.ok items)
  dsimp only at hdone
  rw [if_pos hzero] at hdone
  exact hdone

/-- If a recount returns that it opened a version, it has made its transition with the items of the
version. -/
theorem World.Looked.returned_opened (hstatus : c.status ∈ recountable) {outcome : RecountOutcome}
    (hreturned : w'.Returned n (openRecount tenant count actor) (.ok outcome)) {version : Int}
    (hversion : outcome.newVersion = some version) :
    ∃ items time ids updated after, w'.works[n]? = some after ∧
      after.past = ⟨.store (.counts (.change tenant count (recountOf c actor items time ids))),
        .ok updated⟩ :: drawnPast tenant count c items time ids ∧
      items.Perm (w.store.itemsOf count (some c.currentVersion)) ∧ ids.length = items.length ∧
      outcome = outcomeOf items (recountOf c actor items time ids) updated ∧
      version = updated.currentVersion := by
  obtain ⟨after, hafter, hreaches⟩ := hreturned
  have hseen := h.seen hrun hafter
  rcases (openRecount_reaches hreaches).done_cases rfl hseen hstatus with
    ⟨error, heq, -⟩ | ⟨items, he, ⟨-, heq⟩ | ⟨hdiffers, ⟨error, heq⟩ |
      ⟨time, ids, updated, hlength, heq, hlast⟩⟩⟩
  · cases heq
  · cases heq
    cases hversion
  · cases heq
  · cases heq
    cases hversion
    obtain ⟨items', heq, hitems⟩ := h.listed hw hrun hafter he
    cases heq
    refine ⟨items, time, ids, updated, after, hafter, hlast, hitems.resolve_right ?_, hlength, rfl, rfl⟩
    rintro rfl
    exact hdiffers rfl

end Later

/-- The last exchange of a recount that returns is the one that was just made. -/
theorem Reachable.log_of_returned (hw : Reachable sources alone w) (hwork : w.works[n]? = some work)
    (htask : work.task = .openRecount tenant count actor) (hadvance : Advance n w w') {result}
    (hreturned : w'.Returned n (openRecount tenant count actor) result) {after : Work}
    (hafter : w'.works[n]? = some after) {e : Exchange} {earlier : List Exchange}
    (hpast : after.past = e :: earlier) : w'.log = e :: w.log := by
  obtain ⟨r, hr, hcame⟩ := hw.recounting hwork htask
  obtain ⟨after', hafter', hreaches⟩ := hreturned
  cases hafter.symm.trans hafter'
  obtain ⟨q, next, hask, ⟨answer, hexchange, hafter'⟩ | ⟨-, -, o, -, -, -, hafter'⟩⟩ :=
    hadvance.self_cases hwork
  · cases hafter.symm.trans hafter'
    rw [← (List.cons.inj hpast).1]
    exact hexchange.log
  · cases hafter.symm.trans hafter'
    obtain ⟨next', rfl, -⟩ := hcame q next hask
    cases hr.unique hreaches

/-- A recount of a settled count is all or nothing, whatever other tasks do in between. It changes
the store in no step but the one with which it returns that it opened a version. If none of the
items of the version has a variance, it returns that it opened none as soon as it goes on. And if it
returns that it opened one, this is the next version, with one item for each item of the version
before: to be counted again if it had a variance, and done as it was otherwise. -/
theorem recount_opens_next_version (hw : Reachable sources nobody w)
    (hwork : w.works[n]? = some work) (htask : work.task = .openRecount tenant count actor)
    (hadvance : Advance n w w') :
    (w'.store = w.store ∨ ∃ outcome version,
      w'.Returned n (openRecount tenant count actor) (.ok outcome) ∧
        outcome.newVersion = some version) ∧
    ∀ w₀ w₁ work₀ c, Reachable sources nobody w₀ → w₀.works[n]? = some work₀ → work₀.past = [] →
      c ∈ w₀.store.counts → c.id = count → c.tenant = tenant → c.status ∈ recountable →
      Advance n w₀ w₁ → Relation.ReflTransGen (Step sources nobody) w₁ w →
      ((∀ i ∈ w₀.store.itemsOf count (some c.currentVersion), i.hasVariance = false) →
        w'.store = w.store ∧
          w'.Returned n (openRecount tenant count actor) (.ok ⟨none, 0, 0, c⟩)) ∧
      ∀ outcome version, w'.Returned n (openRecount tenant count actor) (.ok outcome) →
        outcome.newVersion = some version →
        NextVersion c w₀.store w'.store outcome version ∧
          w.store.itemsOf count (some c.currentVersion) =
            w₀.store.itemsOf count (some c.currentVersion) := by
  refine ⟨hw.store_eq_or_returned hwork htask hadvance, ?_⟩
  intro w₀ w₁ work₀ c hw₀ hwork₀ hbegun hc hid htenant hstatus hfirst hrun
  have htask₀ : work₀.task = .openRecount tenant count actor := by
    obtain ⟨work', hwork', htask', -⟩ := exchanged_since (.head (.advance hfirst) hrun) hwork₀
    cases hwork.symm.trans hwork'
    exact htask'.symm.trans htask
  have hw₁ : Reachable sources nobody w₁ := hw₀.tail (.advance hfirst)
  obtain ⟨hsame, hlooked⟩ := hw₀.looked hwork₀ htask₀ hbegun hc hid htenant hstatus hfirst
  rw [← hsame]
  refine ⟨hlooked.returned_none hw₁ hrun hwork htask hadvance, ?_⟩
  intro outcome version hreturned hversion
  obtain ⟨items, time, ids, updated, after, hafter, hpast, hperm, hlength, rfl, rfl⟩ :=
    hlooked.returned_opened hw₁ (hrun.tail (.advance hadvance)) hstatus hreturned hversion
  have hlog := hw.log_of_returned hwork htask hadvance hreturned hafter hpast
  rcases hw.sound.advance_cases hadvance with ⟨call, result, new, supply, hmakes⟩ | hrests
  swap
  · exact (hrests.ne_of_log hlog (.change tenant count _) updated rfl).elim
  cases (List.cons.inj (hlog.symm.trans hmakes.log)).1
  have hkept : w.store.itemsOf count (some c.currentVersion) =
      w₁.store.itemsOf count (some c.currentVersion) := by
    obtain ⟨d, hd, hdid, -⟩ := change_eq_ok hmakes.answer
    exact hlooked.kept hw₁ hrun hd hdid
  subst hid
  have hnext := hw.sound.store.nextVersion hw.numbered hmakes.fits hmakes.areNew hmakes.answer
    hlength (hkept ▸ hperm)
  exact ⟨hnext.congr hkept, hkept⟩

/-- A count of two items is submitted, one with a variance and one without. -/
def oneOfTwo : List Move :=
  .begin newCount :: goIn 1 0 :: .begin (newItem "A" (some (oneDigit 5))) :: goOn 2 1 8 ++
    .begin (newItem "B" (some (oneDigit 0))) :: goOn 10 2 8 ++
    .begin (.completeCount (.ofNat 1) (.ofNat 1000) (.ofNat 3)) :: goOn 18 3 3

/-- While the recount goes on, the count is approved. -/
def approvedMeanwhile : List Move :=
  .begin (.changeStage (.ofNat 1) (.ofNat 1000) ⟨.finalize, by simp [stageChanges]⟩ (.ofNat 3)) ::
    goOn 22 5 2 ++ goOn 24 4 4

theorem recount_opens_next_version_approvedMeanwhile :
    ∃ w w', Reachable noSources nobody w ∧ Advance 4 w w' ∧ ∃ c outcome version,
      c ∈ (played noSources oneOfTwo).store.counts ∧ outcome.pending = 1 ∧ outcome.carried = 1 ∧
        NextVersion c (played noSources oneOfTwo).store w'.store outcome version := by
  have hplayed : Reachable noSources nobody (played noSources oneOfTwo) :=
    played_reachable fun _ _ h => h
  have hlength : (played noSources oneOfTwo).works.length = 4 := by decide +kernel
  have hcount : ∃ c ∈ (played noSources oneOfTwo).store.counts, c.id = .ofNat 1000 ∧
      c.tenant = .ofNat 1 ∧ c.status ∈ recountable ∧
      ((played noSources oneOfTwo).store.itemsOf c.id (some c.currentVersion)).countP
        (·.hasVariance) = 1 ∧
      ((played noSources oneOfTwo).store.itemsOf c.id (some c.currentVersion)).length = 2 := by
    decide +kernel
  have hplay : (((played noSources oneOfTwo).begin noSources
      (.openRecount (.ofNat 1) (.ofNat 1000) (.ofNat 3))).move? noSources (goIn 21 4)).any fun w₁ =>
        (w₁.play? noSources approvedMeanwhile).any fun w =>
          (w.move? noSources (goIn 28 4)).any fun w' =>
            w'.store.counts.map (·.currentVersion) ≠ w.store.counts.map (·.currentVersion) := by
    decide +kernel
  obtain ⟨c, hc, hid, htenant, hstatus, hvariances, hitems⟩ := hcount
  obtain ⟨w₁, hfirst, hplay⟩ := (Option.any_eq_true _ _).mp hplay
  obtain ⟨w, hrun, hplay⟩ := (Option.any_eq_true _ _).mp hplay
  obtain ⟨w', hlast, hmoved⟩ := (Option.any_eq_true _ _).mp hplay
  simp only [decide_eq_true_eq] at hmoved
  have hbegun : Reachable noSources nobody ((played noSources oneOfTwo).begin noSources
      (.openRecount (.ofNat 1) (.ofNat 1000) (.ofNat 3))) := hplayed.tail (.begin _ fun h => h)
  have hfirst : Advance 4 _ w₁ := World.move?_advance hfirst
  have hrun : Relation.ReflTransGen (Step noSources nobody) w₁ w :=
    World.play?_steps (fun _ _ h => h) hrun
  have hlast : Advance 4 w w' := World.move?_advance hlast
  have hw : Reachable noSources nobody w := (hbegun.tail (.advance hfirst)).trans hrun
  have hwork₀ := @World.getElem?_begin_length noSources (played noSources oneOfTwo)
    (.openRecount (.ofNat 1) (.ofNat 1000) (.ofNat 3))
  rw [hlength] at hwork₀
  obtain ⟨work, hwork, htask, -⟩ := exchanged_since (.head (.advance hfirst) hrun) hwork₀
  obtain ⟨hchanged, hreturns⟩ := recount_opens_next_version hw hwork htask hlast
  rcases hchanged with hsame | ⟨outcome, version, hreturned, hversion⟩
  · exact absurd (congrArg (fun s => s.counts.map (·.currentVersion)) hsame) hmoved
  obtain ⟨hnext, -⟩ := (hreturns _ w₁ _ c hbegun hwork₀ rfl hc hid htenant hstatus hfirst hrun).2
    outcome version hreturned hversion
  have hpending : outcome.pending = 1 := hnext.pending_before.trans hvariances
  have htotal : outcome.pending + outcome.carried = 2 := hnext.total.trans hitems
  exact ⟨w, w', hw, hlast, c, outcome, version, hc, hpending, by omega, hnext⟩

end Concurrent
end Recount
