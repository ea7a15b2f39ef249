import Recount.Proofs.Concurrent.Replay
import Recount.Proofs.Concurrent.Sound
import Recount.Proofs.Decimal.Value
import Recount.Proofs.Store.Reported

/-!
# Items state their variances

However the tasks of all users interleave, every item states the variance of its own
quantities, and it is reported just if it has one. Only a resolution could upset this:
it saves a report as it read it before, so it must not be interrupted. While it runs
alone, what it read is still what is stored.
-/

namespace Recount

/-- What an item states of its variance is true of its quantities. -/
def Item.StatesVariance (i : Item) : Prop :=
  match i.countedQty with
  | none => i.difference = none ∧ i.variancePercent = none ∧ i.hasVariance = false
  | some counted => ∃ difference percent, i.difference = some difference ∧
      i.variancePercent = some percent ∧ counted.sub i.systemQty = .ok difference ∧
      Recount.variancePercent i.systemQty counted = .ok percent ∧
      (i.hasVariance = true ↔ counted.value ≠ i.systemQty.value) ∧
      ((∃ x : Decimal, x.value = counted.value - i.systemQty.value) →
        difference.value = counted.value - i.systemQty.value)

theorem Item.Consistent.statesVariance {i : Item} (h : i.Consistent) : i.StatesVariance := by
  unfold StatesVariance
  split
  · next hnone => exact h.of_none hnone
  · next counted hsome =>
    obtain ⟨difference, percent, hsub, hpercent, hd, hp, hvariance⟩ := h.of_some hsome
    refine ⟨difference, percent, hd, hp, hsub, hpercent, ?_, Decimal.sub_value hsub⟩
    rw [hvariance, Bool.not_eq_true', Bool.eq_false_iff, Ne, Decimal.sub_isZero hsub]

namespace Store

variable {s s' : Store} {i : Item}

/-- The reports of an item and its version. -/
def reportsAbout (s : Store) (i : Item) : List Report :=
  s.reports.filter fun r => r.item = i.id && r.version = i.version

/-- An item that is accounted for has just one report if it has a variance, and otherwise none. -/
theorem Sound.reportsAbout_eq (h : s.Sound) (hi : s.Accounts i) :
    if i.hasVariance = true then ∃ r, s.reportsAbout i = [r] ∧ r.Describes i
    else s.reportsAbout i = [] := by
  rcases hi with ⟨hvariance, r, hr, hdescribes⟩ | ⟨hvariance, hnone⟩
  · rw [if_pos hvariance]
    refine ⟨r, ?_, hdescribes⟩
    have hversion : r.version = i.version := congrArg Subject.version hdescribes.subject
    have hnodup : (s.reportsAbout i).Nodup :=
      (List.Nodup.of_map Report.id h.reports_nodup).filter _
    refine List.perm_singleton.mp ((List.perm_ext_iff_of_nodup hnodup (List.nodup_singleton r)).mpr ?_)
    intro q
    rw [List.mem_singleton, reportsAbout, List.mem_filter]
    constructor
    · rintro ⟨hq, habout⟩
      have hitem : q.item = i.id := by simp_all
      exact eq_of_id_eq h.reports_nodup hq hr
        (h.report_unique q hq r hr (hitem.trans hdescribes.item.symm))
    · rintro rfl
      exact ⟨hr, by simp [hdescribes.item, hversion]⟩
  · rw [if_neg (Bool.not_eq_true _ ▸ hvariance), reportsAbout, List.filter_eq_nil_iff]
    intro r hr
    simp [hnone r hr]

end Store

namespace Concurrent

open Store

variable {sources : Loading.Sources} {w w' : World} {n : Nat} {work : Work}

/-- If a task has only looked so far, it would be answered the same again. -/
def Current (s : Store) (h : List Exchange) : Prop :=
  (∀ e ∈ h, IsQuery e.request) → ∀ call answer, ⟨.store call, answer⟩ ∈ h →
    ∃ supply, s.step supply call = (.ok answer, s)

/-- A task that runs alone keeps what it is answered up to date. -/
theorem Current.cons {s s' : Store} {drawn drawn' : List Id} {h : List Exchange} {q : Request}
    {answer : q.Answer} (hcurrent : Current s h) (hanswer : Answers s drawn q answer s' drawn') :
    Current s' (⟨q, answer⟩ :: h) := by
  intro hqueries call given hmem
  have hquery : IsQuery q := hqueries _ List.mem_cons_self
  obtain rfl : s' = s := hquery.store_eq hanswer
  rcases List.mem_cons.mp hmem with heq | hmem
  · cases heq
    cases hanswer with
    | store supply hfresh hstep => exact ⟨supply, hstep⟩
  · exact hcurrent (fun e he => hqueries e (List.mem_cons_of_mem _ he)) call given hmem

/-- A call of a task keeps the items accounted for, if a resolution knows what is stored. -/
theorem World.Sound.reported_step (h : w.Sound) (hreported : w.store.Reported)
    (hwork : work ∈ w.works) (hcurrent : work.task.isResolution → Current w.store work.past)
    {call : StoreCall} (hallowed : Allowed work.task work.past (.store call)) {supply : Supply}
    (hfresh : Fresh w.drawn supply w.store.demand) {answer} {s' : Store}
    (hstep : w.store.step supply call = (answer, s')) : s'.Reported := by
  rcases step_cases hstep with ⟨result, -, hanswer⟩ | ⟨rfl, -⟩
  · cases call with
    | mappings call =>
      obtain ⟨hcounts, hitems, hreports, -⟩ := answerMappings_eq_ok hanswer
      exact hreported.of_same hcounts hitems hreports
    | counts call =>
      have hfits := h.fits_call hwork hallowed supply
      rcases hallowed with hfounded | ⟨hresolution, r, hcall, hsave⟩
      · refine hreported.answer h.store hfits ?_ (h.areNew_supply hfresh) hanswer
        rintro r rfl
        exact hfounded
      · cases hcall
        cases hsave with
        | @mk tenant count id seen stored status resolution actor time hseen hstatus hstored hqueries =>
          have hcurrent := hcurrent hresolution hqueries
          obtain ⟨supply₁, hget⟩ := hcurrent _ _ hseen
          obtain ⟨supply₂, hgetReport⟩ := hcurrent _ _ hstored
          obtain ⟨hc, hid⟩ := step_get hget
          obtain ⟨hr, hcount⟩ := step_getReport hgetReport
          obtain ⟨-, rfl, rfl⟩ := saveReport_eq_ok hanswer
          refine hreported.saveReport h.store hr fun c hc' hcid => ?_
          cases eq_of_id_eq h.store.counts_nodup hc' hc (hcid.trans (hcount.trans hid.symm))
          exact not_isUnderWay_of_recountable hstatus
  · exact hreported

theorem World.Sound.reported_advance (h : w.Sound) (hreported : w.store.Reported)
    (hcurrent : ∀ work, w.works[n]? = some work → work.task.isResolution →
      Current w.store work.past) (hadvance : Advance n w w') : w'.store.Reported := by
  cases hadvance with
  | @answered work q next answer s' drawn' hwork hrest hanswer =>
    have hallowed := h.allowed hwork hrest
    cases hanswer with
    | store supply hfresh hstep =>
      exact h.reported_step hreported (List.mem_of_getElem? hwork) (hcurrent work hwork) hallowed
        hfresh hstep
    | _ => exact hreported
  | stopped => exact hreported

/-- Every item is accounted for, and no resolution is still on its way. -/
structure World.Reported (w : World) : Prop where
  sound : w.Sound
  store : w.store.Reported
  ended : ∀ (n : Nat) (work : Work), w.works[n]? = some work → work.task.isResolution →
    ∀ q next, work.rest ≠ .ask q next

/-- A task has run alone since it began in such a world. -/
structure World.Alone (n : Nat) (w : World) : Prop where
  sound : w.Sound
  store : w.store.Reported
  ended : ∀ (m : Nat) (work : Work), m ≠ n → w.works[m]? = some work → work.task.isResolution →
    ∀ q next, work.rest ≠ .ask q next
  current : ∀ work, w.works[n]? = some work → Current w.store work.past

theorem World.Reported.alone (h : w.Reported) (t : Task) :
    World.Alone w.works.length (w.begin sources t) where
  sound := h.sound.begin
  store := h.store
  ended m work hne hwork := by
    rcases getElem?_begin hwork with hwork | ⟨heq, -⟩
    · exact h.ended m work hwork
    · exact absurd heq hne
  current work hwork _ call answer hmem := by
    rcases getElem?_begin hwork with hwork | ⟨-, rfl⟩
    · have hlt := (List.getElem?_eq_some_iff.mp hwork).1
      exact absurd hlt (Nat.lt_irrefl _)
    · exact absurd hmem List.not_mem_nil

theorem World.Alone.advance (h : World.Alone n w) (hadvance : Advance n w w') :
    World.Alone n w' where
  sound := h.sound.advance hadvance
  store := h.sound.reported_advance h.store (fun work hwork _ => h.current work hwork) hadvance
  ended m work hne hwork := by
    rw [hadvance.getElem?_of_ne hne] at hwork
    exact h.ended m work hne hwork
  current work hwork := by
    cases hadvance with
    | @answered before q next answer s' drawn' hbefore hrest hanswer =>
      rcases getElem?_answered hwork with ⟨-, rfl⟩ | ⟨hne, -⟩
      · exact (h.current before hbefore).cons hanswer
      · exact absurd rfl hne
    | @stopped before call next overflow s' hbefore hrest supply hfresh hstep =>
      have hset := List.getElem?_eq_some_iff.mp hwork
      obtain ⟨hlt, hget⟩ := hset
      rw [List.getElem_set_self] at hget
      cases hget
      exact h.current before hbefore

/-- While no resolution is on its way, any task may go on. -/
theorem World.Reported.advance (h : w.Reported) (hadvance : Advance n w w') : w'.Reported := by
  have hnot : ∀ work, w.works[n]? = some work → ¬ work.task.isResolution := by
    intro work hwork hresolution
    have hover := h.ended n work hwork hresolution
    cases hadvance with
    | answered hwork' hrest hanswer =>
      cases hwork.symm.trans hwork'
      exact hover _ _ hrest
    | stopped hwork' hrest =>
      cases hwork.symm.trans hwork'
      exact hover _ _ hrest
  constructor
  · exact h.sound.advance hadvance
  · exact h.sound.reported_advance h.store
      (fun work hwork hresolution => absurd hresolution (hnot work hwork)) hadvance
  · intro m work hwork hresolution
    by_cases hne : m = n
    · subst hne
      obtain ⟨before, hbefore, htask⟩ := hadvance.exists_before hwork
      exact absurd (htask ▸ hresolution) (hnot before hbefore)
    · rw [hadvance.getElem?_of_ne hne] at hwork
      exact h.ended m work hwork hresolution

theorem World.Reported.run (h : w.Reported) (t : Task)
    (hrun : Relation.ReflTransGen (Advance w.works.length) (w.begin sources t) w') :
    World.Alone w.works.length w' := by
  induction hrun with
  | refl => exact h.alone t
  | tail _ hadvance ih => exact ih.advance hadvance

/-- A task may run alone from its begin to its end. -/
theorem World.Alone.reported (h : World.Alone n w) (hover : w.isOver n) : w.Reported where
  sound := h.sound
  store := h.store
  ended m work hwork hresolution := by
    by_cases hne : m = n
    · subst hne
      exact hover work hwork
    · exact h.ended m work hne hwork hresolution

theorem Reachable.reported (hw : Reachable sources Task.isResolution w) : w.Reported := by
  induction hw with
  | refl => exact ⟨.empty, .empty, fun n work hwork => by cases hwork⟩
  | tail _ hstep ih =>
    cases hstep with
    | begin t ht =>
      refine ⟨ih.sound.begin, ih.store, fun m work hwork hresolution => ?_⟩
      rcases getElem?_begin hwork with hwork | ⟨-, rfl⟩
      · exact ih.ended m work hwork hresolution
      · exact absurd hresolution ht
    | advance h => exact ih.advance h
    | whole t _ hrun hover => exact (ih.run t hrun).reported hover

/-- However the tasks of all users interleave, except that no resolution is interrupted, every item
states the variance of its quantities, and it has just one report if it has a variance, which
states the same, and otherwise none. -/
theorem variance_reported (hw : Reachable sources Task.isResolution w) {i : Item}
    (hi : i ∈ w.store.items) :
    i.StatesVariance ∧
      if i.hasVariance = true then ∃ r, w.store.reportsAbout i = [r] ∧ r.Describes i
      else w.store.reportsAbout i = [] := by
  have hreported := hw.reported
  have hsound : w.store.Sound := hreported.sound.store
  exact ⟨(hsound.consistent i hi).statesVariance,
    hsound.reportsAbout_eq (hreported.store.accounts i hi)⟩

/-- Two quantities of one item are recorded at the same time. Both tasks see it uncounted, and the
one that records last has its report replace the other one. -/
def twoQuantities : List Move :=
  [.begin newCount, goIn 1 0, .begin (newItem "A" none), goIn 2 1, goIn 3 1, goIn 4 1, goIn 5 1,
    .begin (newQuantity 4000 5), .begin (newQuantity 4000 7), goIn 6 2, goIn 7 3, goIn 8 2,
    goIn 9 3, goIn 10 2, goIn 11 3, goIn 12 2, goIn 13 3, goIn 14 3, goIn 15 2, goIn 16 3,
    goIn 17 2]

theorem variance_reported_twoQuantities :
    ∃ i ∈ (played noSources twoQuantities).store.items,
      i.countedQty.map Decimal.digits = some 5 ∧ i.StatesVariance ∧
        ∃ r, (played noSources twoQuantities).store.reportsAbout i = [r] ∧ r.Describes i := by
  have hw : Reachable noSources Task.isResolution (played noSources twoQuantities) := by
    refine played_reachable fun t ht => ?_
    simp only [twoQuantities, goIn, List.mem_cons, Move.begin.injEq, List.not_mem_nil, or_false,
      reduceCtorEq, false_or] at ht
    rcases ht with rfl | rfl | rfl | rfl <;> exact id
  have hitem : ∃ i ∈ (played noSources twoQuantities).store.items,
      i.countedQty.map Decimal.digits = some 5 ∧ i.hasVariance = true := by decide +kernel
  obtain ⟨i, hi, hcounted, hvariance⟩ := hitem
  obtain ⟨hstates, hreports⟩ := variance_reported hw hi
  rw [if_pos hvariance] at hreports
  exact ⟨i, hi, hcounted, hstates, hreports⟩

end Concurrent
end Recount
