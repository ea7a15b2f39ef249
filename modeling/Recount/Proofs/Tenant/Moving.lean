import Mathlib.Data.List.Perm.Basic
import Recount.Proofs.Tenant.Writes

/-!
# Moving on a count of a tenant

When a version of a count is settled, its items are settled one by one, in whichever order a store
has them. Two stores that hold the same of a tenant move on its counts alike.
-/

namespace Recount

/-- What two pieces of work come to: results that correspond, one refusal, or overflows. -/
inductive Parallel {α β : Type} (R : α → β → Prop) : Except Halt α → Except Halt β → Prop
  | ok {a b} (h : R a b) : Parallel R (.ok a) (.ok b)
  | refused (e : Error) : Parallel R (.error (.refused e)) (.error (.refused e))
  | overflow (o o' : Overflow) : Parallel R (.error (.overflow o)) (.error (.overflow o'))

namespace Parallel

variable {α β γ δ : Type} {R : α → β → Prop} {S : γ → δ → Prop} {x : Except Halt α} {y : Except Halt β}

/-- Work goes on in parallel. -/
theorem bind {f : α → Except Halt γ} {g : β → Except Halt δ} (h : Parallel R x y)
    (hfg : ∀ a b, R a b → x = .ok a → y = .ok b → Parallel S (f a) (g b)) :
    Parallel S (x >>= f) (y >>= g) := by
  cases h with
  | ok hab => exact hfg _ _ hab rfl rfl
  | refused e => exact .refused e
  | overflow o o' => exact .overflow o o'

/-- One check is made on both sides. -/
theorem ofCheck {x y : Except Error α} (h : x = y) :
    Parallel Eq (Halt.ofCheck x) (Halt.ofCheck y) := by
  subst h
  cases x with
  | ok a => exact .ok rfl
  | error e => exact .refused e

/-- Arithmetic comes to results on both sides, or overflows on both. -/
theorem ofArithmetic {x : Except Overflow α} {y : Except Overflow β}
    (h : ∀ a, x = .ok a → ∃ b, y = .ok b ∧ R a b) (h' : ∀ b, y = .ok b → ∃ a, x = .ok a) :
    Parallel R (Halt.ofArithmetic x) (Halt.ofArithmetic y) := by
  cases hx : x with
  | ok a =>
    obtain ⟨b, rfl, hab⟩ := h a hx
    exact .ok hab
  | error o =>
    cases hy : y with
    | ok b =>
      obtain ⟨a, ha⟩ := h' b hy
      cases hx.symm.trans ha
    | error o' => exact .overflow o o'

theorem arithmetic_refl {x : Except Overflow α} :
    Parallel Eq (Halt.ofArithmetic x) (Halt.ofArithmetic x) :=
  ofArithmetic (fun a ha => ⟨a, ha, rfl⟩) fun a ha => ⟨a, ha⟩

end Parallel

/-- The identifiers and times that are drawn for one call. A report that is made when a version is
settled gets the identifier that there is for its item, whenever it is the item's turn. -/
structure Draw where
  id : Nat → Id
  report : Id → Id
  time : Nat → Time

/-- The supply of a call that settles items. -/
def Draw.supply (d : Draw) (items : List Item) : Supply where
  id n := (items[n]?.map fun i => d.report i.id).getD (d.id n)
  time := d.time

namespace Item

variable {i : Item} {now : Time}

/-- The report that belongs to an item is about the item. -/
theorem Consistent.put_report (hi : i.Consistent) {id : Id} {report : Option Report}
    (h : i.report? id now = .ok report) {r : Report}
    (hr : ReportChange.ofReport? report = .put r) : r.subject = i.subject ∧ r.id = id := by
  rcases hi.report?_cases h with ⟨-, q, rfl, hdescribes, hid, -⟩ | ⟨-, rfl⟩
  · cases hr
    exact ⟨hdescribes.subject, hid⟩
  · cases hr

end Item

namespace Store

variable {tenant id : Id} {s t : Store} {new new' : List Id} {c : Count} {i : Item} {d : Draw}

/-- Two stores answer a call of a tenant alike: the results correspond, and what is written is the
same. -/
abbrev AnswersAlike {α : Type} (tenant : Id) (s t : Store) (R : α → α → Prop) :
    Except Halt (α × Store) → Except Halt (α × Store) → Prop :=
  Parallel fun a b => R a.1 b.1 ∧ Confined tenant s a.2 t b.2

/-- The items that a call settles, in the order in which it does. -/
def toSettle (s : Store) : StoreCall → List Item
  | .counts (.change tenant count t) =>
    if t.settles then
      ((s.count? tenant count).map fun c => s.itemsOf c.id (some c.currentVersion)).getD []
    else []
  | _ => []

section Change

variable {tr : Transition}

theorem checkTransition_count? (h : s.checkTransition tenant id tr = .ok c) :
    s.count? tenant id = some c := by
  obtain ⟨c', hfind, hcheck⟩ := bind_eq_ok_iff.mp h
  obtain ⟨_, -, hcheck⟩ := bind_eq_ok_iff.mp hcheck
  split at hcheck
  · cases hcheck
  · obtain ⟨_, -, hc⟩ := bind_eq_ok_iff.mp hcheck
    cases hc
    exact elim_eq_ok_iff.mp hfind

theorem SamePart.checkTransition_eq (hs : s.Sound) (ht : t.Sound) (h : SamePart tenant s t)
    (hitems : ∀ i ∈ tr.newItems, i.count = id) :
    s.checkTransition tenant id tr = t.checkTransition tenant id tr := by
  unfold checkTransition findCount
  rw [h.count?_eq hs ht]
  cases hfound : t.count? tenant id with
  | none => rfl
  | some c =>
    obtain ⟨hc, hid, htenant⟩ := count?_eq_some hfound
    have howns : s.Owns tenant id := h.owns_iff.mpr ⟨c, hc, hid, htenant⟩
    change (do
      tr.change.check c
      if tr.change.target.isOpen && s.isBusy c then _ else _) = _
    rw [h.isBusy_eq htenant, h.checkNew_eq ht fun i hi => hitems i hi ▸ howns]
    rfl

/-- Each item that is settled has the identifier for its report. -/
theorem zipIdx_supply {items : List Item} :
    (items.zipIdx.map fun (i, n) => (i, (d.supply items).id n)) =
      items.map fun i => (i, d.report i.id) := by
  have hfst : items.map (fun i => (i, d.report i.id)) =
      items.zipIdx.map fun x => (x.1, d.report x.1.id) := by
    conv_lhs => rw [← List.zipIdx_map_fst 0 items]
    rw [List.map_map]
    rfl
  rw [hfst]
  refine List.map_congr_left fun x hx => ?_
  have hget : items[x.2]? = some x.1 := List.mem_zipIdx_iff_getElem?.mp hx
  simp [Draw.supply, hget]

theorem settled_eq (hc : s.count? tenant id = some c) (hsettles : tr.settles = true) :
    s.settled c tr (d.supply (s.toSettle (.counts (.change tenant id tr)))) =
      Item.settleAll tr.change.actor (d.time 0)
        ((s.itemsOf c.id (some c.currentVersion)).map fun i => (i, d.report i.id)) := by
  have hitems : s.toSettle (.counts (.change tenant id tr)) =
      s.itemsOf c.id (some c.currentVersion) := by
    simp [toSettle, hsettles, hc]
  rw [hitems, ← zipIdx_supply, settled, if_pos hsettles]
  rfl

/-- A version of the tenant is settled in whichever order. -/
theorem SamePart.settled (hs : s.Sound) (ht : t.Sound) (h : SamePart tenant s t)
    (hc : s.count? tenant id = some c) :
    Parallel (fun a b => a.1.Perm b.1 ∧ a.2.Perm b.2)
      (Halt.ofArithmetic
        (s.settled c tr (d.supply (s.toSettle (.counts (.change tenant id tr))))))
      (Halt.ofArithmetic
        (t.settled c tr (d.supply (t.toSettle (.counts (.change tenant id tr)))))) := by
  have hc' : t.count? tenant id = some c := (h.count?_eq hs ht).symm.trans hc
  obtain ⟨hmem, hid, htenant⟩ := count?_eq_some hc
  cases hsettles : tr.settles with
  | false => 
    rw [Store.settled, Store.settled, hsettles]
    exact .ok ⟨.refl _, .refl _⟩
  | true =>
    rw [settled_eq hc hsettles, settled_eq hc' hsettles]
    have hitems : (s.itemsOf c.id (some c.currentVersion)).Perm
        (t.itemsOf c.id (some c.currentVersion)) :=
      h.itemsOf_perm hs ht ⟨c, hmem, rfl, htenant⟩
    have hperm := hitems.map fun i => (i, d.report i.id)
    refine Parallel.ofArithmetic (fun a ha => ?_) fun b hb => ?_
    · obtain ⟨items, reports, hok, hsame⟩ := Item.settleAll_perm hperm ha
      exact ⟨(items, reports), hok, hsame⟩
    · obtain ⟨items, reports, hok, -⟩ := Item.settleAll_perm hperm.symm hb
      exact ⟨(items, reports), hok⟩

theorem eq_nil_of_settled {supply : Supply} {items : List Item} {reports : List Report}
    (hsettles : tr.settles = false) (h : s.settled c tr supply = .ok (items, reports)) :
    items = [] ∧ reports = [] := by
  rcases settled_eq_ok h with ⟨-, hitems, hreports⟩ | ⟨htrue, -⟩
  · exact ⟨hitems, hreports⟩
  · cases hsettles.symm.trans htrue

/-- The items of the version are settled, with identifiers for their reports that were drawn. -/
theorem settlement_of_settled {supply : Supply} {items : List Item} {reports : List Report}
    (hsupply : s.AreNew new (supply.ids s.demand)) (hsettles : tr.settles = true)
    (h : s.settled c tr supply = .ok (items, reports)) (changed : Count) :
    ∃ entries, Settlement (s.putCount changed) new c tr.change.actor (supply.time 0) entries items
      reports := by
  rcases settled_eq_ok h with ⟨hnot, -⟩ | ⟨-, entries, hfst, hsnd, hsettle⟩
  · cases hnot.symm.trans hsettles
  · refine ⟨entries, hfst, hsettle, hsnd.nodup hsupply.nodup, ?_, fun id hid => ?_⟩
    · exact fun id hid => hsupply.mem id (hsnd.subset hid)
    · exact fun q hq => hsupply.report_ne (hsnd.subset hid) hq

/-- A version of the tenant is settled: its items are put and then their reports. -/
theorem Alike.settle (hs : s.Sound) (ht : t.Sound) (h : Alike tenant s t) {actor : Id} {now : Time}
    {entries entries' : List (Item × Id)} {items items' : List Item} {reports reports' : List Report}
    (hset : Settlement s new c actor now entries items reports)
    (hset' : Settlement t new' c actor now entries' items' reports') (hitems : items.Perm items')
    (hreports : reports.Perm reports') (howns : s.Owns tenant c.id) :
    Confined tenant s ((s.putItems (written items now)).putReports reports) t
      ((t.putItems (written items' now)).putReports reports') := by
  have haccepts := hset.accepts hs
  have hcount : ∀ j ∈ items, j.count = c.id := by
    intro j hj
    obtain ⟨old, -, hcount, -, hsettle⟩ := hset.exists_old hj
    exact (congrArg Item.Key.count (Item.settle_eq_ok hsettle).2.1).trans hcount
  have hput : Confined tenant s (s.putItems (written items now)) t (t.putItems (written items' now)) := by
    refine h.putItems hs ht haccepts.nodup (hitems.map _) (fun i hi => ?_) fun i hi j hj hid => ?_
    · obtain ⟨j, hj, rfl⟩ := mem_written.mp hi
      exact (hcount j hj).symm ▸ howns
    · exact congrArg Item.Key.count (haccepts.key_eq hs hi hj hid)
  refine hput.trans (hput.alike.putReports (hs.putItems haccepts).sound
    (ht.putItems (hset'.accepts ht)).sound (hset.acceptsReports hs) (hset'.acceptsReports ht)
    (hset.reports_nodup hs) hreports fun r hr => ?_)
  obtain ⟨j, hj, -, hdescribes, -⟩ := Item.settleAll_describes hset.settled hr
  have hrcount : r.count = c.id :=
    (congrArg Subject.count hdescribes.subject).trans (hcount j hj)
  rw [hrcount, Owns, putItems_counts]
  exact howns

/-- What a transition writes, in the order in which it does. -/
theorem change_eq_puts {changed : Count} {items : List Item} {reports : List Report} {now : Time} :
    reports.foldl putReport
        (items.foldl (fun store i => store.putItem { i with updatedAt := now }) (s.putCount changed)) =
      ((s.putCount changed).putItems (written items now)).putReports reports := by
  simp [putItems, putReports, written, List.foldl_map]

/-- A count of the tenant is changed, and still is a count of the tenant. -/
theorem Alike.putChanged (hs : s.Sound) (ht : t.Sound) (h : Alike c.tenant s t) (hc : c ∈ s.counts)
    (change : StatusChange) (now : Time) :
    Confined c.tenant s (s.putCount (change.apply c now)) t (t.putCount (change.apply c now)) ∧
      (s.putCount (change.apply c now)).Owns c.tenant c.id := by
  have htenant : (change.apply c now).tenant = c.tenant := StatusChange.apply_tenant
  have hid : (change.apply c now).id = c.id := StatusChange.apply_id
  refine ⟨?_, _, mem_putBy_self, hid, htenant⟩
  have howns : s.Owns c.tenant c.id := ⟨c, hc, rfl, rfl⟩
  rw [← htenant] at h howns ⊢
  exact h.putCount hs ht (.inl (hid.symm ▸ howns))

/-- A count of the tenant is moved on. -/
theorem Alike.change (hs : s.Sound) (ht : t.Sound) (h : Alike tenant s t)
    (hfits : s.FitsChange new id tr)
    (hsupply : s.AreNew new
      ((d.supply (s.toSettle (.counts (.change tenant id tr)))).ids s.demand))
    (hsupply' : t.AreNew new'
      ((d.supply (t.toSettle (.counts (.change tenant id tr)))).ids t.demand)) :
    AnswersAlike tenant s t Eq
      (s.change tenant id tr (d.supply (s.toSettle (.counts (.change tenant id tr)))))
      (t.change tenant id tr (d.supply (t.toSettle (.counts (.change tenant id tr))))) := by
  refine (Parallel.ofCheck (h.checkTransition_eq hs ht fun i hi => (hfits.newItems_place hi).1)).bind ?_
  rintro c _ rfl hcheck -
  have hfound := checkTransition_count? (Halt.ofCheck_eq_ok_iff.mp hcheck)
  obtain ⟨hc, rfl, rfl⟩ := count?_eq_some hfound
  have hc' : c ∈ t.counts := (h.counts c rfl).mp hc
  refine (h.settled hs ht hfound).bind ?_
  rintro ⟨items, reports⟩ ⟨items', reports'⟩ ⟨hitems, hreports⟩ hok hok'
  rw [Halt.ofArithmetic_eq_ok_iff] at hok hok'
  dsimp only
  rw [change_eq_puts, change_eq_puts]
  refine .ok ⟨rfl, ?_⟩
  obtain ⟨hput, -⟩ : Next new s _ := hs.putChanged hc tr.change (d.time 0)
  obtain ⟨hput', -⟩ : Next new' t _ := ht.putChanged hc' tr.change (d.time 0)
  obtain ⟨hmoved, howns⟩ := h.putChanged hs ht hc tr.change (d.time 0)
  have hplace : ∀ i ∈ tr.newItems, i.count = c.id := fun i hi => (hfits.newItems_place hi).1
  cases hfits with
  | stage change version actor hchange =>
    obtain ⟨rfl, rfl⟩ := eq_nil_of_settled rfl hok
    obtain ⟨rfl, rfl⟩ := eq_nil_of_settled rfl hok'
    exact hmoved
  | completion version actor =>
    obtain ⟨entries, hset⟩ := settlement_of_settled hsupply rfl hok _
    obtain ⟨entries', hset'⟩ := settlement_of_settled hsupply' rfl hok' _
    rw [List.append_nil, List.append_nil]
    exact hmoved.trans (hmoved.alike.settle hput hput' hset hset' hitems hreports howns)
  | recount version actor listed ids time hlisted hdistinct hids hlength =>
    obtain ⟨rfl, rfl⟩ := eq_nil_of_settled rfl hok
    obtain ⟨rfl, rfl⟩ := eq_nil_of_settled rfl hok'
    refine hmoved.trans (hmoved.alike.putItems hput hput' ?_ (.refl _) (fun i hi => ?_)
      fun i hi j hj hid => ?_)
    · rw [written_ids]
      exact (Item.map_id_nextAll hlength).symm ▸ hids.nodup
    · obtain ⟨k, hk, rfl⟩ := mem_written.mp hi
      exact (hplace k hk).symm ▸ howns
    · obtain ⟨k, hk, rfl⟩ := mem_written.mp hi
      obtain ⟨old, -, id, hfresh, rfl⟩ := Item.mem_nextAll hk
      exact absurd (hid.trans Item.next_id) (hids.item_ne hfresh hj)

end Change

end Store
end Recount
