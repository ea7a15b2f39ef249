import Recount.Proofs.Concurrent.Replay
import Recount.Proofs.Tenant.Performing

/-!
# Tenants are isolated

What a task of a tenant answers, and what it leaves of the tenant, depends on nothing that belongs to
other tenants, and what belongs to others stays as it is.
-/

namespace Recount.Concurrent

open Recount.Store

variable {tenant : Id} {w₁ w₂ : World}

/-- In two worlds that may be reached and hold the same of a tenant, with the same number for the
next count, each task of the tenant that is performed in the same surroundings answers the same, up
to the order of what is listed at one place. Both worlds hold the same of the tenant afterwards, and
what they hold of any other tenant is what it was. Overflows are no answers: which one comes first
may depend on the order in which items are settled. -/
theorem tenant_isolation {sources sources₁ sources₂ : Loading.Sources} {alone₁ alone₂ : Task → Prop}
    (hw₁ : Reachable sources₁ alone₁ w₁) (hw₂ : Reachable sources₂ alone₂ w₂)
    (hsame : SamePart tenant w₁.store w₂.store) (hsequence : w₁.store.sequence = w₂.store.sequence)
    {t : Task} (ht : t.IsFor tenant) {around : Surroundings}
    (hfresh₁ : around.FreshFor (t.action sources).run w₁.store w₁.drawn 0)
    (hfresh₂ : around.FreshFor (t.action sources).run w₂.store w₂.drawn 0) :
    SameOutcome t.SameAnswer (around.perform (t.action sources) w₁.store).1
        (around.perform (t.action sources) w₂.store).1 ∧
      SamePart tenant (around.perform (t.action sources) w₁.store).2
        (around.perform (t.action sources) w₂.store).2 ∧
      ∀ other, other ≠ tenant →
        SamePart other w₁.store (around.perform (t.action sources) w₁.store).2 ∧
          SamePart other w₂.store (around.perform (t.action sources) w₂.store).2 := by
  have hprivate := t.action_private sources ht
  have hbegun₁ : Underway tenant (w₁.begin sources t) w₁.works.length [] (work (t.action sources)) :=
    t.program_eq_work sources ▸ .begin hw₁.sound hw₁.orderly
  have hbegun₂ : Underway tenant (w₂.begin sources t) w₂.works.length [] (work (t.action sources)) :=
    t.program_eq_work sources ▸ .begin hw₂.sound hw₂.orderly
  obtain ⟨houtcome, hconfined⟩ :=
    hprivate.run_alike hbegun₁ hbegun₂ ⟨hsame, hsequence⟩ hfresh₁ hfresh₂
  obtain ⟨-, hconfined'⟩ :=
    hprivate.run_alike hbegun₂ hbegun₁ ⟨hsame.symm, hsequence.symm⟩ hfresh₂ hfresh₁
  exact ⟨houtcome, hconfined.alike.toSamePart,
    fun other hne => ⟨hconfined.others other hne, hconfined'.others other hne⟩⟩

/-- One tenant counts an item, while another one has a count. -/
def twoTenants : List Move :=
  .begin newCount :: goIn 1 0 :: .begin (.createCount (.ofNat 7) ⟨.ofNat 2, none, none⟩ (.ofNat 3)) ::
    goIn 2 1 :: .begin (newItem "A" (some (oneDigit 5))) :: goOn 3 2 8

/-- The other tenant adds an item. -/
def otherAdds : World := played noSources (twoTenants ++ .begin (.addItem (.ofNat 7) (.ofNat 2000)
  ⟨.ofNat 5, "B", "B", none, none, .zero, some (oneDigit 2)⟩ (.ofNat 3)) :: goOn 12 3 8)

/-- The other tenant deletes its count. -/
def otherDeletes : World :=
  played noSources (twoTenants ++ .begin (.deleteCount (.ofNat 7) (.ofNat 2000)) :: goOn 12 3 2)

/-- Identifiers and times are drawn by rounds, and planning systems have nothing to say. -/
def inRounds (first : Nat) : Surroundings where
  draw k :=
    { id := (roundSupply (first + k)).id
      report := fun item => item
      time := (roundSupply (first + k)).time }
  erp _ _ := calm

/-- A quantity of the item is recorded, whatever the other tenant did. -/
def recorded (s : Store) : Except Overflow (Except Error Item) × Store :=
  (inRounds 30).perform ((newQuantity 5000 7).action noSources) s

theorem tenant_isolation_otherTenant :
    ∃ i, (recorded otherAdds.store).1 = .ok (.ok i) ∧ (recorded otherDeletes.store).1 = .ok (.ok i) ∧
      i.countedQty.map Decimal.digits = some 7 ∧
      SamePart (.ofNat 1) (recorded otherAdds.store).2 (recorded otherDeletes.store).2 ∧
      ¬ SamePart (.ofNat 7) otherAdds.store otherDeletes.store ∧
      SamePart (.ofNat 7) otherAdds.store (recorded otherAdds.store).2 := by
  have hadds : Reachable noSources nobody otherAdds := played_reachable fun _ _ h => h
  have hdeletes : Reachable noSources nobody otherDeletes := played_reachable fun _ _ h => h
  have hmappings : otherAdds.store.mappings.isEmpty ∧ otherDeletes.store.mappings.isEmpty := by
    decide +kernel
  have hsame : SamePart (.ofNat 1) otherAdds.store otherDeletes.store :=
    .of_filter_eq (by decide +kernel)
      ((List.isEmpty_iff.mp hmappings.1).trans (List.isEmpty_iff.mp hmappings.2).symm)
      (by decide +kernel) (by decide +kernel) (by decide +kernel)
  have hsequence : otherAdds.store.sequence = otherDeletes.store.sequence := by decide +kernel
  have htask : (newQuantity 5000 7).IsFor (.ofNat 1) := fun _ h => (Option.some.inj h).symm
  have hfresh : ((inRounds 30).FreshFor ((newQuantity 5000 7).action noSources).run otherAdds.store
        otherAdds.drawn 0) ∧
      (inRounds 30).FreshFor ((newQuantity 5000 7).action noSources).run otherDeletes.store
        otherDeletes.drawn 0 := by
    decide +kernel
  obtain ⟨houtcome, hafter, hothers⟩ :=
    tenant_isolation hadds hdeletes hsame hsequence htask hfresh.1 hfresh.2
  have hother : (∃ c ∈ otherAdds.store.counts, c.tenant = .ofNat 7) ∧
      ∀ c ∈ otherDeletes.store.counts, c.tenant ≠ .ofNat 7 := by
    decide +kernel
  have hdiffer : ¬ SamePart (.ofNat 7) otherAdds.store otherDeletes.store := by
    intro h
    obtain ⟨⟨c, hc, htenant⟩, hnone⟩ := hother
    exact hnone c ((h.counts c htenant).mp hc) htenant
  have hanswer : ((recorded otherAdds.store).1.toOption.bind Except.toOption).bind
      (·.countedQty.map Decimal.digits) = some 7 := by
    decide +kernel
  change SameOutcome Eq (recorded otherAdds.store).1 (recorded otherDeletes.store).1 at houtcome
  generalize (recorded otherAdds.store).1 = x at houtcome hanswer ⊢
  generalize (recorded otherDeletes.store).1 = y at houtcome ⊢
  cases houtcome with
  | @ok i j hij =>
    subst hij
    exact ⟨i, rfl, rfl, hanswer, hafter, hdiffer, (hothers _ (by decide)).1⟩
  | error e => cases hanswer
  | overflow o o' => cases hanswer

end Recount.Concurrent
