import Recount.Proofs.Decimal.Quotient
import Recount.Proofs.Loading.Upserting

/-!
# Where variances can be computed

A variance can be computed as long as the difference, its ratio to the system quantity and the
percentage stay in the range of the arithmetic. What was not counted can always be settled: its
variance is the whole system quantity.
-/

namespace Recount

open Decimal

variable {system counted : Decimal}

/-- The difference of two quantities, its ratio to the first one and the percentage are in range. -/
def VarianceInRange (system counted : Decimal) : Prop :=
  InRange (counted.value - system.value) ∧
    (system.value ≠ 0 → ∀ difference, counted.sub system = .ok difference →
      InRange (difference.value / system.value) ∧
        ∀ ratio, difference.div system = .ok ratio → InRange (ratio.value * 100))

/-- A variance can be computed just if it is in range. -/
theorem computes_iff : Computes system counted ↔ VarianceInRange system counted := by
  unfold Computes VarianceInRange
  rw [exists_sub_iff]
  refine and_congr_right fun hdifference => ?_
  obtain ⟨difference, hsub⟩ := exists_sub_iff.mpr hdifference
  unfold variancePercent
  by_cases hzero : system.value = 0
  · rw [if_pos (value_eq_zero_iff.mp hzero)]
    exact iff_of_true ⟨_, rfl⟩ fun hne => absurd hzero hne
  rw [if_neg (value_eq_zero_iff.not.mp hzero)]
  constructor
  · rintro ⟨percent, hpercent⟩ - difference' hsub'
    obtain ⟨_, hsub'', hpercent⟩ := bind_eq_ok_iff.mp hpercent
    cases hsub'.symm.trans hsub''
    obtain ⟨ratio, hdiv, hpercent⟩ := bind_eq_ok_iff.mp hpercent
    obtain ⟨product, hmul, -⟩ := bind_eq_ok_iff.mp hpercent
    refine ⟨(exists_div_iff hzero).mp ⟨ratio, hdiv⟩, fun ratio' hdiv' => ?_⟩
    cases hdiv.symm.trans hdiv'
    exact exists_mul_hundred_iff.mp ⟨product, hmul⟩
  · intro h
    obtain ⟨hratio, hproduct⟩ := h hzero difference hsub
    obtain ⟨ratio, hdiv⟩ := (exists_div_iff hzero).mpr hratio
    obtain ⟨product, hmul⟩ := exists_mul_hundred_iff.mpr (hproduct ratio hdiv)
    exact ⟨_, bind_eq_ok_iff.mpr ⟨difference, hsub, bind_eq_ok_iff.mpr ⟨ratio, hdiv,
      bind_eq_ok_iff.mpr ⟨product, hmul, rfl⟩⟩⟩⟩

/-- A quantity is entered with its variance, unless the variance is out of range. -/
theorem withCounted_cases (i : Item) (counted : Decimal) :
    VarianceInRange i.systemQty counted ∧ (∃ j, i.withCounted counted = .ok j) ∨
      ¬ VarianceInRange i.systemQty counted ∧ ∃ o, i.withCounted counted = .error o := by
  rw [← computes_iff]
  cases hwith : i.withCounted counted with
  | ok j =>
    obtain ⟨difference, percent, hdifference, hpercent, -⟩ := Item.withCounted_eq_ok hwith
    exact .inl ⟨⟨⟨difference, hdifference⟩, percent, hpercent⟩, j, rfl⟩
  | error o =>
    refine .inr ⟨fun hcomputes => ?_, o, rfl⟩
    obtain ⟨j, hj⟩ := exists_withCounted hcomputes
    cases hj.symm.trans hwith

/-- That nothing was counted makes a variance of minus one hundred percent at most. -/
theorem computes_zero (system : Decimal) : Computes system .zero := by
  have hvalue : Decimal.zero.value = 0 := value_eq_zero_iff.mpr rfl
  refine computes_iff.mpr ⟨?_, fun hne difference hsub => ?_⟩
  · rw [hvalue, zero_sub]
    exact inRange_value.neg
  have hdifference : difference.value = -system.value := by
    have hexact : ∃ x : Decimal, x.value = Decimal.zero.value - system.value :=
      ⟨system.neg, by rw [hvalue, zero_sub, value_neg]⟩
    rw [sub_value hsub hexact, hvalue, zero_sub]
  have hratio : difference.value / system.value = -1 := by
    rw [hdifference, neg_div, div_self hne]
  refine ⟨by rw [hratio, InRange]; norm_num [coeffBound], fun ratio hdiv => ?_⟩
  have hone : (-1 : ℚ) = ((-1 : ℤ) : ℚ) / 10 ^ 0 := by norm_num
  have hexact := (div_eq_ok hne hdiv).value_eq (Nat.zero_le maxScale) (hratio.trans hone)
    (by norm_num)
  rw [hexact, hratio, InRange]
  norm_num [coeffBound]

namespace Item

variable {i : Item} {entries : List (Item × Id)}

/-- The report of a consistent item states what was computed before. -/
theorem Consistent.exists_report (hi : i.Consistent) (id : Id) (now : Time) :
    ∃ report, i.report? id now = .ok report := by
  rcases hi.report?_eq id now with ⟨-, r, hr, -⟩ | ⟨-, hnone⟩
  · exact ⟨some r, hr⟩
  · exact ⟨none, hnone⟩

/-- What was counted of a consistent item has its variance already. -/
theorem Consistent.exists_settle (hi : i.Consistent) (actor : Id) (now : Time) :
    ∃ j, i.settle actor now = .ok j := by
  cases hcounted : i.countedQty with
  | some counted =>
    rw [settle_of_counted hcounted, hi.withCounted_eq hcounted]
    exact ⟨_, rfl⟩
  | none =>
    obtain ⟨j, hj⟩ := @exists_withCounted (i.unseen actor now) .zero (computes_zero _)
    rw [settle_of_uncounted hcounted, hj]
    exact ⟨_, rfl⟩

/-- Consistent items can be settled. -/
theorem exists_settleAll (h : ∀ entry ∈ entries, entry.1.Consistent) (actor : Id) (now : Time) :
    ∃ result, settleAll actor now entries = .ok result := by
  induction entries with
  | nil => exact ⟨_, rfl⟩
  | cons entry entries ih =>
    obtain ⟨settled, hsettled⟩ := (h entry List.mem_cons_self).exists_settle actor now
    obtain ⟨-, -, -, -, hconsistent, -⟩ := settle_eq_ok hsettled
    obtain ⟨report, hreport⟩ := hconsistent.exists_report entry.2 now
    obtain ⟨result, hrest⟩ := ih fun e he => h e (List.mem_cons_of_mem entry he)
    exact ⟨_, bind_eq_ok_iff.mpr ⟨settled, hsettled, bind_eq_ok_iff.mpr ⟨report, hreport,
      bind_eq_ok_iff.mpr ⟨result, hrest, rfl⟩⟩⟩⟩

end Item

/-- Quantities can be added to a sum one after the other: each of the sums is in range. -/
def SumsInRange (sum : Decimal) : List Decimal → Prop
  | [] => True
  | q :: qs => InRange (sum.value + q.value) ∧ ∀ next, sum.add q = .ok next → SumsInRange next qs

theorem exists_foldlM_add_iff {sum : Decimal} {qs : List Decimal} :
    (∃ total, qs.foldlM Decimal.add sum = .ok total) ↔ SumsInRange sum qs := by
  induction qs generalizing sum with
  | nil => exact iff_of_true ⟨sum, rfl⟩ trivial
  | cons q qs ih =>
    rw [List.foldlM_cons, SumsInRange, ← exists_add_iff]
    simp only [bind_eq_ok_iff, ← ih]
    constructor
    · rintro ⟨total, next, hnext, htotal⟩
      refine ⟨⟨next, hnext⟩, fun next' hnext' => ?_⟩
      cases hnext.symm.trans hnext'
      exact ⟨total, htotal⟩
    · rintro ⟨⟨next, hnext⟩, h⟩
      obtain ⟨total, htotal⟩ := h next hnext
      exact ⟨total, next, hnext, htotal⟩

end Recount
