import Recount.Decimal.Arithmetic
import Mathlib.Data.Rat.Defs
import Mathlib.Tactic.FieldSimp
import Mathlib.Tactic.Ring

/-!
# What a decimal quantity denotes

A quantity denotes a rational number. A difference of quantities is the one of the
numbers wherever any quantity denotes it, and even where it has to be rounded, it is
zero only if the numbers are the same.
-/

namespace Recount.Decimal

variable {d e r : Decimal} {coeff : Int} {scale : Nat}

/-- The number that a quantity denotes. -/
def value (d : Decimal) : ℚ := d.coeff / 10 ^ d.scale

theorem coeff_eq_zero_iff : d.coeff = 0 ↔ d.isZero = true := by
  unfold coeff isZero
  split <;> simp

theorem value_eq_zero_iff : d.value = 0 ↔ d.isZero = true := by
  have hpow : (10 : ℚ) ^ d.scale ≠ 0 := pow_ne_zero _ (by norm_num)
  rw [value, div_eq_zero_iff, or_iff_left hpow, Int.cast_eq_zero, coeff_eq_zero_iff]

theorem value_neg : d.neg.value = -d.value := by
  unfold neg
  split
  · next hzero => rw [value_eq_zero_iff.mpr hzero, neg_zero]
  · unfold value coeff
    cases d.minus <;> simp [neg_div]

/-- A quantity denotes the same number with more places. -/
theorem coeffAt_div (h : d.scale ≤ scale) : (d.coeffAt scale : ℚ) / 10 ^ scale = d.value := by
  obtain ⟨more, rfl⟩ := Nat.exists_eq_add_of_le h
  have hmore : (10 : ℚ) ^ more ≠ 0 := pow_ne_zero _ (by norm_num)
  rw [coeffAt, value, Nat.add_sub_cancel_left, pow_add]
  push_cast
  exact mul_div_mul_right _ _ hmore

section Fitting

theorem ofParts?_isSome_iff :
    (ofParts? coeff scale).isSome ↔ coeff.natAbs < coeffBound ∧ scale ≤ maxScale := by
  unfold ofParts? ofSign?
  split <;> simp_all

theorem le_divHalfEven (num den : Nat) : num / den ≤ divHalfEven num den := by
  unfold divHalfEven
  dsimp only
  split <;> omega

theorem divHalfEven_le (num den : Nat) : divHalfEven num den ≤ num / den + 1 := by
  unfold divHalfEven
  dsimp only
  split <;> omega

theorem natAbs_divHalfEvenInt (num : Int) (den : Nat) :
    (divHalfEvenInt num den).natAbs = divHalfEven num.natAbs den := by
  unfold divHalfEvenInt
  split <;> simp

/-- What divides without a remainder is not rounded. -/
theorem divHalfEvenInt_mul (num : Int) {den : Nat} (hden : 0 < den) :
    divHalfEvenInt (num * den) den = num := by
  have hsize : divHalfEven (num * den).natAbs den = num.natAbs := by
    rw [Int.natAbs_mul, Int.natAbs_natCast, divHalfEven, Nat.mul_mod_left, Nat.mul_div_cancel _ hden]
    simp [hden.ne]
  have hsign : num * den < 0 ↔ num < 0 := by
    have hden' : (0 : Int) < den := by exact_mod_cast hden
    rw [Int.mul_neg_iff]
    omega
  unfold divHalfEvenInt
  rw [hsize]
  split <;> omega

/-- The search over a range ends at the first place where there is something. -/
theorem findSome?_range_eq_some {α : Type} {f : Nat → Option α} {n : Nat} {a : α}
    (h : (List.range n).findSome? f = some a) : ∃ k < n, f k = some a ∧ ∀ j < k, f j = none := by
  induction n with
  | zero => cases h
  | succ n ih =>
    rw [List.range_succ, List.findSome?_append, Option.or_eq_some_iff] at h
    rcases h with h | ⟨hnone, h⟩
    · obtain ⟨k, hk, hsome, hbefore⟩ := ih h
      exact ⟨k, Nat.lt_succ_of_lt hk, hsome, hbefore⟩
    · have hlast : f n = some a := by simpa using h
      refine ⟨n, Nat.lt_succ_self n, hlast, fun j hj => ?_⟩
      exact List.findSome?_eq_none_iff.mp hnone j (List.mem_range.mpr hj)

/-- A number fits with as many places as the first one of its rounded coefficients that fits. -/
theorem fit?_eq_some (h : fit? coeff scale = some r) :
    ∃ k ≤ scale, r.coeff = divHalfEvenInt coeff (10 ^ k) ∧ r.scale = scale - k ∧
      ∀ j < k, ofParts? (divHalfEvenInt coeff (10 ^ j)) (scale - j) = none := by
  obtain ⟨k, hk, hsome, hbefore⟩ := findSome?_range_eq_some h
  obtain ⟨hcoeff, hscale⟩ := ofParts?_eq_some hsome
  exact ⟨k, Nat.le_of_lt_succ hk, hcoeff, hscale, hbefore⟩

/-- Rounding does not make a number zero. -/
theorem fit?_isZero (h : fit? coeff scale = some r) (hscale : scale ≤ maxScale) :
    r.isZero = true ↔ coeff = 0 := by
  obtain ⟨k, hk, hcoeff, -, hbefore⟩ := fit?_eq_some h
  rw [← coeff_eq_zero_iff, hcoeff, ← Int.natAbs_eq_zero, natAbs_divHalfEvenInt, ← Int.natAbs_eq_zero]
  constructor
  · intro hzero
    have hquotient : coeff.natAbs / 10 ^ k = 0 :=
      Nat.eq_zero_of_le_zero (hzero ▸ le_divHalfEven coeff.natAbs (10 ^ k))
    cases k with
    | zero => simpa using hquotient
    | succ k =>
      -- With one more place, the coefficient was too great.
      have hnone := hbefore k (Nat.lt_succ_self k)
      rw [← Option.not_isSome_iff_eq_none, ofParts?_isSome_iff, natAbs_divHalfEvenInt] at hnone
      have hgreat : coeffBound ≤ divHalfEven coeff.natAbs (10 ^ k) := by
        by_contra hsmall
        exact hnone ⟨not_le.mp hsmall, (Nat.sub_le scale k).trans hscale⟩
      have hle := divHalfEven_le coeff.natAbs (10 ^ k)
      rw [pow_succ, ← Nat.div_div_eq_div_mul] at hquotient
      unfold coeffBound at hgreat
      omega
  · intro hzero
    rw [hzero, divHalfEven]
    simp

/-- What a quantity denotes has zeros at its end at every scale, down to a coefficient that is not
greater than the one of the quantity. -/
theorem exists_zeros (h : d.value = coeff / 10 ^ scale) :
    ∃ (zeros : Nat) (kept : Int), coeff = kept * (10 ^ zeros : Nat) ∧ kept.natAbs ≤ d.digits := by
  have hcross : d.coeff * 10 ^ scale = coeff * 10 ^ d.scale := by
    have hten : ∀ n : Nat, (10 : ℚ) ^ n ≠ 0 := fun n => pow_ne_zero n (by norm_num)
    rw [value, div_eq_div_iff (hten _) (hten _)] at h
    exact_mod_cast h
  have hpow : ∀ n : Nat, (10 : Int) ^ n ≠ 0 := fun n => pow_ne_zero n (by norm_num)
  have hdigits : d.coeff.natAbs = d.digits := by
    unfold Decimal.coeff
    split <;> simp
  by_cases hplaces : d.scale ≤ scale
  · obtain ⟨zeros, rfl⟩ := Nat.exists_eq_add_of_le hplaces
    refine ⟨zeros, d.coeff, ?_, hdigits.le⟩
    rw [pow_add, ← mul_assoc, mul_right_comm] at hcross
    push_cast
    exact (mul_right_cancel₀ (hpow d.scale) hcross).symm
  · obtain ⟨n, hn⟩ := Nat.exists_eq_add_of_le (not_le.mp hplaces).le
    have hcoeff : d.coeff = coeff * (10 ^ n : Nat) := by
      rw [hn, pow_add, ← mul_assoc, mul_right_comm] at hcross
      push_cast
      exact mul_right_cancel₀ (hpow scale) hcross
    refine ⟨0, coeff, by simp, ?_⟩
    rw [← hdigits, hcoeff, Int.natAbs_mul, Int.natAbs_natCast]
    exact Nat.le_mul_of_pos_right _ (Nat.pow_pos (by norm_num))

/-- A number that some quantity denotes is not rounded. -/
theorem fit?_value (h : fit? coeff scale = some r) (hscale : scale ≤ maxScale)
    (hexact : ∃ x : Decimal, x.value = coeff / 10 ^ scale) : r.value = coeff / 10 ^ scale := by
  obtain ⟨k, hk, hcoeff, hrscale, hbefore⟩ := fit?_eq_some h
  obtain ⟨x, hx⟩ := hexact
  obtain ⟨zeros, kept, rfl, hsize⟩ := exists_zeros hx
  -- With so many zeros less the coefficient fits, so no more places are given up than zeros.
  have hle : k ≤ zeros := by
    by_contra hlt
    have hnone := hbefore zeros (not_le.mp hlt)
    rw [← Option.not_isSome_iff_eq_none, ofParts?_isSome_iff,
      divHalfEvenInt_mul kept (Nat.pow_pos (by norm_num))] at hnone
    exact hnone ⟨hsize.trans_lt x.digits_lt, (Nat.sub_le scale zeros).trans hscale⟩
  obtain ⟨n, rfl⟩ := Nat.exists_eq_add_of_le hle
  rw [pow_add, mul_comm (10 ^ k), Nat.cast_mul, ← mul_assoc,
    divHalfEvenInt_mul _ (Nat.pow_pos (by norm_num))] at hcoeff
  rw [value, hcoeff, hrscale]
  obtain ⟨m, rfl⟩ := Nat.exists_eq_add_of_le hk
  rw [Nat.add_sub_cancel_left]
  push_cast
  rw [pow_add, pow_add]
  field_simp

end Fitting

section Subtraction

/-- A difference as its coefficient at the scale of the longer number. -/
theorem sub_eq_ok (h : d.sub e = .ok r) :
    r.value = d.value - e.value ∨ ∃ scale ≤ maxScale, ∃ coeff : Int,
      (coeff : ℚ) / 10 ^ scale = d.value - e.value ∧ fit? coeff scale = some r := by
  unfold sub at h
  split at h
  · next hzero =>
    cases h
    exact .inl (by rw [value_neg, value_eq_zero_iff.mpr hzero, zero_sub])
  · split at h
    · next hzero =>
      cases h
      exact .inl (by rw [value_eq_zero_iff.mpr hzero, sub_zero])
    · dsimp only at h
      split at h
      · next difference hfit =>
        cases h
        refine .inr ⟨_, max_le d.scale_le e.scale_le, _, ?_, hfit⟩
        push_cast
        rw [sub_div, coeffAt_div (le_max_left _ _), coeffAt_div (le_max_right _ _)]
      · cases h

/-- Quantities differ by zero only if they denote the same number. -/
theorem sub_isZero (h : d.sub e = .ok r) : r.isZero = true ↔ d.value = e.value := by
  rcases sub_eq_ok h with hvalue | ⟨scale, hscale, coeff, hvalue, hfit⟩
  · rw [← value_eq_zero_iff, hvalue, sub_eq_zero]
  · have hpow : (10 : ℚ) ^ scale ≠ 0 := pow_ne_zero _ (by norm_num)
    rw [fit?_isZero hfit hscale, ← sub_eq_zero (a := d.value), ← hvalue, div_eq_zero_iff,
      or_iff_left hpow, Int.cast_eq_zero]

/-- A difference that can be denoted is exact. -/
theorem sub_value (h : d.sub e = .ok r) (hexact : ∃ x : Decimal, x.value = d.value - e.value) :
    r.value = d.value - e.value := by
  rcases sub_eq_ok h with hvalue | ⟨scale, hscale, coeff, hvalue, hfit⟩
  · exact hvalue
  · rw [← hvalue] at hexact ⊢
    exact fit?_value hfit hscale hexact

end Subtraction
end Recount.Decimal
