import Recount.Proofs.Count.Computing

/-!
# Percentages of variances

A percentage is computed from a quotient that has been rounded already. For quantities as they are
stored, no exact percentage is so near to a tie that the digits which the quotient gave up would
decide, so the result is the exact percentage, rounded once.
-/

namespace Recount

open Decimal

variable {system counted r : Decimal} {S M : ℤ}

/-- A quantity that is stored without loss: ten-thousandths with eighteen digits. -/
def Decimal.FitsColumn (d : Decimal) : Prop := ∃ n : ℤ, |n| < 10 ^ 18 ∧ d.value = n / 10 ^ 4

/-- A ratio of stored quantities in hundredths of a percent, which is not a tie, is at least so far
away from every tie. -/
theorem apart_of_not_tie (hS : S ≠ 0) {k : ℤ} (htie : (M : ℚ) / S * 10 ^ 4 ≠ k + 1 / 2) :
    1 / (2 * |(S : ℚ)|) ≤ |(M : ℚ) / S * 10 ^ 4 - (k + 1 / 2)| := by
  have hS' : (S : ℚ) ≠ 0 := by exact_mod_cast hS
  have hcross : (M : ℚ) / S * 10 ^ 4 - (k + 1 / 2) =
      ((2 * 10 ^ 4 * M - (2 * k + 1) * S : ℤ) : ℚ) / (2 * S) := by
    push_cast
    field_simp
    ring
  have hne : 2 * 10 ^ 4 * M - (2 * k + 1) * S ≠ 0 := fun hzero => by
    rw [hzero, Int.cast_zero, zero_div, sub_eq_zero] at hcross
    exact htie hcross
  rw [hcross, abs_div, abs_mul, abs_of_pos (by norm_num : (0 : ℚ) < 2)]
  refine div_le_div_of_nonneg_right ?_ (by positivity)
  exact_mod_cast Int.one_le_abs hne

/-- The digits that a ratio of stored quantities gives up are fewer than would reach a tie. -/
theorem close_of_isQuotient (hS : S ≠ 0) (hSlt : |S| < 10 ^ 18) (hMlt : |M| < 2 * 10 ^ 18)
    (hr : IsQuotient r (M / S)) : (M : ℚ) / S = r.value ∨
      |(M : ℚ) / S * 10 ^ 4 - r.value * 10 ^ 4| < 1 / (2 * |(S : ℚ)|) := by
  have hSpos : (0 : ℚ) < |(S : ℚ)| := abs_pos.mpr (by exact_mod_cast hS)
  have hSlt' : |(S : ℚ)| < 10 ^ 18 := by exact_mod_cast hSlt
  have hMlt' : |(M : ℚ)| < 2 * 10 ^ 18 := by exact_mod_cast hMlt
  obtain ⟨places, -, n, hvalue, -, hnearest, hfull⟩ := hr
  have hten : (0 : ℚ) < 10 ^ places := by positivity
  have hdistance : |(M : ℚ) / S * 10 ^ 4 - r.value * 10 ^ 4| * 10 ^ places ≤ 10 ^ 4 / 2 := by
    have hunits : ((M : ℚ) / S * 10 ^ 4 - r.value * 10 ^ 4) * 10 ^ places =
        (M / S * 10 ^ places - n) * 10 ^ 4 := by
      rw [hvalue]
      field_simp
    have habs := congrArg abs hunits
    rw [abs_mul, abs_of_pos hten, abs_mul, abs_of_pos (by positivity : (0 : ℚ) < 10 ^ 4)] at habs
    rw [habs]
    linarith [hnearest.1]
  -- It is enough that the unit of the ratio is small against its divisor.
  suffices hsmall : (M : ℚ) / S = r.value ∨ 10 ^ 4 * |(S : ℚ)| < 10 ^ places by
    refine hsmall.imp_right fun hlt => ?_
    rw [lt_div_iff₀ (by positivity)]
    refine lt_of_mul_lt_mul_right ?_ hten.le
    calc |(M : ℚ) / S * 10 ^ 4 - r.value * 10 ^ 4| * (2 * |(S : ℚ)|) * 10 ^ places
        = |(M : ℚ) / S * 10 ^ 4 - r.value * 10 ^ 4| * 10 ^ places * (2 * |(S : ℚ)|) := by ring
      _ ≤ 10 ^ 4 / 2 * (2 * |(S : ℚ)|) := by gcongr
      _ = 10 ^ 4 * |(S : ℚ)| := by ring
      _ < 1 * 10 ^ places := by rwa [one_mul]
  rcases hfull with hexact | rfl | hlong
  · left
    rw [hvalue, ← hexact, mul_div_cancel_right₀ _ hten.ne']
  · right
    calc 10 ^ 4 * |(S : ℚ)| < 10 ^ 4 * 10 ^ 18 := by gcongr
      _ < 10 ^ maxScale := by norm_num [maxScale]
  · right
    have hmany : (10 : ℚ) ^ 27 + 1 ≤ |(n : ℚ)| := by
      have h : 10 ^ 27 + 1 ≤ n.natAbs := by
        unfold coeffBound at hlong
        omega
      rw [← Int.cast_abs, Int.abs_eq_natAbs, Int.cast_natCast]
      exact_mod_cast h
    have hsize : (10 : ℚ) ^ 27 ≤ |(M : ℚ)| / |(S : ℚ)| * 10 ^ places := by
      have htriangle := abs_sub_abs_le_abs_sub (n : ℚ) (M / S * 10 ^ places)
      rw [abs_sub_comm] at htriangle
      rw [abs_mul, abs_div, abs_of_pos hten] at htriangle
      linarith [hnearest.1]
    rw [div_mul_eq_mul_div, le_div_iff₀ hSpos] at hsize
    have hbound : |(M : ℚ)| * 10 ^ places ≤ 2 * 10 ^ 18 * 10 ^ places := by gcongr
    nlinarith

/-- The ratio of the difference to a stored quantity that is not zero is not so great. -/
theorem abs_ratio_lt (hS : S ≠ 0) (hMlt : |M| < 2 * 10 ^ 18) : |(M : ℚ) / S| < 2 * 10 ^ 18 := by
  have hSone : (1 : ℚ) ≤ |(S : ℚ)| := by exact_mod_cast Int.one_le_abs hS
  have hMlt' : |(M : ℚ)| < 2 * 10 ^ 18 := by exact_mod_cast hMlt
  rw [abs_div]
  exact (div_le_self (abs_nonneg _) hSone).trans_lt hMlt'

/-- A tie is a ratio of few digits, which is not rounded. -/
theorem eq_of_tie (hS : S ≠ 0) (hMlt : |M| < 2 * 10 ^ 18) (hr : IsQuotient r (M / S)) {k : ℤ}
    (htie : (M : ℚ) / S * 10 ^ 4 = k + 1 / 2) : r.value = M / S := by
  have hfew : (M : ℚ) / S = (5 * (2 * k + 1) : ℤ) / 10 ^ 5 := by
    push_cast
    linarith
  refine hr.value_eq (by decide) hfew ?_
  have hratio := abs_ratio_lt hS hMlt
  rw [hfew, abs_div, abs_of_pos (by positivity : (0 : ℚ) < 10 ^ 5), div_lt_iff₀ (by positivity),
    ← Int.cast_abs, Int.abs_eq_natAbs, Int.cast_natCast] at hratio
  have hlt : ((5 * (2 * k + 1)).natAbs : ℚ) < 10 ^ 28 := hratio.trans (by norm_num)
  exact_mod_cast hlt

/-- The exact ratio and the one that is computed are rounded alike. -/
theorem isNearest_of_isQuotient (hS : S ≠ 0) (hSlt : |S| < 10 ^ 18) (hMlt : |M| < 2 * 10 ^ 18)
    (hr : IsQuotient r (M / S)) {n : ℤ} (hn : IsNearest n (r.value * 10 ^ 4)) :
    IsNearest n ((M : ℚ) / S * 10 ^ 4) := by
  refine hn.of_close ?_
  rcases close_of_isQuotient hS hSlt hMlt hr with hexact | hclose
  · exact .inl (by rw [hexact])
  by_cases htie : ∃ k : ℤ, (M : ℚ) / S * 10 ^ 4 = k + 1 / 2
  · obtain ⟨k, htie⟩ := htie
    exact .inl (by rw [eq_of_tie hS hMlt hr htie])
  · exact .inr fun k => hclose.trans_le (apart_of_not_tie hS fun heq => htie ⟨k, heq⟩)

/-- Stored quantities, in ten-thousandths. -/
structure StoredAs (system counted : Decimal) (S C : ℤ) : Prop where
  system_lt : |S| < 10 ^ 18
  counted_lt : |C| < 10 ^ 18
  system_eq : system.value = S / 10 ^ 4
  counted_eq : counted.value = C / 10 ^ 4

section StoredAs

variable {C : ℤ} {difference : Decimal}

theorem StoredAs.sub_lt (h : StoredAs system counted S C) : |C - S| < 2 * 10 ^ 18 :=
  (abs_sub C S).trans_lt (by linarith [h.system_lt, h.counted_lt])

/-- The difference of stored quantities is computed exactly. -/
theorem StoredAs.exists_difference (h : StoredAs system counted S C) :
    ∃ x : Decimal, x.value = counted.value - system.value := by
  have hvalue : counted.value - system.value = ((C - S : ℤ) : ℚ) / 10 ^ 4 := by
    rw [h.counted_eq, h.system_eq]
    push_cast
    ring
  have hlt := h.sub_lt
  rw [hvalue]
  refine exists_value ?_ (by decide)
  rw [Int.abs_eq_natAbs] at hlt
  unfold coeffBound
  omega

theorem StoredAs.ratio_eq (h : StoredAs system counted S C)
    (hsub : counted.sub system = .ok difference) :
    difference.value / system.value = ((C - S : ℤ) : ℚ) / S := by
  rw [sub_value hsub h.exists_difference, h.counted_eq, h.system_eq, ← sub_div,
    div_div_div_cancel_right₀ (by norm_num), Int.cast_sub]

theorem StoredAs.ne_zero (h : StoredAs system counted S C) (hne : system.value ≠ 0) : S ≠ 0 := by
  rintro rfl
  exact hne (by rw [h.system_eq, Int.cast_zero, zero_div])

/-- A variance of stored quantities can always be computed. -/
theorem StoredAs.varianceInRange (h : StoredAs system counted S C) :
    VarianceInRange system counted := by
  obtain ⟨x, hx⟩ := h.exists_difference
  refine ⟨hx ▸ inRange_value, fun hne difference hsub => ?_⟩
  have hlt := abs_ratio_lt (h.ne_zero hne) h.sub_lt
  rw [h.ratio_eq hsub]
  refine ⟨hlt.trans (by norm_num [coeffBound]), fun ratio hdiv => ?_⟩
  have hquotient := div_eq_ok hne hdiv
  rw [h.ratio_eq hsub] at hquotient
  have htriangle := abs_sub_abs_le_abs_sub ratio.value (((C - S : ℤ) : ℚ) / S)
  rw [abs_sub_comm] at htriangle
  rw [InRange, abs_mul, abs_of_pos (by norm_num : (0 : ℚ) < 100)]
  norm_num [coeffBound] at *
  linarith [hquotient.abs_sub_value_le]

end StoredAs

/-- The percentage of stored quantities does not overflow. It is the exact one, rounded half to even
to two places, whatever was rounded on the way. -/
theorem variancePercent_rounded (hs : system.FitsColumn) (hc : counted.FitsColumn)
    (hne : system.value ≠ 0) : ∃ percent, variancePercent system counted = .ok percent ∧
      IsRounded 2 (100 * (counted.value - system.value) / system.value) percent.value := by
  obtain ⟨S, hSlt, hsystem⟩ := hs
  obtain ⟨C, hClt, hcounted⟩ := hc
  have hstored : StoredAs system counted S C := ⟨hSlt, hClt, hsystem, hcounted⟩
  obtain ⟨-, percent, hpercent⟩ := computes_iff.mpr hstored.varianceInRange
  refine ⟨percent, hpercent, ?_⟩
  unfold variancePercent at hpercent
  rw [if_neg (value_eq_zero_iff.not.mp hne)] at hpercent
  obtain ⟨difference, hsub, hpercent⟩ := bind_eq_ok_iff.mp hpercent
  obtain ⟨ratio, hdiv, hpercent⟩ := bind_eq_ok_iff.mp hpercent
  obtain ⟨product, hmul, hround⟩ := bind_eq_ok_iff.mp hpercent
  cases hround
  obtain ⟨n, hvalue, hnearest⟩ := isRounded_roundTo 2 product
  refine ⟨n, hvalue, ?_⟩
  have hhundredths : 100 * (counted.value - system.value) / system.value * 10 ^ 2 =
      ((C - S : ℤ) : ℚ) / S * 10 ^ 4 := by
    rw [← hstored.ratio_eq hsub, sub_value hsub hstored.exists_difference]
    ring
  have hquotient := div_eq_ok hne hdiv
  rw [hstored.ratio_eq hsub] at hquotient
  rw [hhundredths]
  refine isNearest_of_isQuotient (hstored.ne_zero hne) hSlt hstored.sub_lt hquotient ?_
  rw [mul_hundred_value hmul] at hnearest
  rwa [show ratio.value * 100 * 10 ^ 2 = ratio.value * 10 ^ 4 by ring] at hnearest

/-- Three ten-thousandths. -/
def fewKnown : Decimal := .ofParts 3 4

/-- Almost the greatest quantity that is stored. -/
def manyCounted : Decimal := .ofParts 999999999999999998 4

/-- The difference of the two in percent of the lesser one, of which two places are left. -/
def hugePercent : Decimal := .ofParts 3333333333333333316667 2

theorem variancePercent_rounded_hugePercent :
    (fewKnown.FitsColumn ∧ manyCounted.FitsColumn ∧ fewKnown.value ≠ 0) ∧
      variancePercent fewKnown manyCounted = .ok hugePercent ∧
      IsRounded 2 (100 * (manyCounted.value - fewKnown.value) / fewKnown.value)
        hugePercent.value := by
  have hfew : fewKnown.FitsColumn := ⟨3, by norm_num, rfl⟩
  have hmany : manyCounted.FitsColumn := ⟨999999999999999998, by norm_num, rfl⟩
  have hne : fewKnown.value ≠ 0 := value_eq_zero_iff.not.mpr (by decide)
  obtain ⟨percent, hpercent, hrounded⟩ := variancePercent_rounded hfew hmany hne
  have hpercent' : variancePercent fewKnown manyCounted = .ok hugePercent := by decide +kernel
  cases hpercent.symm.trans hpercent'
  exact ⟨⟨hfew, hmany, hne⟩, hpercent', hrounded⟩

end Recount
