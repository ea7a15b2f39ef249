import Mathlib.Algebra.Order.Field.Basic
import Mathlib.Algebra.Order.Group.Abs
import Mathlib.Algebra.Ring.Parity
import Mathlib.Tactic.Linarith
import Recount.Decimal.Arithmetic
import Recount.Proofs.Decimal.Value

/-!
# Rounding

A number is rounded to the nearest integer, half to even, and a sum, a difference or a product of
quantities to as many places as fit. It overflows just where its exact value does not fit.
-/

/-! ## The nearest integer

Roundings give the nearest integer, and of two that are as near the even one. A number that is
rounded in two steps comes to the same integer as in one if the first step does not move it as far
as to the next tie. -/

namespace Recount.Decimal

variable {m n k : ℤ} {x y f : ℚ}

/-- The integer is as near as any to the number, and even if another one is as near. -/
def IsNearest (n : ℤ) (x : ℚ) : Prop := |x - n| ≤ 1 / 2 ∧ (|x - n| = 1 / 2 → Even n)

/-- The second number is the first one rounded half to even to so many places. -/
def IsRounded (places : Nat) (x y : ℚ) : Prop :=
  ∃ n : ℤ, y = n / 10 ^ places ∧ IsNearest n (x * 10 ^ places)

namespace IsNearest

theorem unique (hm : IsNearest m x) (hn : IsNearest n x) : m = n := by
  by_contra hne
  have hapart : (1 : ℚ) ≤ |(m : ℚ) - n| := by
    have h : (1 : ℤ) ≤ |m - n| := Int.one_le_abs (sub_ne_zero.mpr hne)
    exact_mod_cast h
  have hbetween : |(m : ℚ) - n| ≤ |x - m| + |x - n| := by
    rw [show (m : ℚ) - n = -(x - m) + (x - n) by ring, ← abs_neg (x - m)]
    exact abs_add_le _ _
  -- Both are half a unit away and even, but only one unit apart.
  have hmtie : |x - m| = 1 / 2 := le_antisymm hm.1 (by linarith [hn.1])
  have hntie : |x - n| = 1 / 2 := le_antisymm hn.1 (by linarith [hm.1])
  have hone : |m - n| = 1 := by
    refine le_antisymm ?_ (Int.one_le_abs (sub_ne_zero.mpr hne))
    have h : |(m : ℚ) - n| ≤ 1 := by linarith
    exact_mod_cast h
  have heven : Even |m - n| := even_abs.mpr ((hm.2 hmtie).sub (hn.2 hntie))
  rw [hone] at heven
  exact absurd heven (by decide)

theorem neg (h : IsNearest n x) : IsNearest (-n) (-x) := by
  have hsame : |(-x) - ((-n : ℤ) : ℚ)| = |x - n| := by
    rw [Int.cast_neg, ← abs_neg (x - n)]
    congr 1
    ring
  exact ⟨hsame ▸ h.1, fun htie => (h.2 (hsame ▸ htie)).neg⟩

/-- An integer is the nearest one to itself. -/
theorem eq_of_intCast (h : IsNearest n (m : ℚ)) : n = m := by
  refine h.unique ⟨by simp, fun htie => ?_⟩
  norm_num at htie

/-- What lies below a tie is rounded down. -/
theorem below (hnonneg : 0 ≤ f) (hhalf : 2 * f ≤ 1) (heven : 2 * f = 1 → Even n) :
    IsNearest n (n + f) := by
  rw [IsNearest, add_sub_cancel_left, abs_of_nonneg hnonneg]
  exact ⟨by linarith, fun htie => heven (by linarith)⟩

/-- What lies above a tie is rounded up. -/
theorem above (hle : f ≤ 1) (hhalf : 1 ≤ 2 * f) (hodd : 2 * f = 1 → ¬ Even n) :
    IsNearest (n + 1) (n + f) := by
  have hdistance : |(n : ℚ) + f - ((n + 1 : ℤ) : ℚ)| = 1 - f := by
    push_cast
    rw [show (n : ℚ) + f - (n + 1) = -(1 - f) by ring, abs_neg, abs_of_nonneg (by linarith)]
  rw [IsNearest, hdistance]
  exact ⟨by linarith, fun htie => (Int.not_even_iff_odd.mp (hodd (by linarith))).add_one⟩

theorem lt_of_lt (h : IsNearest n x) {bound : ℤ} (hx : x < bound - 1 / 2) : n < bound := by
  have hfar := (abs_le.mp h.1).1
  have hlt : (n : ℚ) < bound := by linarith
  exact_mod_cast hlt

/-- A number that is rounded to less than an even bound lies below the tie before it. -/
theorem lt_of_lt_even (h : IsNearest n x) {bound : ℤ} (hbound : Even bound) (hn : n < bound) :
    x < bound - 1 / 2 := by
  have hfar := (abs_le.mp h.1).2
  rcases (Int.add_one_le_iff.mpr hn).lt_or_eq with hlt | heq
  · have hle : (n : ℚ) + 2 ≤ bound := by exact_mod_cast (by omega : n + 2 ≤ bound)
    linarith
  · have hbefore : (bound : ℚ) = n + 1 := by exact_mod_cast heq.symm
    refine lt_of_le_of_ne (by linarith) fun htie => ?_
    have heven := h.2 (by
      rw [htie, hbefore, show (n : ℚ) + 1 - 1 / 2 - n = 1 / 2 by ring]
      norm_num)
    rw [← heq, Int.even_add_one] at hbound
    exact hbound heven

/-- A number that is nearer to another one than to any tie is rounded as the other one is. -/
theorem of_close (h : IsNearest n y)
    (hclose : x = y ∨ ∀ k : ℤ, |x - y| < |x - (k + 1 / 2)|) : IsNearest n x := by
  rcases hclose with rfl | hclose
  · exact h
  obtain ⟨hlow, hhigh⟩ := abs_le.mp h.1
  have hbelow : x < n + 1 / 2 := by
    by_contra hnot
    have hnear := hclose n
    rw [abs_of_nonneg (by linarith : 0 ≤ x - y),
      abs_of_nonneg (by linarith : 0 ≤ x - ((n : ℚ) + 1 / 2))] at hnear
    linarith
  have habove : n - 1 / 2 < x := by
    by_contra hnot
    have hnear := hclose (n - 1)
    rw [abs_of_nonpos (by linarith : x - y ≤ 0),
      abs_of_nonpos (by push_cast; linarith : x - (((n - 1 : ℤ) : ℚ) + 1 / 2) ≤ 0)] at hnear
    push_cast at hnear
    linarith
  have hinside : |x - n| < 1 / 2 := abs_lt.mpr ⟨by linarith, by linarith⟩
  exact ⟨hinside.le, fun htie => absurd htie hinside.ne⟩

end IsNearest

/-- A quotient is the one without its remainder and what the remainder adds. -/
theorem natCast_div_eq (num : Nat) {den : Nat} (hden : 0 < den) :
    (num : ℚ) / den = (num / den : Nat) + ((num % den : Nat) : ℚ) / den := by
  have hne : (den : ℚ) ≠ 0 := by exact_mod_cast hden.ne'
  rw [div_eq_iff hne, add_mul, div_mul_cancel₀ _ hne, ← Nat.cast_mul, ← Nat.cast_add,
    Nat.div_add_mod']

/-- A quotient of naturals that is rounded half to even. -/
theorem isNearest_divHalfEven (num : Nat) {den : Nat} (hden : 0 < den) :
    IsNearest (divHalfEven num den : Nat) (num / den) := by
  have hpos : (0 : ℚ) < den := by exact_mod_cast hden
  have hrest : ((num % den : Nat) : ℚ) / den ≤ 1 := by
    rw [div_le_one hpos]
    exact_mod_cast (Nat.mod_lt num hden).le
  have htwice : 2 * (((num % den : Nat) : ℚ) / den) = ((2 * (num % den) : Nat) : ℚ) / den := by
    push_cast
    ring
  rw [natCast_div_eq num hden, ← Int.cast_natCast (num / den)]
  unfold divHalfEven
  dsimp only
  split
  · next hup =>
    simp only [Bool.or_eq_true, decide_eq_true_eq, Bool.and_eq_true, beq_iff_eq] at hup
    push_cast
    refine IsNearest.above hrest ?_ fun htie => ?_
    · rw [htwice, one_le_div hpos]
      exact_mod_cast (by omega : den ≤ 2 * (num % den))
    · rw [htwice, div_eq_one_iff_eq hpos.ne'] at htie
      have htie' : 2 * (num % den) = den := by exact_mod_cast htie
      rw [← Int.natCast_div, Int.even_coe_nat, Nat.even_iff]
      omega
  · next hdown =>
    simp only [Bool.or_eq_true, decide_eq_true_eq, Bool.and_eq_true, beq_iff_eq] at hdown
    refine IsNearest.below (by positivity) ?_ fun htie => ?_
    · rw [htwice, div_le_one hpos]
      exact_mod_cast (by omega : 2 * (num % den) ≤ den)
    · rw [htwice, div_eq_one_iff_eq hpos.ne'] at htie
      have htie' : 2 * (num % den) = den := by exact_mod_cast htie
      rw [Int.even_coe_nat, Nat.even_iff]
      omega

/-- A quotient of an integer that is rounded half to even. -/
theorem isNearest_divHalfEvenInt (num : ℤ) {den : Nat} (hden : 0 < den) :
    IsNearest (divHalfEvenInt num den) (num / den) := by
  have hsize := isNearest_divHalfEven num.natAbs hden
  unfold divHalfEvenInt
  split
  · next hneg =>
    have hnum : (num : ℚ) = -(num.natAbs : ℚ) := by
      rw [Nat.cast_natAbs, abs_of_neg hneg, Int.cast_neg, neg_neg]
    rw [hnum, neg_div]
    exact hsize.neg
  · next hpos =>
    have hnum : (num : ℚ) = (num.natAbs : ℚ) := by
      rw [Nat.cast_natAbs, abs_of_nonneg (not_lt.mp hpos)]
    rw [hnum]
    exact hsize

end Recount.Decimal

/-! ## The range of the arithmetic

A sum, a difference or a product overflows just where its exact value is so great that it would be
rounded to the bound of the coefficients. Where a quantity denotes the exact value, the result
does. -/

namespace Recount.Decimal

variable {d e r : Decimal} {coeff : Int} {scale places : Nat} {x : ℚ}

/-- The quantity with this coefficient and scale, and zero if they fit none. -/
def ofParts (coeff : Int) (scale : Nat) : Decimal := (ofParts? coeff scale).getD zero

/-- The number is rounded to one that fits a quantity, if need be without decimal places. -/
def InRange (x : ℚ) : Prop := |x| < coeffBound - 1 / 2

theorem InRange.neg (h : InRange x) : InRange (-x) := by
  rwa [InRange, abs_neg]

theorem natAbs_coeff : d.coeff.natAbs = d.digits := by
  unfold coeff
  split <;> simp

theorem abs_value : |d.value| = d.digits / 10 ^ d.scale := by
  rw [value, abs_div, ← Int.cast_abs, Int.abs_eq_natAbs, natAbs_coeff, Int.cast_natCast,
    abs_of_pos (by positivity)]

/-- What a quantity denotes is in the range. -/
theorem inRange_value : InRange d.value := by
  have hdigits : (d.digits : ℚ) + 1 ≤ coeffBound := by exact_mod_cast d.digits_lt
  have hplaces : (d.digits : ℚ) / 10 ^ d.scale ≤ d.digits :=
    div_le_self (Nat.cast_nonneg _) (one_le_pow₀ (by norm_num))
  rw [InRange, abs_value]
  linarith

/-- A number of units that fits is denoted. -/
theorem exists_value {n : ℤ} (hn : n.natAbs < coeffBound) (hplaces : places ≤ maxScale) :
    ∃ d : Decimal, d.value = n / 10 ^ places := by
  obtain ⟨d, hd⟩ := Option.isSome_iff_exists.mp (ofParts?_isSome_iff.mpr ⟨hn, hplaces⟩)
  obtain ⟨hcoeff, hscale⟩ := ofParts?_eq_some hd
  exact ⟨d, by rw [value, hcoeff, hscale]⟩

theorem even_coeffBound : Even (coeffBound : ℤ) := by decide +kernel

/-- A coefficient has a nearest quantity just if its number is in the range. -/
theorem fit?_isSome_iff (hscale : scale ≤ maxScale) :
    (fit? coeff scale).isSome ↔ InRange (coeff / 10 ^ scale) := by
  have hten : ∀ k : Nat, (0 : ℚ) < 10 ^ k := fun k => by positivity
  have hnearest : ∀ k : Nat, IsNearest (divHalfEven coeff.natAbs (10 ^ k) : Nat)
      (coeff.natAbs / 10 ^ k) := fun k => by
    have h := isNearest_divHalfEven coeff.natAbs (Nat.pow_pos (n := k) (by norm_num : 0 < 10))
    rwa [Nat.cast_pow, Nat.cast_ofNat] at h
  have habs : |(coeff : ℚ) / 10 ^ scale| = coeff.natAbs / 10 ^ scale := by
    rw [abs_div, abs_of_pos (hten scale), Nat.cast_natAbs, Int.cast_abs]
  rw [fit?, List.findSome?_isSome_iff, InRange, habs]
  simp only [List.mem_range, ofParts?_isSome_iff, natAbs_divHalfEvenInt]
  constructor
  · rintro ⟨k, hk, hlt, -⟩
    have hbelow := (hnearest k).lt_of_lt_even even_coeffBound (by exact_mod_cast hlt)
    refine lt_of_le_of_lt ?_ hbelow
    exact div_le_div_of_nonneg_left (Nat.cast_nonneg _) (hten k)
      (pow_le_pow_right₀ (by norm_num) (Nat.le_of_lt_succ hk))
  · intro hlt
    refine ⟨scale, Nat.lt_succ_self scale, ?_, by omega⟩
    exact_mod_cast (hnearest scale).lt_of_lt hlt

theorem exists_fit?_iff (hscale : scale ≤ maxScale) :
    (∃ r, fit? coeff scale = some r) ↔ InRange (coeff / 10 ^ scale) := by
  rw [← Option.isSome_iff_exists, fit?_isSome_iff hscale]

section Addition

/-- A sum as its coefficient at the scale of the longer number. -/
theorem add_eq_ok (h : d.add e = .ok r) :
    r.value = d.value + e.value ∨ ∃ scale ≤ maxScale, ∃ coeff : Int,
      (coeff : ℚ) / 10 ^ scale = d.value + e.value ∧ fit? coeff scale = some r := by
  unfold add at h
  split at h
  · next hzero =>
    cases h
    exact .inl (by rw [value_eq_zero_iff.mpr hzero, zero_add])
  · split at h
    · next hzero =>
      cases h
      exact .inl (by rw [value_eq_zero_iff.mpr hzero, add_zero])
    · dsimp only at h
      split at h
      · next sum hfit =>
        cases h
        refine .inr ⟨_, max_le d.scale_le e.scale_le, _, ?_, hfit⟩
        push_cast
        rw [add_div, coeffAt_div (le_max_left _ _), coeffAt_div (le_max_right _ _)]
      · cases h

/-- A sum that can be denoted is exact. -/
theorem add_value (h : d.add e = .ok r) (hexact : ∃ x : Decimal, x.value = d.value + e.value) :
    r.value = d.value + e.value := by
  rcases add_eq_ok h with hvalue | ⟨scale, hscale, coeff, hvalue, hfit⟩
  · exact hvalue
  · rw [← hvalue] at hexact ⊢
    exact fit?_value hfit hscale hexact

theorem exists_add_iff : (∃ r, d.add e = .ok r) ↔ InRange (d.value + e.value) := by
  unfold add
  split
  · next hzero =>
    rw [value_eq_zero_iff.mpr hzero, zero_add]
    exact iff_of_true ⟨e, rfl⟩ inRange_value
  · split
    · next hzero =>
      rw [value_eq_zero_iff.mpr hzero, add_zero]
      exact iff_of_true ⟨d, rfl⟩ inRange_value
    · have hsum : ((d.coeffAt (max d.scale e.scale) + e.coeffAt (max d.scale e.scale) : Int) : ℚ) /
          10 ^ max d.scale e.scale = d.value + e.value := by
        push_cast
        rw [add_div, coeffAt_div (le_max_left _ _), coeffAt_div (le_max_right _ _)]
      rw [← hsum, ← exists_fit?_iff (max_le d.scale_le e.scale_le)]
      dsimp only
      split <;> simp_all

end Addition

theorem exists_sub_iff : (∃ r, d.sub e = .ok r) ↔ InRange (d.value - e.value) := by
  unfold sub
  split
  · next hzero =>
    rw [value_eq_zero_iff.mpr hzero, zero_sub]
    exact iff_of_true ⟨e.neg, rfl⟩ inRange_value.neg
  · split
    · next hzero =>
      rw [value_eq_zero_iff.mpr hzero, sub_zero]
      exact iff_of_true ⟨d, rfl⟩ inRange_value
    · have hdifference :
          ((d.coeffAt (max d.scale e.scale) - e.coeffAt (max d.scale e.scale) : Int) : ℚ) /
            10 ^ max d.scale e.scale = d.value - e.value := by
        push_cast
        rw [sub_div, coeffAt_div (le_max_left _ _), coeffAt_div (le_max_right _ _)]
      rw [← hdifference, ← exists_fit?_iff (max_le d.scale_le e.scale_le)]
      dsimp only
      split <;> simp_all

section Percentage

/-- A percentage as its coefficient at the scale of the ratio. -/
theorem mul_hundred_cases (d : Decimal) : (d.value = 0 ∧ d.mul hundred = .ok zero) ∨
    ((d.coeff * 100 : Int) : ℚ) / 10 ^ d.scale = d.value * 100 ∧
      d.mul hundred = (fit? (d.coeff * 100) d.scale).elim (.error .multiplication) .ok := by
  by_cases hzero : d.isZero = true
  · exact .inl ⟨value_eq_zero_iff.mpr hzero, by rw [mul, hzero]; rfl⟩
  · refine .inr ⟨by rw [value]; push_cast; ring, ?_⟩
    rw [Bool.not_eq_true] at hzero
    have hfactors : ¬ (d.isZero || hundred.isZero) = true := by rw [hzero]; decide
    have hparts : fit? (d.coeff * hundred.coeff) (d.scale + hundred.scale) =
        fit? (d.coeff * 100) d.scale := rfl
    rw [mul, if_neg hfactors, hparts]
    cases fit? (d.coeff * 100) d.scale <;> rfl

theorem exists_mul_hundred_iff : (∃ r, d.mul hundred = .ok r) ↔ InRange (d.value * 100) := by
  rcases d.mul_hundred_cases with ⟨hzero, hmul⟩ | ⟨hvalue, hmul⟩
  · refine iff_of_true ⟨zero, hmul⟩ ?_
    rw [hzero, InRange, zero_mul, abs_zero]
    norm_num [coeffBound]
  · rw [← hvalue, ← exists_fit?_iff d.scale_le, hmul]
    cases fit? (d.coeff * 100) d.scale <;> simp

/-- A percentage needs no more places than the ratio, so it is exact. -/
theorem mul_hundred_value (h : d.mul hundred = .ok r) : r.value = d.value * 100 := by
  have hrange := exists_mul_hundred_iff.mp ⟨r, h⟩
  have hexact : ∃ x : Decimal, x.value = d.value * 100 := by
    rcases Nat.lt_or_ge d.scale 2 with hshort | hlong
    · obtain ⟨more, hmore⟩ : ∃ more, 2 = d.scale + more := ⟨2 - d.scale, by omega⟩
      have hwhole : d.value * 100 = ((d.coeff * 10 ^ more : Int) : ℚ) := by
        rw [value, show (100 : ℚ) = 10 ^ 2 by norm_num, hmore, pow_add]
        push_cast
        field_simp
      rw [hwhole, InRange, ← Int.cast_abs, Int.abs_eq_natAbs, Int.cast_natCast] at hrange
      have hsize : ((d.coeff * 10 ^ more).natAbs : ℚ) < coeffBound := by linarith
      obtain ⟨x, hx⟩ := exists_value (by exact_mod_cast hsize : (d.coeff * 10 ^ more).natAbs < _)
        (Nat.zero_le maxScale)
      exact ⟨x, by rw [hx, hwhole, pow_zero, div_one]⟩
    · obtain ⟨fewer, hfewer⟩ := Nat.exists_eq_add_of_le hlong
      have hsize : d.coeff.natAbs < coeffBound := natAbs_coeff ▸ d.digits_lt
      have hplaces : fewer ≤ maxScale := by
        have := d.scale_le
        omega
      obtain ⟨x, hx⟩ := exists_value hsize hplaces
      refine ⟨x, ?_⟩
      rw [hx, value, hfewer, pow_add]
      field_simp
      norm_num
  rcases d.mul_hundred_cases with ⟨hzero, hmul⟩ | ⟨hvalue, hmul⟩
  · cases h.symm.trans hmul
    rw [hzero]
    simp [value, coeff, zero]
  · have hfit : fit? (d.coeff * 100) d.scale = some r := by
      rw [hmul] at h
      cases hfit : fit? (d.coeff * 100) d.scale with
      | none => rw [hfit] at h; cases h
      | some product => rw [hfit] at h; cases h; rfl
    rw [← hvalue] at hexact ⊢
    exact fit?_value hfit d.scale_le hexact

end Percentage

theorem isRounded_roundTo (places : Nat) (d : Decimal) :
    IsRounded places d.value (d.roundTo places).value := by
  have hten : ∀ k : Nat, (10 : ℚ) ^ k ≠ 0 := fun k => pow_ne_zero k (by norm_num)
  unfold roundTo
  split
  · next hplaces =>
    have hvalue := coeffAt_div hplaces
    refine ⟨d.coeffAt places, hvalue.symm, ?_⟩
    rw [← hvalue, div_mul_cancel₀ _ (hten places)]
    exact ⟨by simp, fun htie => by norm_num at htie⟩
  · next hplaces =>
    obtain ⟨more, hmore⟩ := Nat.exists_eq_add_of_lt (not_le.mp hplaces)
    have hcut : d.scale - places = more + 1 := by omega
    have hnearest := isNearest_divHalfEvenInt d.coeff
      (Nat.pow_pos (n := more + 1) (by norm_num : 0 < 10))
    have hsize : (divHalfEvenInt d.coeff (10 ^ (more + 1))).natAbs < coeffBound := by
      have hle := divHalfEven_le d.coeff.natAbs (10 ^ (more + 1))
      have hdiv : d.coeff.natAbs / 10 ^ (more + 1) ≤ d.coeff.natAbs / 10 :=
        Nat.div_le_div_left (Nat.le_self_pow (Nat.succ_ne_zero more) 10) (by norm_num)
      have hdigits := d.digits_lt
      rw [natAbs_divHalfEvenInt]
      rw [natAbs_coeff] at hle hdiv ⊢
      unfold coeffBound at hdigits ⊢
      omega
    obtain ⟨r, hr⟩ := Option.isSome_iff_exists.mp
      (ofParts?_isSome_iff.mpr ⟨hsize, (not_le.mp hplaces).le.trans d.scale_le⟩)
    obtain ⟨hcoeff, hscale⟩ := ofParts?_eq_some hr
    rw [hcut, hr]
    refine ⟨divHalfEvenInt d.coeff (10 ^ (more + 1)), ?_, ?_⟩
    · rw [Option.getD_some, value, hcoeff, hscale]
    · have hvalue : d.value * 10 ^ places = d.coeff / ((10 ^ (more + 1) : Nat) : ℚ) := by
        rw [value, hmore, show places + more + 1 = (more + 1) + places by ring, pow_add _ _ places,
          Nat.cast_pow, Nat.cast_ofNat, ← div_div, div_mul_cancel₀ _ (hten places)]
      rw [hvalue]
      exact hnearest

end Recount.Decimal
