import Mathlib.Algebra.Order.Field.Power
import Recount.Proofs.Decimal.Rounding

/-!
# Quotients

A division goes on by groups of digits until nothing is left or no digit fits any more. What it
comes to is the exact quotient, or the one that is nearest to it with as many digits as fit, so that
a quotient that a few digits denote is exact. It overflows just where its exact value does not fit.
-/

namespace Recount.Decimal

variable {x : ℚ} {divisor coeff remainder digits : Nat} {scale : ℤ} {inexact : Bool}
  {q q' : Quotient} {d e r : Decimal}

/-- A division has come to a coefficient and a remainder at a scale. -/
structure Divides (x : ℚ) (divisor coeff remainder : Nat) (scale : ℤ) : Prop where
  parts : x * 10 ^ scale = coeff + (remainder : ℚ) / divisor
  remainder_lt : remainder < divisor

/-- What a number is rounded to: its nearest integer of some unit. If it is not exact, there is no
smaller unit, or one more digit would not fit. -/
structure Quotient.Rounds (q : Quotient) (x : ℚ) : Prop where
  coeff_lt : q.coeff < coeffBound
  scale_nonneg : 0 ≤ q.scale
  scale_le : q.scale ≤ maxScale
  nearest : IsNearest q.coeff (x * 10 ^ q.scale)
  full : x * 10 ^ q.scale = q.coeff ∨ q.scale = maxScale ∨ coeffBound ≤ 10 * (q.coeff + 1)

/-- What a division comes to: a rounded quotient, or an overflow where the quotient does not fit. -/
def Comes (x : ℚ) : Except Overflow Quotient → Prop
  | .ok q => q.Rounds x
  | .error o => o = .division ∧ (coeffBound : ℚ) - 1 / 2 ≤ x

section Groups

/-- A group of digits is as long as fits; there is none only if not even one digit fits. -/
theorem growth_cases (coeff : Nat) (scale : ℤ) :
    growth coeff scale = 0 ∧ ((maxScale : ℤ) < scale + 1 ∨ coeffBound ≤ coeff * 10) ∨
      (scale + growth coeff scale ≤ maxScale ∧ coeff * 10 ^ growth coeff scale < coeffBound) ∧
        0 < growth coeff scale ∧ growth coeff scale ≤ 9 := by
  have hrange : (List.range 10).reverse = [9, 8, 7, 6, 5, 4, 3, 2, 1] ++ [0] := by decide
  unfold growth
  rw [hrange, List.find?_append]
  cases hfind : [9, 8, 7, 6, 5, 4, 3, 2, 1].find? fun (digits : Nat) =>
      scale + (digits : Int) ≤ maxScale && coeff * 10 ^ digits < coeffBound with
  | none =>
    have hone := List.find?_eq_none.mp hfind 1 (by decide)
    simp only [Bool.and_eq_true, decide_eq_true_eq, not_and_or, pow_one, Nat.cast_one] at hone
    refine .inl ⟨?_, hone.imp not_le.mp not_lt.mp⟩
    rw [Option.none_or, List.find?_cons]
    split <;> rfl
  | some digits =>
    have hfits := List.find?_some hfind
    simp only [Bool.and_eq_true, decide_eq_true_eq] at hfits
    have hlength : ∀ digits ∈ [9, 8, 7, 6, 5, 4, 3, 2, 1], 0 < digits ∧ digits ≤ 9 := by decide
    exact .inr ⟨hfits, hlength digits (List.mem_of_find?_eq_some hfind)⟩

/-- A division ends with no group of digits where its quotient is full. -/
theorem full_of_no_group (hrest : ¬ (remainder = 0 ∧ 0 ≤ scale)) (hscale : scale ≤ maxScale)
    (hgroup : digits = if remainder = 0 then min 9 (-scale).toNat else growth coeff scale)
    (hnone : digits = 0 ∨ (maxScale : ℤ) < scale + digits) :
    remainder ≠ 0 ∧ (scale = maxScale ∨ coeffBound ≤ coeff * 10) := by
  split at hgroup
  · omega
  · next hremainder =>
    refine ⟨hremainder, ?_⟩
    rcases growth_cases coeff scale with ⟨hzero, hfull⟩ | ⟨⟨hle, -⟩, hpos, -⟩
    · exact hfull.imp_left fun hlt => by omega
    · omega

/-- After a group of digits, a quotient with decimal places is at most one place too long. -/
theorem lt_of_group (h : Divides x divisor coeff remainder scale)
    (hgroup : digits = if remainder = 0 then min 9 (-scale).toNat else growth coeff scale)
    (hsome : ¬ (digits = 0 ∨ (maxScale : ℤ) < scale + digits)) (hplaces : 1 ≤ scale + digits) :
    coeff * 10 ^ digits + remainder * 10 ^ digits / divisor < coeffBound + 10 ^ 9 := by
  split at hgroup
  · omega
  · have hadded : remainder * 10 ^ digits / divisor < 10 ^ digits :=
      Nat.div_lt_of_lt_mul (Nat.mul_lt_mul_of_pos_right h.remainder_lt (Nat.pow_pos (by norm_num)))
    rcases growth_cases coeff scale with ⟨hzero, -⟩ | ⟨⟨-, hlt⟩, -, hlength⟩
    · omega
    · rw [← hgroup] at hlt hlength
      exact Nat.add_lt_add hlt
        (hadded.trans_le (Nat.pow_le_pow_right (by norm_num) hlength))

end Groups

section Steps

variable (h : Divides x divisor coeff remainder scale)

include h

theorem Divides.divisor_pos : 0 < divisor := Nat.zero_lt_of_lt h.remainder_lt

theorem Divides.rest_lt_one : (remainder : ℚ) / divisor < 1 := by
  rw [div_lt_one (by exact_mod_cast h.divisor_pos)]
  exact_mod_cast h.remainder_lt

theorem Divides.rest_eq_zero_iff : (remainder : ℚ) / divisor = 0 ↔ remainder = 0 := by
  have hne : (divisor : ℚ) ≠ 0 := by exact_mod_cast h.divisor_pos.ne'
  rw [div_eq_zero_iff, or_iff_left hne, Nat.cast_eq_zero]

theorem Divides.coeff_le : (coeff : ℚ) ≤ x * 10 ^ scale := by
  rw [h.parts]
  exact le_add_of_nonneg_right (by positivity)

/-- A division goes on by a group of digits. -/
theorem Divides.next (digits : Nat) :
    Divides x divisor (coeff * 10 ^ digits + remainder * 10 ^ digits / divisor)
      (remainder * 10 ^ digits % divisor) (scale + digits) where
  parts := by
    have hrest := natCast_div_eq (remainder * 10 ^ digits) h.divisor_pos
    rw [zpow_add₀ (by norm_num), ← mul_assoc, h.parts, zpow_natCast, add_mul, Nat.cast_add,
      add_assoc, ← hrest]
    push_cast
    ring
  remainder_lt := Nat.mod_lt _ h.divisor_pos

/-- The coefficient so far, or the next one, is the nearest integer. -/
theorem Divides.nearest (hup : divisor < 2 * remainder ∨ divisor = 2 * remainder ∧ coeff % 2 = 1) :
    IsNearest ((coeff + 1 : Nat) : ℤ) (x * 10 ^ scale) := by
  have hpos : (0 : ℚ) < divisor := by exact_mod_cast h.divisor_pos
  rw [h.parts, Nat.cast_add, Nat.cast_one, ← Int.cast_natCast (R := ℚ) coeff]
  refine IsNearest.above h.rest_lt_one.le ?_ fun htie => ?_
  · rw [← mul_div_assoc, one_le_div hpos]
    exact_mod_cast (by omega : divisor ≤ 2 * remainder)
  · rw [← mul_div_assoc, div_eq_one_iff_eq hpos.ne'] at htie
    have htie' : 2 * remainder = divisor := by exact_mod_cast htie
    rw [Int.even_coe_nat, Nat.even_iff]
    omega

theorem Divides.nearest_self
    (hdown : ¬ (divisor < 2 * remainder ∨ divisor = 2 * remainder ∧ coeff % 2 = 1)) :
    IsNearest coeff (x * 10 ^ scale) := by
  have hpos : (0 : ℚ) < divisor := by exact_mod_cast h.divisor_pos
  rw [h.parts, ← Int.cast_natCast (R := ℚ) coeff]
  refine IsNearest.below (by positivity) ?_ fun htie => ?_
  · rw [← mul_div_assoc, div_le_one hpos]
    exact_mod_cast (by omega : 2 * remainder ≤ divisor)
  · rw [← mul_div_assoc, div_eq_one_iff_eq hpos.ne'] at htie
    have htie' : 2 * remainder = divisor := by exact_mod_cast htie
    rw [Int.even_coe_nat, Nat.even_iff]
    omega

/-- Without decimal places, the number is at least as great as its coefficient. -/
theorem Divides.coeff_le_of_nonpos (hscale : scale ≤ 0) : (coeff : ℚ) ≤ x := by
  have hten : (0 : ℚ) < 10 ^ scale := zpow_pos (by norm_num) _
  have hnonneg : 0 ≤ x := nonneg_of_mul_nonneg_left ((Nat.cast_nonneg coeff).trans h.coeff_le) hten
  refine h.coeff_le.trans (mul_le_of_le_one_right hnonneg ?_)
  exact zpow_le_one_of_nonpos₀ (by norm_num) hscale

/-- One place to the left, the last digit of the coefficient joins the rest. -/
theorem Divides.parts_shorten : x * 10 ^ (scale - 1) =
    ((coeff / 10 : Nat) : ℤ) + ((coeff % 10 : Nat) + (remainder : ℚ) / divisor) / 10 := by
  have hcoeff := natCast_div_eq coeff (by norm_num : 0 < 10)
  rw [zpow_sub_one₀ (by norm_num), ← mul_assoc, h.parts, Int.cast_natCast, add_div,
    ← add_assoc, ← Nat.cast_ofNat (R := ℚ) (n := 10), ← hcoeff, ← div_eq_mul_inv, add_div]

/-- Without its last digit, the coefficient is the nearest integer, or the next one is. -/
theorem Divides.nearest_shorten
    (hup : 5 < coeff % 10 ∨ coeff % 10 = 5 ∧ (remainder ≠ 0 ∨ coeff / 10 % 2 = 1)) :
    IsNearest ((coeff / 10 + 1 : Nat) : ℤ) (x * 10 ^ (scale - 1)) := by
  have hone := h.rest_lt_one
  have hrest : 0 ≤ (remainder : ℚ) / divisor := by positivity
  have hlast : ((coeff % 10 : Nat) : ℚ) + 1 ≤ 10 := by
    exact_mod_cast (Nat.mod_lt coeff (by norm_num) : coeff % 10 < 10)
  have hfive : (5 : ℚ) ≤ (coeff % 10 : Nat) := by exact_mod_cast (by omega : 5 ≤ coeff % 10)
  rw [h.parts_shorten, Nat.cast_add, Nat.cast_one]
  refine IsNearest.above (by linarith) (by linarith) fun htie => ?_
  have hdigit : coeff % 10 = 5 := by
    have htie' : ((coeff % 10 : Nat) : ℚ) = 5 := by linarith
    exact_mod_cast htie'
  have hzero := h.rest_eq_zero_iff.mp (by linarith)
  rw [Int.even_coe_nat, Nat.even_iff]
  omega

theorem Divides.nearest_shorten_self
    (hdown : ¬ (5 < coeff % 10 ∨ coeff % 10 = 5 ∧ (remainder ≠ 0 ∨ coeff / 10 % 2 = 1))) :
    IsNearest (coeff / 10 : Nat) (x * 10 ^ (scale - 1)) := by
  have hone := h.rest_lt_one
  have hcases : coeff % 10 + 1 ≤ 5 ∨ coeff % 10 = 5 ∧ remainder = 0 := by omega
  rw [h.parts_shorten]
  rcases hcases with hlt | ⟨hdigit, hzero⟩
  · have hlt' : ((coeff % 10 : Nat) : ℚ) + 1 ≤ 5 := by exact_mod_cast hlt
    exact IsNearest.below (by positivity) (by linarith) fun htie => by linarith
  · rw [hdigit, h.rest_eq_zero_iff.mpr hzero]
    refine IsNearest.below (by norm_num) (by norm_num) fun _ => ?_
    rw [Int.even_coe_nat, Nat.even_iff]
    omega

/-- A coefficient that is one place too long is shortened to the nearest integer. -/
theorem Divides.comes_shorten (hlong : coeffBound ≤ coeff)
    (hlength : 1 ≤ scale → coeff < coeffBound + 10 ^ 9)
    (hscale : scale ≤ maxScale) :
    Comes x (Quotient.shorten coeff scale (remainder != 0) inexact) := by
  unfold Quotient.shorten
  split
  · next hplaces =>
    refine ⟨rfl, ?_⟩
    have hle : (coeffBound : ℚ) ≤ coeff := by exact_mod_cast hlong
    linarith [h.coeff_le_of_nonpos (by omega)]
  · next hplaces =>
    simp only [Bool.or_eq_true, Bool.and_eq_true, decide_eq_true_eq, beq_iff_eq, bne_iff_ne,
      ne_eq]
    replace hlength := hlength (by omega)
    unfold coeffBound at hlong hlength
    split
    · next hup =>
      exact ⟨by unfold coeffBound; dsimp only; omega, by dsimp only; omega, by dsimp only; omega,
        h.nearest_shorten hup, .inr (.inr (by unfold coeffBound; dsimp only; omega))⟩
    · next hdown =>
      exact ⟨by unfold coeffBound; dsimp only; omega, by dsimp only; omega, by dsimp only; omega,
        h.nearest_shorten_self hdown, .inr (.inr (by unfold coeffBound; dsimp only; omega))⟩

/-- A coefficient that is rounded up to the bound is one place too long. -/
theorem Divides.comes_carry (hfull : coeff + 1 = coeffBound)
    (hup : divisor < 2 * remainder ∨ divisor = 2 * remainder ∧ coeff % 2 = 1)
    (hscale : scale ≤ maxScale) : Comes x (Quotient.shorten (coeff + 1) scale true inexact) := by
  have hpos : (0 : ℚ) < divisor := by exact_mod_cast h.divisor_pos
  have hhalf : 1 / 2 ≤ (remainder : ℚ) / divisor := by
    rw [div_le_div_iff₀ (by norm_num) hpos]
    exact_mod_cast (by omega : 1 * divisor ≤ remainder * 2)
  have hone := h.rest_lt_one
  have hcoeff : coeff = 79228162514264337593543950335 := by
    unfold coeffBound at hfull
    omega
  subst hcoeff
  unfold Quotient.shorten
  split
  · next hplaces =>
    refine ⟨rfl, ?_⟩
    have hten : (0 : ℚ) < 10 ^ scale := zpow_pos (by norm_num) _
    have hnonneg : 0 ≤ x :=
      nonneg_of_mul_nonneg_left ((Nat.cast_nonneg _).trans h.coeff_le) hten
    have hle : x * 10 ^ scale ≤ x :=
      mul_le_of_le_one_right hnonneg (zpow_le_one_of_nonpos₀ (by norm_num) (by omega))
    rw [h.parts] at hle
    norm_num [coeffBound] at hle ⊢
    linarith
  · next hplaces =>
    change Comes x (.ok ⟨7922816251426433759354395034, scale - 1, inexact⟩)
    refine ⟨by unfold coeffBound; dsimp only; omega, by dsimp only; omega, by dsimp only; omega, ?_,
      .inr (.inr (by unfold coeffBound; dsimp only; omega))⟩
    have hparts : x * 10 ^ (scale - 1) = (7922816251426433759354395033 : ℤ) +
        (5 + (remainder : ℚ) / divisor) / 10 := by
      rw [zpow_sub_one₀ (by norm_num), ← mul_assoc, h.parts]
      push_cast
      ring
    dsimp only
    rw [hparts]
    exact IsNearest.above (n := 7922816251426433759354395033) (by linarith) (by linarith)
      fun htie => by linarith

end Steps

/-- A division comes to the quotient. -/
theorem Divides.comes (h : Divides x divisor coeff remainder scale) (hcoeff : coeff < coeffBound)
    (hscale : scale ≤ maxScale) : Comes x (extend divisor coeff remainder scale inexact) := by
  fun_induction extend divisor coeff remainder scale inexact with
  | case1 coeff remainder scale inexact hdone =>
    obtain ⟨rfl, hplaces⟩ := hdone
    have hexact : x * 10 ^ scale = coeff := by
      rw [h.parts, h.rest_eq_zero_iff.mpr rfl, add_zero]
    refine ⟨hcoeff, hplaces, hscale, ?_, .inl hexact⟩
    dsimp only
    rw [hexact]
    exact ⟨by simp, fun htie => by norm_num at htie⟩
  | case2 coeff remainder scale inexact hrest digits hnone hneg =>
    obtain ⟨-, hlast | hlong⟩ := full_of_no_group hrest hscale rfl hnone
    · omega
    · refine ⟨rfl, ?_⟩
      have hnext := (h.next 1).coeff_le_of_nonpos (by omega)
      have hle : (coeffBound : ℚ) ≤
          ((coeff * 10 ^ 1 + remainder * 10 ^ 1 / divisor : Nat) : ℚ) := by
        exact_mod_cast hlong.trans (by rw [pow_one]; exact Nat.le_add_right _ _)
      linarith
  | case3 coeff remainder scale inexact hrest inexact' digits hnone hplaces hup hfits =>
    obtain ⟨-, hfull⟩ := full_of_no_group hrest hscale rfl hnone
    refine ⟨hfits, not_lt.mp hplaces, hscale, h.nearest (by simpa using hup), .inr ?_⟩
    exact hfull.imp_right fun hlong => by dsimp only; omega
  | case4 coeff remainder scale inexact hrest inexact' digits hnone hplaces hup hlong =>
    exact h.comes_carry (by omega) (by simpa using hup) hscale
  | case5 coeff remainder scale inexact hrest inexact' digits hnone hplaces hdown =>
    obtain ⟨-, hfull⟩ := full_of_no_group hrest hscale rfl hnone
    refine ⟨hcoeff, not_lt.mp hplaces, hscale, h.nearest_self (by simpa using hdown), .inr ?_⟩
    exact hfull.imp_right fun hlong => by dsimp only; omega
  | case6 coeff remainder scale inexact hrest inexact' digits hsome next rest scale' hfits ih =>
    exact ih (h.next digits) hfits (by omega)
  | case7 coeff remainder scale inexact hrest inexact' digits hsome next rest scale' hlong =>
    exact (h.next digits).comes_shorten (not_lt.mp hlong)
      (fun hplaces => lt_of_group h rfl hsome hplaces) (by omega)

section Zeros

/-- A quotient is another one with zeros at its end. -/
def Quotient.Extends (q q' : Quotient) : Prop :=
  ∃ zeros : Nat, q.coeff = q'.coeff * 10 ^ zeros ∧ q.scale = q'.scale + zeros ∧
    (0 ≤ q.scale → 0 ≤ q'.scale)

theorem Quotient.Extends.trans {q'' : Quotient} (h : q.Extends q') (h' : q'.Extends q'') :
    q.Extends q'' := by
  obtain ⟨zeros, hcoeff, hscale, hnonneg⟩ := h
  obtain ⟨zeros', hcoeff', hscale', hnonneg'⟩ := h'
  refine ⟨zeros' + zeros, ?_, ?_, hnonneg' ∘ hnonneg⟩
  · rw [hcoeff, hcoeff', pow_add, mul_assoc]
  · rw [hscale, hscale', Nat.cast_add, add_assoc]

theorem Quotient.extends_dropZeros (mask digits : Nat) (q : Quotient) :
    q.Extends (q.dropZeros mask digits) := by
  unfold dropZeros
  split
  · next hzeros =>
    simp only [Bool.and_eq_true, decide_eq_true_eq, beq_iff_eq] at hzeros
    refine ⟨digits, (Nat.div_mul_cancel (Nat.dvd_of_mod_eq_zero hzeros.2)).symm, ?_, fun _ => ?_⟩
    · dsimp only
      omega
    · dsimp only
      omega
  · exact ⟨0, by simp, by simp, id⟩

theorem Quotient.extends_dropTrailingZeros (q : Quotient) : q.Extends q.dropTrailingZeros :=
  (((((q.extends_dropZeros _ _).trans (extends_dropZeros _ _ _)).trans
    (extends_dropZeros _ _ _)).trans (extends_dropZeros _ _ _)).trans
      (extends_dropZeros _ _ _)).trans (extends_dropZeros _ _ _)

end Zeros

section Division

/-- A quantity is what a number is rounded to as a quotient: the number itself, or the nearest one
of as many digits as fit. -/
def IsQuotient (r : Decimal) (x : ℚ) : Prop :=
  ∃ places ≤ maxScale, ∃ n : ℤ, r.value = n / 10 ^ places ∧ n.natAbs < coeffBound ∧
    IsNearest n (x * 10 ^ places) ∧
      (x * 10 ^ places = n ∨ places = maxScale ∨ coeffBound ≤ 10 * (n.natAbs + 1))

/-- A number that has a quotient is in the range. -/
theorem IsQuotient.inRange (h : IsQuotient r x) : InRange x := by
  obtain ⟨places, -, n, -, hsize, hnearest, -⟩ := h
  have hten : (1 : ℚ) ≤ 10 ^ places := one_le_pow₀ (by norm_num)
  have hwhole : |x| ≤ |x * 10 ^ places| := by
    rw [abs_mul, abs_of_nonneg (by positivity : (0 : ℚ) ≤ 10 ^ places)]
    exact le_mul_of_one_le_right (abs_nonneg x) hten
  refine hwhole.trans_lt (abs_lt.mpr ⟨?_, ?_⟩)
  · have hlt := hnearest.neg.lt_of_lt_even even_coeffBound (by omega)
    push_cast at hlt
    linarith
  · have hlt := hnearest.lt_of_lt_even even_coeffBound (by omega)
    push_cast at hlt
    linarith

/-- The sign of a quantity, and its size. -/
theorem value_eq_sign_mul : d.value = (if d.minus then -1 else 1) * (d.digits / 10 ^ d.scale) := by
  rw [value, coeff]
  split
  · push_cast
    ring
  · push_cast
    ring

/-- A rounded size is a quantity with each sign. -/
theorem Quotient.Rounds.exists_ofParts? (h : q.Rounds x) (hzeros : q.Extends q') (minus : Bool) :
    ∃ r, ofParts? (if minus then -(q'.coeff : ℤ) else q'.coeff) q'.scale.toNat = some r ∧
      IsQuotient r ((if minus then -1 else 1) * x) := by
  obtain ⟨zeros, hcoeff, hscale, hnonneg⟩ := hzeros
  have hten : (0 : Nat) < 10 ^ zeros := Nat.pow_pos (by norm_num)
  have hsmaller : q'.coeff ≤ q.coeff := hcoeff ▸ Nat.le_mul_of_pos_right _ hten
  have hplaces : q'.scale = q'.scale.toNat := (Int.toNat_of_nonneg (hnonneg h.scale_nonneg)).symm
  have hscale_le := h.scale_le
  obtain ⟨places, hq⟩ := Int.eq_ofNat_of_zero_le h.scale_nonneg
  have hq' : places = q'.scale.toNat + zeros := by omega
  have hsigned : (if minus then -(q'.coeff : ℤ) else q'.coeff) =
      (if minus then -1 else 1) * q'.coeff := by
    cases minus <;> simp
  have hsize : (if minus then -(q'.coeff : ℤ) else q'.coeff).natAbs = q'.coeff := by
    cases minus <;> simp
  obtain ⟨r, hr⟩ := Option.isSome_iff_exists.mp (ofParts?_isSome_iff.mpr
    ⟨hsize ▸ hsmaller.trans_lt h.coeff_lt, (by omega : q'.scale.toNat ≤ maxScale)⟩)
  obtain ⟨hrcoeff, hrscale⟩ := ofParts?_eq_some hr
  refine ⟨r, hr, places, by omega, (if minus then -1 else 1) * q.coeff, ?_, ?_, ?_, ?_⟩
  · rw [value, hrcoeff, hrscale, hsigned, hcoeff, hq', pow_add]
    push_cast
    field_simp
  · cases minus <;> simpa using h.coeff_lt
  · have hnearest := h.nearest
    rw [hq, zpow_natCast] at hnearest
    cases minus
    · simpa using hnearest
    · simpa using hnearest.neg
  · have hfull := h.full
    rw [hq, zpow_natCast] at hfull
    refine hfull.imp (fun hexact => ?_) (Or.imp (fun hlast => by omega) fun hlong => ?_)
    · rw [mul_assoc, hexact]
      push_cast
      rfl
    · cases minus <;> simpa using hlong

/-- A division by a number that is not zero gives the quotient, or overflows if it does not fit. -/
theorem div_cases (he : e.value ≠ 0) :
    (∃ r, d.div e = .ok r ∧ IsQuotient r (d.value / e.value)) ∨
      ¬ InRange (d.value / e.value) ∧ d.div e = .error .division := by
  have hezero : e.isZero = false := by
    rwa [Ne, value_eq_zero_iff, Bool.not_eq_true] at he
  unfold div
  rw [hezero, Bool.or_false]
  split
  · next hzero =>
    refine .inl ⟨zero, rfl, 0, Nat.zero_le _, 0, ?_⟩
    rw [value_eq_zero_iff.mpr hzero]
    exact ⟨by simp [value, coeff, zero], by decide +kernel, by simp [IsNearest], .inl (by simp)⟩
  · have hpos : 0 < e.digits := Nat.pos_of_ne_zero fun hzero => by simp [isZero, hzero] at hezero
    let size : ℚ := (d.digits / 10 ^ d.scale) / (e.digits / 10 ^ e.scale)
    have hsign : d.value / e.value = (if (d.minus != e.minus) = true then -1 else 1) * size := by
      rw [value_eq_sign_mul, value_eq_sign_mul]
      cases d.minus <;> cases e.minus <;> simp [size, neg_div, div_neg]
    have hdivides : Divides size e.digits (d.digits / e.digits) (d.digits % e.digits)
        ((d.scale : ℤ) - e.scale) := by
      refine ⟨?_, Nat.mod_lt _ hpos⟩
      rw [← natCast_div_eq _ hpos, zpow_sub₀ (by norm_num), zpow_natCast, zpow_natCast]
      simp only [size]
      field_simp
    have hcoeff : d.digits / e.digits < coeffBound := (Nat.div_le_self _ _).trans_lt d.digits_lt
    have hscale : (d.scale : ℤ) - e.scale ≤ maxScale := by
      have := d.scale_le
      omega
    have hcomes : Comes size (extend e.digits _ _ _ false) := hdivides.comes hcoeff hscale
    dsimp only
    split
    · next o ho =>
      rw [ho] at hcomes
      obtain ⟨rfl, hlarge⟩ := hcomes
      refine .inr ⟨fun hrange => ?_, rfl⟩
      have hsize : |d.value / e.value| = |size| := by
        rw [hsign, abs_mul]
        split <;> simp
      rw [InRange, hsize] at hrange
      linarith [le_abs_self size]
    · next q hq =>
      rw [hq] at hcomes
      have hzeros : q.Extends (if q.inexact = true then q.dropTrailingZeros else q) := by
        split
        · exact q.extends_dropTrailingZeros
        · exact ⟨0, by simp, by simp, id⟩
      obtain ⟨r, hr, hquotient⟩ := hcomes.exists_ofParts? hzeros (d.minus != e.minus)
      rw [hr, hsign]
      exact .inl ⟨r, rfl, hquotient⟩

/-- A quotient is at most half a unit away from the number. -/
theorem IsQuotient.abs_sub_value_le (h : IsQuotient r x) : |x - r.value| ≤ 1 / 2 := by
  obtain ⟨places, -, n, hvalue, -, hnearest, -⟩ := h
  have hten : (1 : ℚ) ≤ 10 ^ places := one_le_pow₀ (by norm_num)
  have hunits : x * 10 ^ places - n = (x - r.value) * 10 ^ places := by
    rw [hvalue, sub_mul, div_mul_cancel₀ _ (by positivity)]
  refine le_trans ?_ hnearest.1
  rw [hunits, abs_mul, abs_of_nonneg (by positivity : (0 : ℚ) ≤ 10 ^ places)]
  exact le_mul_of_one_le_right (abs_nonneg _) hten

/-- A number of at most 28 digits with at most 28 places is its own quotient. -/
theorem IsQuotient.value_eq (h : IsQuotient r x) {n : ℤ} {places : Nat}
    (hplaces : places ≤ maxScale) (hx : x = n / 10 ^ places) (hsize : n.natAbs < 10 ^ 28) :
    r.value = x := by
  obtain ⟨places', hplaces', n', hvalue, -, hnearest, hfull⟩ := h
  suffices hexact : x * 10 ^ places' = n' by
    rw [hvalue, ← hexact, mul_div_cancel_right₀ _ (by positivity)]
  -- With as many places as the number has, its units are counted exactly.
  have hlonger : places ≤ places' → x * 10 ^ places' = n' := fun hle => by
    obtain ⟨more, rfl⟩ := Nat.exists_eq_add_of_le hle
    have hwhole : x * 10 ^ (places + more) = ((n * 10 ^ more : Int) : ℚ) := by
      rw [hx, pow_add, ← mul_assoc, div_mul_cancel₀ _ (by positivity)]
      push_cast
      rfl
    rw [hwhole] at hnearest ⊢
    rw [hnearest.eq_of_intCast]
  rcases hfull with hexact | rfl | hfull
  · exact hexact
  · exact hlonger hplaces
  · refine hlonger (not_lt.mp fun hlt => ?_)
    obtain ⟨more, rfl⟩ := Nat.exists_eq_add_of_lt hlt
    have hunits : |x * 10 ^ places'| * 10 ≤ n.natAbs := by
      have hn : (n : ℚ) = x * 10 ^ places' * 10 ^ (more + 1) := by
        rw [hx]
        field_simp
        ring
      rw [Nat.cast_natAbs, Int.cast_abs, hn, abs_mul (x * 10 ^ places'),
        abs_of_nonneg (by positivity : (0 : ℚ) ≤ 10 ^ (more + 1))]
      refine mul_le_mul_of_nonneg_left ?_ (abs_nonneg _)
      exact le_self_pow₀ (by norm_num) (Nat.succ_ne_zero more)
    have hn' : (n'.natAbs : ℚ) ≤ |x * 10 ^ places'| + 1 / 2 := by
      rw [Nat.cast_natAbs, Int.cast_abs]
      have htriangle := abs_sub_abs_le_abs_sub (n' : ℚ) (x * 10 ^ places')
      rw [abs_sub_comm] at htriangle
      linarith [hnearest.1]
    have hlong : (10 : ℚ) ^ 27 + 1 ≤ n'.natAbs := by
      exact_mod_cast (by unfold coeffBound at hfull; omega : 10 ^ 27 + 1 ≤ n'.natAbs)
    have hshort : (n.natAbs : ℚ) < 10 ^ 28 := by exact_mod_cast hsize
    linarith

theorem exists_div_iff (he : e.value ≠ 0) :
    (∃ r, d.div e = .ok r) ↔ InRange (d.value / e.value) := by
  rcases div_cases (d := d) he with ⟨r, hr, hquotient⟩ | ⟨hlarge, hover⟩
  · exact iff_of_true ⟨r, hr⟩ hquotient.inRange
  · exact iff_of_false (by rw [hover]; rintro ⟨_, ⟨⟩⟩) hlarge

theorem div_eq_ok (he : e.value ≠ 0) (h : d.div e = .ok r) :
    IsQuotient r (d.value / e.value) := by
  rcases div_cases (d := d) he with ⟨r', hr', hquotient⟩ | ⟨-, hover⟩
  · cases h.symm.trans hr'
    exact hquotient
  · cases h.symm.trans hover

end Division

end Recount.Decimal
