import Recount.Decimal.Numeral
import Recount.Proofs.Decimal.Value

/-!
# What a numeral denotes

The numeral of a quantity is read back as a quantity of the same number. So nothing of a
quantity is lost where its numeral takes its place.
-/

namespace Recount.Decimal

variable {d : Decimal} {n width scale : Nat} {digits rest : List Char}

section Reading

/-- More digits make no smaller number. -/
theorem le_ofDigitChars (digits : List Char) (coeff : Nat) :
    coeff ≤ Nat.ofDigitChars 10 digits coeff := by
  induction digits generalizing coeff with
  | nil => exact Nat.le_refl coeff
  | cons c digits ih =>
    rw [Nat.ofDigitChars_cons]
    have hmore := ih (10 * coeff + (c.toNat - '0'.toNat))
    omega

theorem digit?_of_isDigit {c : Char} (hc : c.isDigit = true) : digit? c = some (c.toNat - 48) := by
  simp [digit?, hc]

/-- Digits that fit are read one after the other, before the point or after it. -/
theorem Reading.finish_digits (rest : List Char) (coeff scale : Nat) (inPlaces hasDigit : Bool)
    (hdigits : ∀ c ∈ digits, c.isDigit = true)
    (hcoeff : Nat.ofDigitChars 10 digits coeff < coeffBound)
    (hscale : if inPlaces then scale + digits.length ≤ maxScale else scale = 0) :
    Reading.finish ⟨coeff, scale, inPlaces, hasDigit⟩ (digits ++ rest) =
      Reading.finish ⟨Nat.ofDigitChars 10 digits coeff,
        if inPlaces then scale + digits.length else 0, inPlaces, hasDigit || !digits.isEmpty⟩
        rest := by
  induction digits generalizing coeff scale hasDigit with
  | nil =>
    cases inPlaces with
    | true => simp [Nat.ofDigitChars]
    | false =>
      have hzero : scale = 0 := by simpa using hscale
      simp [Nat.ofDigitChars, hzero]
  | cons c digits ih =>
    have hc := digit?_of_isDigit (hdigits c List.mem_cons_self)
    have hothers : ∀ c ∈ digits, c.isDigit = true := fun c hc =>
      hdigits c (List.mem_cons_of_mem _ hc)
    have hnext : Nat.ofDigitChars 10 (c :: digits) coeff =
        Nat.ofDigitChars 10 digits (coeff * 10 + (c.toNat - 48)) := by
      rw [Nat.ofDigitChars_cons, Nat.mul_comm]
      rfl
    rw [hnext] at hcoeff ⊢
    have hfits : ¬ coeffBound ≤ coeff * 10 + (c.toNat - 48) :=
      Nat.not_le_of_lt (Nat.lt_of_le_of_lt (le_ofDigitChars digits _) hcoeff)
    rw [List.cons_append, Reading.finish, hc]
    cases inPlaces with
    | true =>
      have hplaces : scale + (digits.length + 1) ≤ maxScale := by simpa using hscale
      have hroom : ¬ maxScale ≤ scale := by omega
      have hread := ih _ (scale + 1) true hothers hcoeff (by simp only [if_true]; omega)
      simp only [hfits, hroom, Bool.true_and, decide_false, Bool.or_self, if_false, if_true,
        Bool.false_eq_true, hread]
      simp [Nat.add_comm, Nat.add_left_comm]
    | false =>
      have hread := ih _ 0 true hothers hcoeff (by simp)
      simp only [hfits, Bool.false_and, if_false, Bool.false_eq_true, hread]
      simp

end Reading

section Padded

theorem isDigit_of_mem_padded {c : Char} (hc : c ∈ padded width n) : c.isDigit = true := by
  unfold padded at hc
  rcases List.mem_append.mp hc with hc | hc
  · rw [List.eq_of_mem_replicate hc]
    rfl
  · exact Nat.isDigit_of_mem_toDigits (by norm_num) (by norm_num) hc

theorem width_le_length_padded : width ≤ (padded width n).length := by
  unfold padded
  rw [List.length_append, List.length_replicate]
  omega

/-- Zeros before the digits of a number do not change it. -/
theorem ofDigitChars_padded : Nat.ofDigitChars 10 (padded width n) 0 = n := by
  have hzeros : ∀ k, Nat.ofDigitChars 10 (List.replicate k '0') 0 = 0 := by
    intro k
    induction k with
    | zero => rfl
    | succ k ih =>
      rw [List.replicate_succ, Nat.ofDigitChars_cons]
      exact ih
  unfold padded
  rw [Nat.ofDigitChars_append, hzeros, Nat.ofDigitChars_toDigits (by norm_num) (by norm_num)]

end Padded

/-- The digits of a quantity with their point are read as its coefficient and its scale. -/
theorem finish_toNumeral {whole places : List Char} (hwhole : whole ≠ [])
    (hdigits : whole ++ places = padded (scale + 1) n) (hplaces : places.length = scale)
    (hn : n < coeffBound) (hscale : scale ≤ maxScale) :
    Reading.finish {} (whole ++ if scale = 0 then [] else '.' :: places) = some (n, scale) := by
  have hall : ∀ c ∈ whole ++ places, c.isDigit = true := fun c hc =>
    isDigit_of_mem_padded (hdigits ▸ hc)
  have hvalue : Nat.ofDigitChars 10 places (Nat.ofDigitChars 10 whole 0) = n := by
    rw [← Nat.ofDigitChars_append, hdigits, ofDigitChars_padded]
  have hcoeff : Nat.ofDigitChars 10 whole 0 < coeffBound := by
    have hle := le_ofDigitChars places (Nat.ofDigitChars 10 whole 0)
    omega
  have hread := Reading.finish_digits (if scale = 0 then [] else '.' :: places) 0 0 false false
    (fun c hc => hall c (List.mem_append_left _ hc)) hcoeff (by simp)
  have hbegun : (false || !whole.isEmpty) = true := by simp [hwhole]
  rw [hbegun] at hread
  refine hread.trans ?_
  by_cases hzero : scale = 0
  · have hnil : places = [] := List.eq_nil_of_length_eq_zero (hplaces.trans hzero)
    rw [hnil] at hvalue
    subst hzero
    simpa [Reading.finish] using hvalue
  · have hrest := Reading.finish_digits [] _ 0 true true
      (fun c hc => hall c (List.mem_append_right _ hc)) (hvalue.trans_lt hn)
      (by simpa [hplaces] using hscale)
    rw [if_neg hzero, Reading.finish]
    simp only [digit?, if_false, Bool.false_eq_true, Char.isDigit]
    simpa [hvalue, hplaces, Reading.finish] using hrest

/-- A numeral that begins with a digit has no sign. -/
theorem ofNumeralChars_of_isDigit {c : Char} (hc : c.isDigit = true) :
    ofNumeralChars (c :: rest) = (Reading.finish {} (c :: rest)).bind fun (digits, scale) =>
      ofSign? false digits scale := by
  unfold ofNumeralChars
  split
  next minus unsigned hsign =>
    split at hsign
    · next heq =>
      cases heq
      cases hc
    · next heq =>
      cases heq
      cases hc
    · cases hsign
      rfl

/-- A numeral is read back as the quantity that it was written for, but that a zero loses its
minus. -/
theorem ofNumeral?_toNumeral :
    ofNumeral? d.toNumeral = ofSign? (d.minus && d.digits != 0) d.digits d.scale := by
  let digits := padded (d.scale + 1) d.digits
  let whole := digits.take (digits.length - d.scale)
  let places := digits.drop (digits.length - d.scale)
  have hlong : d.scale + 1 ≤ digits.length := width_le_length_padded
  have hwhole : whole ≠ [] := by
    refine List.ne_nil_of_length_pos ?_
    rw [List.length_take]
    omega
  have hplaces : places.length = d.scale := by
    rw [List.length_drop]
    omega
  have hread := finish_toNumeral hwhole (List.take_append_drop _ _) hplaces d.digits_lt d.scale_le
  unfold ofNumeral? toNumeral
  rw [String.toList_ofList]
  change ofNumeralChars ((if d.minus then ['-'] else []) ++ whole ++ _) = _
  cases hminus : d.minus with
  | true =>
    simp only [ofNumeralChars, if_true, List.cons_append, List.nil_append]
    rw [hread]
    rfl
  | false =>
    obtain ⟨c, others, hcons⟩ := List.exists_cons_of_ne_nil hwhole
    have hmem : c ∈ digits := List.mem_of_mem_take (hcons ▸ List.mem_cons_self : c ∈ whole)
    rw [hcons] at hread ⊢
    simp only [Bool.false_eq_true, if_false, List.nil_append, List.cons_append]
    rw [ofNumeralChars_of_isDigit (isDigit_of_mem_padded hmem), ← List.cons_append, hread]
    rfl

/-- The numeral of a quantity denotes its number. -/
theorem exists_ofNumeral?_toNumeral (d : Decimal) :
    ∃ e, ofNumeral? d.toNumeral = some e ∧ e.value = d.value := by
  rw [ofNumeral?_toNumeral]
  by_cases hzero : d.digits = 0
  · refine ⟨⟨false, d.digits, d.scale, d.digits_lt, d.scale_le⟩, ?_, ?_⟩
    · simp [ofSign?, hzero, d.scale_le, coeffBound]
    · simp [value, coeff, hzero]
  · have hsign : (d.minus && d.digits != 0) = d.minus := by simp [hzero]
    exact ⟨d, by rw [hsign, ofSign?_self], rfl⟩

/-- A numeral consists of digits, a point and a minus. -/
theorem of_mem_toNumeral {c : Char} (hc : c ∈ d.toNumeral.toList) :
    c.isDigit = true ∨ c = '.' ∨ c = '-' := by
  unfold toNumeral at hc
  rw [String.toList_ofList, List.append_assoc, List.mem_append, List.mem_append] at hc
  rcases hc with hc | hc | hc
  · split at hc
    · exact .inr (.inr (List.mem_singleton.mp hc))
    · exact absurd hc List.not_mem_nil
  · exact .inl (isDigit_of_mem_padded (List.mem_of_mem_take hc))
  · split at hc
    · exact absurd hc List.not_mem_nil
    · rcases List.mem_cons.mp hc with hc | hc
      · exact .inr (.inl hc)
      · exact .inl (isDigit_of_mem_padded (List.mem_of_mem_drop hc))

theorem toNumeral_ne_empty : d.toNumeral ≠ "" := by
  intro hempty
  obtain ⟨e, he, -⟩ := exists_ofNumeral?_toNumeral d
  rw [hempty] at he
  cases he

section Whole

/-- Zeros at the end of the decimal places are given up together with their places. -/
theorem stripZeros_div (coeff : Int) (scale : Nat) :
    ((stripZeros coeff scale).1 : ℚ) / 10 ^ (stripZeros coeff scale).2 = coeff / 10 ^ scale := by
  induction scale generalizing coeff with
  | zero => rfl
  | succ scale ih =>
    unfold stripZeros
    split
    · next hdvd =>
      have hmod : coeff % 10 = 0 := by simpa using hdvd
      obtain ⟨tenth, rfl⟩ := Int.dvd_of_emod_eq_zero hmod
      rw [ih, Int.mul_ediv_cancel_left _ (by norm_num), pow_succ]
      push_cast
      rw [mul_comm (10 : ℚ), mul_div_mul_right _ _ (by norm_num)]
    · rfl

/-- A quantity without zeros at the end denotes the same number. -/
theorem normalize_value : d.normalize.value = d.value := by
  unfold normalize
  dsimp only
  cases hparts : ofParts? (stripZeros d.coeff d.scale).1 (stripZeros d.coeff d.scale).2 with
  | none => rfl
  | some e =>
    obtain ⟨hcoeff, hscale⟩ := ofParts?_eq_some hparts
    rw [Option.getD_some, value, hcoeff, hscale, stripZeros_div, value]

/-- The integer that a quantity is has its value. -/
theorem value_of_toInt? {k : Int} (h : d.toInt? = some k) : d.value = k := by
  unfold toInt? at h
  split at h
  · next hdvd =>
    cases h
    have hmod : d.coeff % 10 ^ d.scale = 0 := by simpa using hdvd
    have hpow : (10 : ℚ) ^ d.scale ≠ 0 := pow_ne_zero _ (by norm_num)
    rw [value, div_eq_iff hpow]
    exact_mod_cast (Int.ediv_mul_cancel (Int.dvd_of_emod_eq_zero hmod)).symm
  · cases h

end Whole
end Recount.Decimal
