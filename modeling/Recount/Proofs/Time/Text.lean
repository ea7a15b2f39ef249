import Mathlib.Tactic.SplitIfs
import Recount.Proofs.Decimal.Numeral
import Recount.Proofs.Text.Trim
import Recount.Time

/-!
# Points in time and their texts

The text of a point in time is read back as the point in time.
-/

/-! ## The calendar

Every day has a date on the calendar, from which it is counted again. -/

namespace Recount.Time.Date

variable {days : Int}

/-- The year of a day in its era, counted from March. A year with 366 days ends with the 29th of
February of the next year. -/
theorem yearOfEra_spec {day year : Int} (hfirst : 0 ≤ day) (hlast : day < 146097)
    (hyear : year = (day - day / 1460 + day / 36524 - day / 146096) / 365) :
    0 ≤ year ∧ year ≤ 399 ∧ 365 * year + year / 4 - year / 100 ≤ day ∧
      day ≤ 365 * year + year / 4 - year / 100 + 365 ∧
      (day = 365 * year + year / 4 - year / 100 + 365 →
        (year + 1) % 4 = 0 ∧ ((year + 1) % 100 ≠ 0 ∨ (year + 1) % 400 = 0)) := by
  rcases (by omega : day = 146096 ∨ day / 146096 = 0) with hday | hday
  · subst hday
    omega
  · obtain ⟨century, hcentury⟩ : ∃ century, day / 36524 = century := ⟨_, rfl⟩
    rw [hcentury, hday] at hyear
    have hyears : year / 100 = century := by
      rcases (by omega : century = 0 ∨ century = 1 ∨ century = 2 ∨ century = 3) with
        rfl | rfl | rfl | rfl <;> omega
    -- only a fourth year has a day more
    have hfourth : day = 365 * year + year / 4 - year / 100 + 365 → year % 4 = 3 := by
      rcases (by omega : year % 4 = 0 ∨ year % 4 = 1 ∨ year % 4 = 2 ∨ year % 4 = 3) with
        h | h | h | h <;> omega
    omega

/-- The parts of a date: the era, the year in it, the day in the year and the month, all of them
counted from March. -/
theorem exists_parts (days : Int) : ∃ era year day month : Int,
    days + 719468 = era * 146097 + (365 * year + year / 4 - year / 100 + day) ∧
      0 ≤ year ∧ year ≤ 399 ∧ 0 ≤ day ∧ day ≤ 365 ∧
      (day = 365 → (year + 1) % 4 = 0 ∧ ((year + 1) % 100 ≠ 0 ∨ (year + 1) % 400 = 0)) ∧
      month = (5 * day + 2) / 153 ∧
      ofDays days = if month < 10
        then ⟨year + era * 400, (month + 3).toNat, (day - (153 * month + 2) / 5 + 1).toNat⟩
        else ⟨year + era * 400 + 1, (month - 9).toNat, (day - (153 * month + 2) / 5 + 1).toNat⟩ := by
  let era := (days + 719468) / 146097
  let dayOfEra := days + 719468 - era * 146097
  let year := (dayOfEra - dayOfEra / 1460 + dayOfEra / 36524 - dayOfEra / 146096) / 365
  let day := dayOfEra - (365 * year + year / 4 - year / 100)
  let month := (5 * day + 2) / 153
  obtain ⟨hfirst, hlast, hstart, hend, hleap⟩ :=
    yearOfEra_spec (by omega : 0 ≤ dayOfEra) (by omega) (Eq.refl year)
  have hmonths : 0 ≤ month ∧ month ≤ 11 := by omega
  have hdate : ofDays days =
      ⟨if (if month < 10 then month + 3 else month - 9) ≤ 2 then year + era * 400 + 1
          else year + era * 400,
        (if month < 10 then month + 3 else month - 9).toNat,
        (day - (153 * month + 2) / 5 + 1).toNat⟩ := rfl
  refine ⟨era, year, day, month, by omega, hfirst, hlast, by omega, by omega,
    fun hday => hleap (by omega), rfl, ?_⟩
  clear_value month
  rw [hdate]
  by_cases hmonth : month < 10
  · simp only [if_pos hmonth]
    rw [if_neg (by omega)]
  · simp only [if_neg hmonth]
    rw [if_pos (by omega)]

/-- A day is counted again from its date. -/
theorem toDays_ofDays : (ofDays days).toDays = days := by
  obtain ⟨era, year, day, month, hdays, hfirst, hlast, hday, hday', -, hmonth, hdate⟩ :=
    exists_parts days
  rw [hdate]
  split
  · simp only [toDays]
    rw [if_neg (by omega), if_pos (by omega)]
    omega
  · simp only [toDays]
    rw [if_pos (by omega), if_neg (by omega)]
    omega

theorem isLeap_iff {year : Int} :
    isLeap year = true ↔ year % 4 = 0 ∧ (year % 100 ≠ 0 ∨ year % 400 = 0) := by
  simp [isLeap]

/-- Every day has a date on the calendar. -/
theorem isValid_ofDays : (ofDays days).isValid = true := by
  obtain ⟨era, year, day, month, -, -, -, hday, hday', hleap, hmonth, hdate⟩ := exists_parts days
  have hfull : day = 365 → isLeap (year + era * 400 + 1) = true := by
    intro h
    obtain ⟨hfour, hhundred⟩ := hleap h
    rw [isLeap_iff]
    omega
  rw [hdate]
  split
  · simp only [isValid, daysIn, Bool.and_eq_true, decide_eq_true_eq, Bool.or_eq_true]
    split_ifs <;> omega
  · simp only [isValid, daysIn, Bool.and_eq_true, decide_eq_true_eq, Bool.or_eq_true]
    by_cases hlong : isLeap (year + era * 400 + 1) = true
    · split_ifs <;> omega
    · have hshort : day ≠ 365 := fun h => hlong (hfull h)
      split_ifs <;> omega

end Recount.Time.Date

/-! ## Texts -/

namespace Recount

/-- There is such a point in time: its day is within the bounds, and only the last second of a
minute is followed by a leap second. -/
structure Time.InBounds (t : Time) : Prop where
  day : Time.isDay (t.seconds / 86400) = true
  nanos : t.nanos < 1000000000 ∨ t.nanos < 2000000000 ∧ t.seconds % 60 = 59

namespace Time

/-- The beginning of 1970 is a point in time. -/
theorem inBounds_default : (default : Time).InBounds := ⟨by decide, by decide⟩

open Decimal Text

variable {digits rest : List Char} {most n width : Nat} {c : Char}

section Digits

theorem foldl_digits (before : Nat) :
    digits.foldl (fun n c => n * 10 + (c.toNat - 48)) before = Nat.ofDigitChars 10 digits before := by
  simp only [Nat.ofDigitChars, Nat.mul_comm 10]
  rfl

/-- All of the digits are read, if nothing or no digit follows, or no more may be read. -/
theorem digits?_append (hne : digits ≠ []) (hdigits : ∀ c ∈ digits, c.isDigit = true)
    (hmost : digits.length = most ∨ digits.length ≤ most ∧ ∀ c ∈ rest.head?, c.isDigit = false) :
    digits? most (digits ++ rest) = some (Nat.ofDigitChars 10 digits 0, rest) := by
  have hend : (rest.take (most - digits.length)).takeWhile Char.isDigit = [] := by
    rcases hmost with hmost | ⟨-, hrest⟩
    · rw [hmost, Nat.sub_self, List.take_zero]
      rfl
    · cases rest with
      | nil => rw [List.take_nil]; rfl
      | cons c rest =>
        cases most - digits.length with
        | zero => rfl
        | succ k =>
          rw [List.take_succ_cons, List.takeWhile_cons_of_neg]
          exact Bool.eq_false_iff.mp (hrest c rfl)
  have hlength : digits.length ≤ most := hmost.elim Nat.le_of_eq And.left
  have hread : ((digits ++ rest).take most).takeWhile Char.isDigit = digits := by
    rw [List.take_append, List.take_of_length_le hlength, List.takeWhile_append_of_pos hdigits, hend,
      List.append_nil]
  simp only [digits?, hread, foldl_digits, List.isEmpty_eq_false_iff.mpr hne, List.drop_left,
    Bool.false_eq_true, if_false]

/-- Zeros at the end of a number multiply it. -/
theorem ofDigitChars_zeros (count before : Nat) :
    Nat.ofDigitChars 10 (List.replicate count '0') before = before * 10 ^ count := by
  induction count generalizing before with
  | zero => exact (Nat.mul_one before).symm
  | succ count ih =>
    rw [List.replicate_succ, Nat.ofDigitChars_cons, ih, pow_succ]
    simp [Nat.mul_assoc, Nat.mul_comm 10]

theorem padded_ne_nil : padded (width + 1) n ≠ [] := by
  have hlong : width + 1 ≤ (padded (width + 1) n).length := width_le_length_padded
  exact List.ne_nil_of_length_pos (by omega)

/-- A number has as many places as it is given, unless it needs more. -/
theorem length_padded (hn : n < 10 ^ (width + 1)) : (padded (width + 1) n).length = width + 1 := by
  have hdigits : (Nat.toDigits 10 n).length ≤ width + 1 :=
    Nat.toDigits_length 10 n _ (Nat.succ_pos width) hn
  unfold padded
  rw [List.length_append, List.length_replicate]
  omega

theorem dropWhile_isBlank (hc : isBlank c = false) : (c :: rest).dropWhile isBlank = c :: rest :=
  List.dropWhile_cons_of_neg (by simp [hc])

theorem dropWhile_isBlank_padded :
    (padded (width + 1) n ++ rest).dropWhile isBlank = padded (width + 1) n ++ rest := by
  obtain ⟨c, others, hcons⟩ := List.exists_cons_of_ne_nil (padded_ne_nil : padded (width + 1) n ≠ [])
  have hc : c ∈ padded (width + 1) n := hcons ▸ List.mem_cons_self
  rw [hcons, List.cons_append, dropWhile_isBlank (isBlank_of_isDigit (isDigit_of_mem_padded hc))]

/-- Two digits are read. -/
theorem number?_twoDigits (hn : n < 100) : number? 2 (twoDigits n ++ rest) = some (n, rest) := by
  rw [number?, twoDigits, dropWhile_isBlank_padded,
    digits?_append padded_ne_nil (fun _ => isDigit_of_mem_padded) (.inl (length_padded hn)),
    ofDigitChars_padded]

theorem mark?_cons (hc : isBlank c = false) : mark? c (c :: rest) = some rest := by
  rw [mark?, dropWhile_isBlank hc]
  simp

end Digits

/-- A year is read with its sign, or by its four digits. -/
theorem year?_yearText {year : Int} : year? (yearText year ++ '-' :: rest) = some (year, '-' :: rest) := by
  have hsigned : digits? (padded 4 year.natAbs ++ '-' :: rest).length
      (padded 4 year.natAbs ++ '-' :: rest) = some (year.natAbs, '-' :: rest) := by
    rw [digits?_append padded_ne_nil (fun _ => isDigit_of_mem_padded), ofDigitChars_padded]
    refine .inr ⟨by simp, fun c hc => ?_⟩
    cases hc
    decide
  by_cases hnegative : year < 0
  · simp only [yearText, if_pos hnegative, List.cons_append, year?]
    rw [dropWhile_isBlank (by decide)]
    simp only [hsigned, Option.map_some]
    rw [show (-(year.natAbs : Int)) = year by omega]
  · by_cases hlong : 9999 < year
    · simp only [yearText, if_neg hnegative, if_pos hlong, List.cons_append, year?]
      rw [dropWhile_isBlank (by decide)]
      simp only [hsigned, Option.map_some]
      rw [show (year.natAbs : Int) = year by omega]
    · have hfour : digits? 4 (padded 4 year.natAbs ++ '-' :: rest) =
          some (year.natAbs, '-' :: rest) := by
        rw [digits?_append padded_ne_nil (fun _ => isDigit_of_mem_padded)
          (.inl (length_padded (by omega))), ofDigitChars_padded]
      obtain ⟨c, others, hcons⟩ :=
        List.exists_cons_of_ne_nil (padded_ne_nil : padded 4 year.natAbs ≠ [])
      have hc : c.isDigit = true := isDigit_of_mem_padded (hcons ▸ List.mem_cons_self)
      simp only [yearText, if_neg hnegative, if_neg hlong, year?]
      rw [dropWhile_isBlank_padded]
      rw [hcons, List.cons_append] at hfour ⊢
      split
      · next heq =>
        cases heq
        cases hc
      · next heq =>
        cases heq
        cases hc
      · rw [hfour, Option.map_some, show (year.natAbs : Int) = year by omega]

/-- The places of a second are read as its nanoseconds. -/
theorem fraction?_places {nanos : Nat} (hnanos : nanos < 1000000000) :
    fraction? (places nanos ++ ['Z']) = some (nanos, ['Z']) := by
  have hgroups : ∀ places n, places < 9 → n < 10 ^ (places + 1) →
      fraction? ('.' :: padded (places + 1) n ++ ['Z']) = some (n * 10 ^ (9 - (places + 1)), ['Z']) := by
    intro places n hplaces hn
    have hdigits : (padded (places + 1) n ++ ['Z']).takeWhile Char.isDigit = padded (places + 1) n := by
      rw [List.takeWhile_append_of_pos fun _ => isDigit_of_mem_padded]
      exact List.append_nil _
    have hlength : (padded (places + 1) n).length = places + 1 := length_padded hn
    have hnine : (padded (places + 1) n ++ List.replicate 9 '0').take 9 =
        padded (places + 1) n ++ List.replicate (9 - (places + 1)) '0' := by
      rw [List.take_append, List.take_of_length_le (by omega), hlength, List.take_replicate]
      congr 2
      omega
    simp only [List.cons_append, fraction?, hdigits, List.isEmpty_eq_false_iff.mpr padded_ne_nil,
      Bool.false_eq_true, if_false, hnine, foldl_digits, Nat.ofDigitChars_append, ofDigitChars_padded,
      ofDigitChars_zeros, List.drop_left]
  unfold places
  split_ifs with hzero hthree hsix
  · rw [hzero]
    rfl
  · rw [hgroups 2 _ (by decide) (by omega)]
    congr 2
    omega
  · rw [hgroups 5 _ (by decide) (by omega)]
    congr 2
    omega
  · rw [hgroups 8 _ (by decide) (by omega)]
    congr 2
    omega

/-- A date and a time of day are read from their parts. The second after the 59th is a leap second. -/
theorem parse?_parts {date : Date} {hour minute second nanos : Nat} (hvalid : date.isValid = true)
    (hday : isDay date.toDays = true) (hhour : hour < 24) (hminute : minute < 60)
    (hsecond : second ≤ 60) (hnanos : nanos < 1000000000) :
    parse? (String.ofList (yearText date.year ++ '-' :: twoDigits date.month ++
      '-' :: twoDigits date.day ++ 'T' :: twoDigits hour ++ ':' :: twoDigits minute ++
      ':' :: twoDigits second ++ places nanos ++ ['Z'])) =
      some ⟨date.toDays * 86400 + (hour * 3600 + minute * 60 + min second 59 : Nat),
        if second = 60 then nanos + 1000000000 else nanos⟩ := by
  have hdate : date.month < 100 ∧ date.day < 100 := by
    have hbound : daysIn date.year date.month ≤ 31 := by
      unfold daysIn
      split_ifs <;> omega
    simp only [Date.isValid, Bool.and_eq_true, decide_eq_true_eq] at hvalid
    omega
  have hdays : (date.toDays * 86400 + (hour * 3600 + minute * 60 + min second 59 : Nat) - 0) / 86400 =
      date.toDays := by omega
  have hzone : zone? (['Z'].dropWhile isBlank) = some (0, []) := by decide
  -- the parts are read one after the other
  simp only [List.append_assoc, List.cons_append]
  rw [parse?, String.toList_ofList, year?_yearText]
  dsimp only [bind, Option.bind]
  rw [mark?_cons (by decide)]
  dsimp only
  rw [number?_twoDigits hdate.1]
  dsimp only
  rw [mark?_cons (by decide)]
  dsimp only
  rw [number?_twoDigits hdate.2]
  dsimp only
  rw [if_pos (by decide), number?_twoDigits (by omega)]
  dsimp only
  rw [mark?_cons (by decide)]
  dsimp only
  rw [number?_twoDigits (by omega)]
  dsimp only
  rw [mark?_cons (by decide)]
  dsimp only
  rw [number?_twoDigits (by omega)]
  dsimp only
  rw [fraction?_places hnanos]
  dsimp only
  rw [hzone]
  change (if (!true || !date.isValid) = true then none else _) = _
  rw [hvalid, if_neg (by decide), if_neg (by simp; omega)]
  change (if (!isDay date.toDays || !isDay (_ / 86400)) = true then none else _) = _
  rw [hdays, hday, if_neg (by decide), Int.sub_zero]

variable {t : Time}

/-- The text of a point in time is read back. -/
theorem InBounds.parse?_text (ht : t.InBounds) : parse? t.text = some t := by
  obtain ⟨seconds, nanos⟩ := t
  obtain ⟨hday, hnanos⟩ := ht
  dsimp only at hday hnanos
  have hdays : (Date.ofDays (seconds / 86400)).toDays = seconds / 86400 := Date.toDays_ofDays
  rw [← hdays] at hday
  unfold text
  dsimp only
  by_cases hleap : 1000000000 ≤ nanos
  · rw [if_pos hleap, if_pos hleap,
      parse?_parts Date.isValid_ofDays hday (by omega) (by omega) (by omega) (by omega), hdays,
      if_pos (by omega)]
    congr 2 <;> omega
  · rw [if_neg hleap, if_neg hleap,
      parse?_parts Date.isValid_ofDays hday (by omega) (by omega) (by omega) (by omega), hdays,
      if_neg (by omega)]
    congr 2
    omega

end Time
end Recount
