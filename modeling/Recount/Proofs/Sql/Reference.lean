import Mathlib
import Recount.Proofs.Text.Trim
import Recount.Sql.Alias

/-!
# How references are read

A text that joins identifiers by points is read from the left. A reference in it is a run of
at least two parts none of which begins with a digit, and it is rewritten as a whole; a part
that begins with a digit ends it. What stands around the references is kept as it is.
-/

namespace Recount.Sql

/-- A part of a reference is an identifier or a star. -/
def IsPart (part : List Char) : Prop := isIdentifier part = true ∨ part = ['*']

/-- A part that a reference may have: a star, or a name that does not begin with a digit. -/
def startsPart (part : List Char) : Bool := part == ['*'] || part.head?.any Aliases.startsName

/-- Parts with a point before each. -/
def dotted (parts : List (List Char)) : List Char := parts.flatMap ('.' :: ·)

variable {a : Aliases} {c : Char} {cs part first second third : List Char}
  {parts : List (List Char)}

theorem isIdentifier_iff : isIdentifier part = true ↔ part ≠ [] ∧ ∀ c ∈ part, Text.isAsciiWord c = true := by
  simp [isIdentifier]

theorem not_isAsciiWord_dot : Text.isAsciiWord '.' = false := by decide

theorem isWord_of_isAsciiWord (h : Text.isAsciiWord c = true) : Text.isWord c = true := by
  unfold Text.isWord
  split
  · exact h
  · next hlarge =>
    refine absurd ?_ hlarge
    simp only [Text.isAsciiWord, Char.isAlphanum, Char.isAlpha, Char.isUpper, Char.isLower,
      Char.isDigit, Bool.or_eq_true, Bool.and_eq_true, decide_eq_true_eq, beq_iff_eq] at h
    rcases h with ((⟨-, h⟩ | ⟨-, h⟩) | ⟨-, h⟩) | rfl
    · exact Nat.lt_of_le_of_lt (UInt32.le_iff_toNat_le.mp h) (by decide)
    · exact Nat.lt_of_le_of_lt (UInt32.le_iff_toNat_le.mp h) (by decide)
    · exact Nat.lt_of_le_of_lt (UInt32.le_iff_toNat_le.mp h) (by decide)
    · decide

theorem takeWhile_dotted (hpart : ∀ c ∈ part, Text.isAsciiWord c = true) :
    (part ++ dotted parts).takeWhile Text.isAsciiWord = part ∧
      (part ++ dotted parts).dropWhile Text.isAsciiWord = dotted parts := by
  rw [List.takeWhile_append_of_pos hpart, List.dropWhile_append_of_pos hpart]
  cases parts with
  | nil => simp [dotted]
  | cons p parts => simp [dotted, not_isAsciiWord_dot]

theorem length_le_length_dotted : parts.length ≤ (dotted parts).length := by
  induction parts with
  | nil => exact Nat.le_refl 0
  | cons p parts ih =>
    simp only [dotted, List.flatMap_cons, List.length_append, List.length_cons] at ih ⊢
    omega

theorem joinParts_cons : Aliases.joinParts (part :: parts) = part ++ dotted parts := by
  induction parts generalizing part with
  | nil => simp [Aliases.joinParts, dotted, List.intercalate]
  | cons p parts ih =>
    have hcons : Aliases.joinParts (part :: p :: parts) = part ++ '.' :: Aliases.joinParts (p :: parts) := by
      simp [Aliases.joinParts, List.intercalate]
    rw [hcons, ih]
    rfl

theorem ne_star_of_isIdentifier (h : isIdentifier (c :: cs) = true) : c ≠ '*' := by
  rintro rfl
  exact absurd ((isIdentifier_iff.mp h).2 '*' List.mem_cons_self) (by decide)

theorem startsPart_cons (h : isIdentifier (c :: cs) = true) :
    startsPart (c :: cs) = Aliases.startsName c := by
  simp [startsPart, ne_star_of_isIdentifier h]

/-- The parts after the first one are read up to one that begins with a digit. -/
theorem moreParts_dotted {fuel : Nat} (hparts : ∀ part ∈ parts, IsPart part)
    (hfuel : parts.length ≤ fuel) :
    Aliases.moreParts fuel (dotted parts) = parts.takeWhile startsPart := by
  induction parts generalizing fuel with
  | nil => cases fuel <;> rfl
  | cons part parts ih =>
    cases fuel with
    | zero => exact absurd hfuel (Nat.not_succ_le_zero _)
    | succ fuel =>
      have hrest := ih (fun p hp => hparts p (List.mem_cons_of_mem part hp)) (Nat.le_of_succ_le_succ hfuel)
      rcases hparts part List.mem_cons_self with hpart | rfl
      · obtain ⟨hne, hword⟩ := isIdentifier_iff.mp hpart
        cases part with
        | nil => exact absurd rfl hne
        | cons c cs =>
          obtain ⟨htake, hdrop⟩ :=
            @takeWhile_dotted cs parts fun d hd => hword d (List.mem_cons_of_mem c hd)
          rw [List.takeWhile_cons, startsPart_cons hpart]
          change Aliases.moreParts (fuel + 1) ('.' :: c :: (cs ++ dotted parts)) = _
          rw [Aliases.moreParts.eq_3 _ _ _ (fun h => ne_star_of_isIdentifier hpart h), htake, hdrop, hrest]
      · rw [List.takeWhile_cons]
        exact congrArg (['*'] :: ·) hrest

/-- A reference is read at the start of an identifier if neither this nor the next part begins with a
digit. -/
theorem reference?_dotted (hpart : isIdentifier part = true) (hparts : ∀ p ∈ parts, IsPart p) :
    Aliases.reference? (part ++ dotted parts) =
      if startsPart part = true ∧ parts.takeWhile startsPart ≠ [] then
        some (part :: parts.takeWhile startsPart)
      else none := by
  obtain ⟨hne, hword⟩ := isIdentifier_iff.mp hpart
  cases part with
  | nil => exact absurd rfl hne
  | cons c cs =>
    obtain ⟨htake, hdrop⟩ :=
      @takeWhile_dotted cs parts fun d hd => hword d (List.mem_cons_of_mem c hd)
    rw [List.cons_append, Aliases.reference?, startsPart_cons hpart, htake, hdrop]
    dsimp only
    rw [moreParts_dotted hparts length_le_length_dotted]
    by_cases hstarts : Aliases.startsName c = true
    · rw [if_pos hstarts]
      cases hmore : parts.takeWhile startsPart with
      | nil => simp
      | cons p more => simp [hstarts]
    · rw [if_neg hstarts, if_neg fun h => hstarts h.1]

section Scanning

variable {inWord : Bool} {xs ys : List Char}

/-- No reference begins with a point. -/
theorem rewriteFrom_dot :
    a.rewriteFrom inWord 0 ('.' :: ys) = '.' :: a.rewriteFrom false 0 ys := by
  have hnone : Aliases.reference? ('.' :: ys) = none := rfl
  have hdot : Text.isWord '.' = false := by decide
  rw [Aliases.rewriteFrom, hnone, ite_self, hdot]

/-- What belongs to a reference that was rewritten is passed over. -/
theorem rewriteFrom_skip :
    a.rewriteFrom inWord xs.length (xs ++ dotted parts) = a.rewriteFrom false 0 (dotted parts) := by
  induction xs generalizing inWord with
  | nil =>
    cases parts with
    | nil => rfl
    | cons p parts => exact rewriteFrom_dot.trans rewriteFrom_dot.symm
  | cons x xs ih => exact ih

/-- No reference begins inside of a word. -/
theorem rewriteFrom_word (hword : ∀ c ∈ xs, Text.isWord c = true) :
    a.rewriteFrom true 0 (xs ++ ys) = xs ++ a.rewriteFrom true 0 ys := by
  induction xs with
  | nil => rfl
  | cons x xs ih =>
    have hrest := ih fun c hc => hword c (List.mem_cons_of_mem x hc)
    rw [List.cons_append, Aliases.rewriteFrom, if_pos rfl, hword x List.mem_cons_self, hrest]
    rfl

/-- A part at which no reference is read stays as it is. -/
theorem rewriteFrom_of_not (hpart : isIdentifier part = true)
    (hnone : Aliases.reference? (part ++ dotted parts) = none) :
    a.rewriteFrom false 0 (part ++ dotted parts) = part ++ a.rewriteFrom false 0 (dotted parts) := by
  obtain ⟨hne, hword⟩ := isIdentifier_iff.mp hpart
  cases part with
  | nil => exact absurd rfl hne
  | cons c cs =>
    have hcs : ∀ d ∈ cs, Text.isWord d = true := fun d hd =>
      isWord_of_isAsciiWord (hword d (List.mem_cons_of_mem c hd))
    have hend : a.rewriteFrom true 0 (dotted parts) = a.rewriteFrom false 0 (dotted parts) := by
      cases parts with
      | nil => rfl
      | cons p parts => exact rewriteFrom_dot.trans rewriteFrom_dot.symm
    rw [List.cons_append] at hnone ⊢
    rw [Aliases.rewriteFrom, hnone, ite_self,
      isWord_of_isAsciiWord (hword c List.mem_cons_self), rewriteFrom_word hcs, hend]
    rfl

theorem dotted_append {more : List (List Char)} : dotted (parts ++ more) = dotted parts ++ dotted more :=
  List.flatMap_append

/-- A reference that is read is rewritten, and what comes after it is read on. -/
theorem rewriteFrom_of_some {more rest : List (List Char)} (hpart : isIdentifier part = true)
    (hsome : Aliases.reference? (part ++ dotted (more ++ rest)) = some (part :: more)) :
    a.rewriteFrom false 0 (part ++ dotted (more ++ rest)) =
      a.rewriteReference (part :: more) ++ a.rewriteFrom false 0 (dotted rest) := by
  obtain ⟨hne, hword⟩ := isIdentifier_iff.mp hpart
  cases part with
  | nil => exact absurd rfl hne
  | cons c cs =>
    rw [List.cons_append] at hsome ⊢
    rw [Aliases.rewriteFrom, if_neg Bool.false_ne_true, hsome]
    dsimp only
    rw [joinParts_cons, dotted_append, ← List.append_assoc, List.cons_append, List.length_cons,
      Nat.add_sub_cancel, rewriteFrom_skip]

/-- From the start of a part, the longest run of parts that do not begin with a digit is rewritten as
one reference, if there are two of them. -/
theorem rewriteFrom_dotted (hpart : isIdentifier part = true) (hparts : ∀ p ∈ parts, IsPart p) :
    a.rewriteFrom false 0 (part ++ dotted parts) =
      if startsPart part = true ∧ parts.takeWhile startsPart ≠ [] then
        a.rewriteReference (part :: parts.takeWhile startsPart) ++
          a.rewriteFrom false 0 (dotted (parts.dropWhile startsPart))
      else part ++ a.rewriteFrom false 0 (dotted parts) := by
  have hread := reference?_dotted hpart hparts
  split
  · next hstarts =>
    rw [if_pos hstarts] at hread
    have hsome := @rewriteFrom_of_some a part (parts.takeWhile startsPart)
      (parts.dropWhile startsPart) hpart
    rw [List.takeWhile_append_dropWhile] at hsome
    exact hsome hread
  · next hstarts =>
    rw [if_neg hstarts] at hread
    exact rewriteFrom_of_not hpart hread

theorem rewriteFrom_dotted_cons :
    a.rewriteFrom inWord 0 (dotted (part :: parts)) =
      '.' :: a.rewriteFrom false 0 (part ++ dotted parts) :=
  rewriteFrom_dot

/-- A part by itself is no reference. -/
theorem rewriteFrom_part (hpart : IsPart part) : a.rewriteFrom false 0 (part ++ dotted []) = part := by
  rcases hpart with hpart | rfl
  · rw [rewriteFrom_dotted hpart fun p hp => absurd hp List.not_mem_nil, if_neg fun h => h.2 rfl]
    exact List.append_nil part
  · rfl

end Scanning

section Parts

variable (hfirst : isIdentifier first = true)
include hfirst

/-- A column of a table is read as such, unless one of the two begins with a digit. -/
theorem rewriteFrom_two (hsecond : IsPart second) :
    a.rewriteFrom false 0 (Aliases.joinParts [first, second]) =
      if startsPart first = true ∧ startsPart second = true then a.rewriteReference [first, second]
      else Aliases.joinParts [first, second] := by
  have hparts : ∀ p ∈ [second], IsPart p := by
    intro p hp
    rwa [List.mem_singleton.mp hp]
  have hkept : first ++ a.rewriteFrom false 0 (dotted [second]) = first ++ dotted [second] := by
    rw [rewriteFrom_dotted_cons, rewriteFrom_part hsecond]
    simp [dotted]
  rw [joinParts_cons, rewriteFrom_dotted hfirst hparts, hkept]
  by_cases hstarts : startsPart second = true
  · simp [hstarts, dotted, Aliases.rewriteFrom]
  · simp [hstarts]

/-- A column of a table in a schema is read as such if none of the three begins with a digit. If only
the first or only the last one does, the two others are read as a column of a table. -/
theorem rewriteFrom_three (hsecond : isIdentifier second = true) (hthird : IsPart third) :
    a.rewriteFrom false 0 (Aliases.joinParts [first, second, third]) =
      if startsPart second = true then
        if startsPart first = true then
          if startsPart third = true then a.rewriteReference [first, second, third]
          else a.rewriteReference [first, second] ++ '.' :: third
        else if startsPart third = true then first ++ '.' :: a.rewriteReference [second, third]
        else Aliases.joinParts [first, second, third]
      else Aliases.joinParts [first, second, third] := by
  have hparts : ∀ p ∈ [second, third], IsPart p := by
    intro p hp
    rcases List.mem_cons.mp hp with rfl | hp
    · exact .inl hsecond
    · rwa [List.mem_singleton.mp hp]
  have htail := rewriteFrom_two (a := a) hsecond hthird
  rw [joinParts_cons] at htail
  rw [joinParts_cons, rewriteFrom_dotted hfirst hparts, rewriteFrom_dotted_cons, htail]
  by_cases hstarts : startsPart second = true
  · by_cases hfirstStarts : startsPart first = true
    · by_cases hlast : startsPart third = true
      · simp [hstarts, hfirstStarts, hlast, dotted, Aliases.rewriteFrom]
      · have hend : a.rewriteFrom false 0 (dotted [third]) = '.' :: third := by
          rw [rewriteFrom_dotted_cons, rewriteFrom_part hthird]
        simp [hstarts, hfirstStarts, hlast, hend]
    · by_cases hlast : startsPart third = true
      · simp [hstarts, hfirstStarts, hlast]
      · simp [hstarts, hfirstStarts, hlast, dotted]
  · simp [hstarts, dotted]

end Parts

end Recount.Sql
