import Mathlib
import Recount.Text.Letter
import Recount.Text.Trim

/-!
# Parts of texts

Texts are trimmed, searched and split.
-/

/-! ## Trimming and searching

What is trimmed is a part of the text and stays as it is when it is trimmed again. -/

namespace Recount.Text

variable {p : Char → Bool} {cs ds pattern : List Char} {s : String}

theorem isBlank_of_isAsciiWord {c : Char} (h : isAsciiWord c = true) : isBlank c = false := by
  simp only [isAsciiWord, Char.isAlphanum, Char.isAlpha, Char.isUpper, Char.isLower,
    Char.isDigit, Bool.or_eq_true, Bool.and_eq_true, decide_eq_true_eq, beq_iff_eq] at h
  have hpoint : 0x30 ≤ c.toNat ∧ c.toNat ≤ 0x7A := by
    rcases h with ((⟨hlow, hhigh⟩ | ⟨hlow, hhigh⟩) | ⟨hlow, hhigh⟩) | rfl
    · exact ⟨Nat.le_trans (by decide) (UInt32.le_iff_toNat_le.mp hlow),
        Nat.le_trans (UInt32.le_iff_toNat_le.mp hhigh) (by decide)⟩
    · exact ⟨Nat.le_trans (by decide) (UInt32.le_iff_toNat_le.mp hlow),
        Nat.le_trans (UInt32.le_iff_toNat_le.mp hhigh) (by decide)⟩
    · exact ⟨Nat.le_trans (by decide) (UInt32.le_iff_toNat_le.mp hlow),
        Nat.le_trans (UInt32.le_iff_toNat_le.mp hhigh) (by decide)⟩
    · decide
  simp [isBlank, Ranges.holds, blankRanges]
  omega

theorem isBlank_of_isDigit {c : Char} (h : c.isDigit = true) : isBlank c = false :=
  isBlank_of_isAsciiWord (by simp [isAsciiWord, Char.isAlphanum, h])

theorem isSome_afterStart?_iff : (afterStart? pattern cs).isSome = true ↔ pattern <+: cs := by
  rw [Option.isSome_iff_exists]
  simp only [afterStart?_eq_some_iff]
  exact exists_congr fun rest => eq_comm

theorem occursIn_iff : occursIn pattern cs = true ↔ pattern <:+: cs := by
  induction cs with
  | nil => simp [occursIn]
  | cons c cs ih => rw [occursIn, Bool.or_eq_true, isSome_afterStart?_iff, ih, List.infix_cons_iff]

theorem dropEndWhile_prefix_self : dropEndWhile p cs <+: cs :=
  List.rdropWhile_prefix p cs

theorem dropEndWhile_dropEndWhile : dropEndWhile p (dropEndWhile p cs) = dropEndWhile p cs :=
  List.rdropWhile_idempotent p cs

theorem dropEndWhile_of_forall (h : ∀ c ∈ cs, p c = false) : dropEndWhile p cs = cs :=
  List.rdropWhile_eq_self_iff.mpr fun hne =>
    Bool.eq_false_iff.mp (h _ (List.getLast_mem hne))

/-- What was dropped from the start of a text is not at the start of what is left. -/
theorem dropWhile_of_prefix_dropWhile (h : ds <+: cs.dropWhile p) : ds.dropWhile p = ds := by
  cases ds with
  | nil => rfl
  | cons d ds =>
    obtain ⟨rest, hrest⟩ := h
    have hnot : p d = false := by
      have hhead := List.head?_dropWhile_not p cs
      rw [← hrest] at hhead
      simpa using hhead
    rw [List.dropWhile_cons, hnot]
    rfl

/-- A text without blanks at its ends. -/
def IsTrimmed (s : String) : Prop :=
  s.toList.dropWhile isBlank = s.toList ∧ dropEndWhile isBlank s.toList = s.toList

theorem IsTrimmed.trim_eq (h : IsTrimmed s) : trim s = s := by
  rw [trim, h.1, h.2, String.ofList_toList]

theorem IsTrimmed.trimEnd_eq (h : IsTrimmed s) : trimEnd s = s := by
  rw [trimEnd, h.2, String.ofList_toList]

/-- The start of a text that begins with no blank is trimmed once its end is. -/
theorem isTrimmed_dropEndWhile (h : ds <+: cs.dropWhile isBlank) :
    IsTrimmed (String.ofList (dropEndWhile isBlank ds)) := by
  rw [IsTrimmed, String.toList_ofList]
  exact ⟨dropWhile_of_prefix_dropWhile (dropEndWhile_prefix_self.trans h), dropEndWhile_dropEndWhile⟩

theorem isTrimmed_trim : IsTrimmed (trim s) :=
  isTrimmed_dropEndWhile (List.prefix_refl _)

/-- A text without any blanks is trimmed. -/
theorem isTrimmed_of_forall (h : ∀ c ∈ s.toList, isBlank c = false) : IsTrimmed s := by
  refine ⟨?_, dropEndWhile_of_forall h⟩
  cases hcs : s.toList with
  | nil => rfl
  | cons c cs =>
    rw [hcs] at h
    exact List.dropWhile_cons_of_neg (by simp [h c List.mem_cons_self])

/-- A text between two characters that are no blanks is trimmed. -/
theorem isTrimmed_enclosed {c d : Char} (hs : s.toList = c :: (cs ++ [d])) (hc : isBlank c = false)
    (hd : isBlank d = false) : IsTrimmed s := by
  constructor
  · rw [hs]
    exact List.dropWhile_cons_of_neg (by simp [hc])
  · rw [hs, ← List.cons_append]
    exact List.rdropWhile_concat_neg isBlank (c :: cs) d (by simp [hd])

/-- Nothing is left of a text that is trimmed just if it is blank. -/
theorem trim_eq_empty_iff : trim s = "" ↔ isBlankText s = true := by
  have hends : dropEndWhile isBlank (s.toList.dropWhile isBlank) = [] ↔
      ∀ c ∈ s.toList.dropWhile isBlank, isBlank c = true := List.rdropWhile_eq_nil_iff
  rw [trim, isBlankText, List.all_eq_true, ← String.toList_eq_nil_iff, String.toList_ofList, hends]
  constructor
  · intro hrest c hc
    by_contra hnot
    have hleft : s.toList.dropWhile isBlank ≠ [] := fun hnil =>
      hnot (List.dropWhile_eq_nil_iff.mp hnil c hc)
    have hhead := List.head_dropWhile_not isBlank hleft
    rw [hrest _ (List.head_mem hleft)] at hhead
    cases hhead
  · exact fun hall c hc => hall c ((List.dropWhile_sublist isBlank).subset hc)

/-- A text with something in it and without blanks at its ends. -/
structure IsProper (s : String) : Prop where
  ne_empty : s ≠ ""
  trimmed : IsTrimmed s

theorem IsProper.isBlankText (h : IsProper s) : isBlankText s = false := by
  rw [Bool.eq_false_iff, Ne, ← trim_eq_empty_iff, h.trimmed.trim_eq]
  exact h.ne_empty

theorem trimEndOf_of_not_mem {c : Char} (h : c ∉ s.toList) : trimEndOf c s = s := by
  have hnone : ∀ d ∈ s.toList, (d == c) = false := by
    intro d hd
    rw [beq_eq_false_iff_ne]
    rintro rfl
    exact h hd
  rw [trimEndOf, dropEndWhile_of_forall hnone, String.ofList_toList]

end Recount.Text

/-! ## Pieces of texts

A text that is split is the text of its pieces with the separator between them. -/

namespace Recount.Text

variable {separator : Char} {cs ds piece : List Char}

theorem splitChars_eq_splitOn : splitChars separator cs = cs.splitOn separator := by
  induction cs with
  | nil => rfl
  | cons c cs ih =>
    rw [List.splitOn_cons_eq_if_modifyHead, ← ih, splitChars]
    cases hpieces : splitChars separator cs with
    | nil => exact absurd hpieces (splitChars_ne_nil separator cs)
    | cons piece pieces => rfl

theorem splitChars_of_not_mem (h : separator ∉ cs) : splitChars separator cs = [cs] := by
  rw [splitChars_eq_splitOn, List.splitOn_eq_singleton h]

/-- Texts with a separator between them are split apart. -/
theorem splitChars_append :
    splitChars separator (cs ++ separator :: ds) = splitChars separator cs ++ splitChars separator ds := by
  simp only [splitChars_eq_splitOn]
  exact List.splitOnP_append_cons cs ds (beq_self_eq_true separator)

theorem intercalate_splitChars : [separator].intercalate (splitChars separator cs) = cs := by
  rw [splitChars_eq_splitOn, List.intercalate_splitOn]

/-- What a text begins with is cut off before the first character of another kind. -/
theorem takeWhile_append_of_head {p : Char → Bool} (hcs : ∀ c ∈ cs, p c = true)
    (hds : ∀ c ∈ ds.head?, p c = false) :
    (cs ++ ds).takeWhile p = cs ∧ (cs ++ ds).dropWhile p = ds := by
  rw [List.takeWhile_append_of_pos hcs, List.dropWhile_append_of_pos hcs]
  cases ds with
  | nil => simp
  | cons d ds =>
    have hd : p d = false := hds d rfl
    simp [hd]

/-- A piece is a part of the text. -/
theorem sublist_of_mem_splitChars (h : piece ∈ splitChars separator cs) : piece.Sublist cs := by
  induction cs generalizing piece with
  | nil =>
    obtain rfl := List.mem_singleton.mp h
    exact .slnil
  | cons c cs ih =>
    rw [splitChars] at h
    split at h
    · rcases List.mem_cons.mp h with rfl | h
      · exact List.nil_sublist _
      · exact (ih h).cons c
    · cases hpieces : splitChars separator cs with
      | nil => exact absurd hpieces (splitChars_ne_nil separator cs)
      | cons first pieces =>
        rw [hpieces] at h ih
        rcases List.mem_cons.mp h with rfl | h
        · exact (ih List.mem_cons_self).cons_cons c
        · exact (ih (List.mem_cons_of_mem first h)).cons c

/-- A piece has no separator in it. -/
theorem separator_not_mem (h : piece ∈ splitChars separator cs) : separator ∉ piece := by
  induction cs generalizing piece with
  | nil =>
    rw [List.mem_singleton.mp h]
    exact List.not_mem_nil
  | cons c cs ih =>
    rw [splitChars] at h
    split at h
    · rcases List.mem_cons.mp h with rfl | h
      · exact List.not_mem_nil
      · exact ih h
    · next hne =>
      cases hpieces : splitChars separator cs with
      | nil => exact absurd hpieces (splitChars_ne_nil separator cs)
      | cons first pieces =>
        rw [hpieces] at h ih
        rcases List.mem_cons.mp h with rfl | h
        · rw [List.mem_cons, not_or]
          exact ⟨fun heq => hne (beq_iff_eq.mpr heq.symm), ih List.mem_cons_self⟩
        · exact ih (List.mem_cons_of_mem first h)

/-- A character that is no separator is in a piece. -/
theorem exists_piece_of_mem {c : Char} (hc : c ∈ cs) (hne : c ≠ separator) :
    ∃ piece ∈ splitChars separator cs, c ∈ piece := by
  induction cs with
  | nil => exact absurd hc List.not_mem_nil
  | cons d cs ih =>
    rw [splitChars]
    split
    · next hseparator =>
      have hmem : c ∈ cs := List.mem_of_ne_of_mem (beq_iff_eq.mp hseparator ▸ hne) hc
      obtain ⟨piece, hpiece, hin⟩ := ih hmem
      exact ⟨piece, List.mem_cons_of_mem [] hpiece, hin⟩
    · cases hpieces : splitChars separator cs with
      | nil => exact absurd hpieces (splitChars_ne_nil separator cs)
      | cons first pieces =>
        rw [hpieces] at ih
        rcases List.mem_cons.mp hc with rfl | hmem
        · exact ⟨c :: first, List.mem_cons_self, List.mem_cons_self⟩
        · obtain ⟨piece, hpiece, hin⟩ := ih hmem
          rcases List.mem_cons.mp hpiece with rfl | hpiece
          · exact ⟨d :: piece, List.mem_cons_self, List.mem_cons_of_mem d hin⟩
          · exact ⟨piece, List.mem_cons_of_mem _ hpiece, hin⟩

@[simp] theorem toList_asciiLower {s : String} : (asciiLower s).toList = s.toList.map Char.toLower :=
  String.toList_ofList

end Recount.Text
