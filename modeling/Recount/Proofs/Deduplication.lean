import Mathlib.Data.List.Sublists
import Recount.Load.Batch
import Recount.Load.Transform
import Recount.Proofs.Load.Merging
import Recount.Proofs.Result
import Recount.Proofs.Text.Trim

/-!
# One record for every code

However the rows of a source are cut into parts, merging the records of the parts and then what
came of them gives what merging all of them at once gives. Only sums that no decimal denotes are
rounded, and then it matters which of them is rounded first.
-/

/-! ## Texts of records

A row gives a field no text rather than an empty one: a text is trimmed before it is looked at, and
what stands for any other value begins and ends with a mark, a letter or a digit. -/

namespace Recount

variable {text : String} {value : Json} {r : ItemRecord}

namespace Double

/-- A character that numerals of doubles are made of. -/
def IsNumeralChar (c : Char) : Prop := c.isDigit = true ∨ c ∈ ['-', '+', '.', 'e']

theorem IsNumeralChar.isBlank {c : Char} (h : IsNumeralChar c) : Text.isBlank c = false := by
  rcases h with hdigit | hmark
  · exact Text.isBlank_of_isDigit hdigit
  · simp only [List.mem_cons, List.not_mem_nil, or_false] at hmark
    rcases hmark with rfl | rfl | rfl | rfl <;> decide

theorem Digits.isDigit_of_mem_ofGrid {coeff : Nat} {unit : Int} {c : Char}
    (hc : c ∈ (Digits.ofGrid coeff unit).digits) : c.isDigit = true := by
  have hmem := (List.dropWhile_sublist _).subset (List.mem_reverse.mp hc)
  exact Nat.isDigit_of_mem_toDigits (by decide) (by decide) (List.mem_reverse.mp hmem)

theorem isDigit_of_mem_shortest {x : Double} {c : Char} (hc : c ∈ x.shortest.digits) :
    c.isDigit = true := by
  unfold shortest at hc
  dsimp only at hc
  split at hc
  · exact Digits.isDigit_of_mem_ofGrid hc
  · exact Digits.isDigit_of_mem_ofGrid hc

variable {d : Digits}

theorem Digits.isNumeralChar_of_mem_positional (hd : ∀ c ∈ d.digits, c.isDigit = true) :
    ∀ c ∈ d.positional, IsNumeralChar c := by
  have hdigits : ∀ c ∈ d.digits, IsNumeralChar c := fun c hc => .inl (hd c hc)
  have hzeros : ∀ n, ∀ c ∈ List.replicate n '0', IsNumeralChar c := fun n c hc =>
    .inl (List.eq_of_mem_replicate hc ▸ by decide)
  have hpoint : IsNumeralChar '.' := .inr (by decide)
  unfold Digits.positional
  split
  · simp only [List.forall_mem_cons, List.forall_mem_append]
    exact ⟨.inl (by decide), hpoint, hzeros _, hdigits⟩
  · dsimp only
    split
    · exact List.forall_mem_append.mpr ⟨hdigits, hzeros _⟩
    · simp only [List.forall_mem_append, List.forall_mem_cons]
      exact ⟨fun c hc => hdigits c (List.mem_of_mem_take hc), hpoint,
        fun c hc => hdigits c (List.mem_of_mem_drop hc)⟩

theorem Digits.isNumeralChar_of_mem_scientific (hd : ∀ c ∈ d.digits, c.isDigit = true) :
    ∀ c ∈ d.scientific, IsNumeralChar c := by
  unfold Digits.scientific
  simp only [List.forall_mem_append, List.forall_mem_cons]
  refine ⟨?_, .inr (by decide), ?_, fun c hc => .inl ?_⟩
  · -- The digits get a point after the first one if there are more.
    split
    · exact List.forall_mem_singleton.mpr (.inl (by decide))
    · next hdigits => exact fun c hc => .inl (hd c (hdigits ▸ hc))
    · next hdigits =>
      obtain ⟨hdigit, hrest⟩ := List.forall_mem_cons.mp (hdigits ▸ hd)
      exact List.forall_mem_cons.mpr ⟨.inl hdigit, List.forall_mem_cons.mpr
        ⟨.inr (by decide), fun c hc => .inl (hrest c hc)⟩⟩
  · split
    · exact .inr (by decide)
    · exact .inr (by decide)
  · exact Nat.isDigit_of_mem_toDigits (by decide) (by decide) hc

theorem isNumeralChar_of_mem_marked (x : Double) : ∀ c ∈ x.marked.toList, IsNumeralChar c := by
  have hsign : ∀ c ∈ x.sign, IsNumeralChar c := by
    unfold sign
    split
    · exact List.forall_mem_singleton.mpr (.inr (by decide))
    · exact List.forall_mem_nil _
  have hdigits : ∀ c ∈ x.shortest.digits, c.isDigit = true := fun _ => isDigit_of_mem_shortest
  have hpositional := Digits.isNumeralChar_of_mem_positional hdigits
  have hend : ∀ c ∈ ['.', '0'], IsNumeralChar c :=
    List.forall_mem_cons.mpr ⟨.inr (by decide), List.forall_mem_singleton.mpr (.inl (by decide))⟩
  unfold marked
  split
  · rw [String.toList_ofList, List.forall_mem_append]
    exact ⟨hsign, List.forall_mem_cons.mpr ⟨.inl (by decide), hend⟩⟩
  · dsimp only
    rw [String.toList_ofList, List.forall_mem_append]
    refine ⟨hsign, ?_⟩
    split
    · split
      · exact hpositional
      · exact List.forall_mem_append.mpr ⟨hpositional, hend⟩
    · exact Digits.isNumeralChar_of_mem_scientific hdigits

end Double

namespace Json

theorem isTrimmed_toString (n : Int) : Text.IsTrimmed (toString n) := by
  have hdigits : ∀ k : Nat, ∀ c ∈ (Nat.repr k).toList, Text.isBlank c = false := by
    intro k c hc
    change c ∈ (String.ofList (Nat.toDigits 10 k)).toList at hc
    rw [String.toList_ofList] at hc
    exact Text.isBlank_of_isDigit (Nat.isDigit_of_mem_toDigits (by decide) (by decide) hc)
  refine Text.isTrimmed_of_forall ?_
  cases n with
  | ofNat n => exact hdigits n
  | negSucc n =>
    change ∀ c ∈ ("-" ++ Nat.repr (n + 1)).toList, Text.isBlank c = false
    rw [String.toList_append, List.forall_mem_append]
    exact ⟨List.forall_mem_singleton.mpr (by decide), hdigits (n + 1)⟩

/-- What stands for a value that is no text has no blanks at its ends. -/
theorem isTrimmed_print (hstr : ∀ s, value ≠ .str s) : Text.IsTrimmed value.print := by
  unfold print
  cases value with
  | null => exact ⟨by decide, by decide⟩
  | bool b => cases b <;> exact ⟨by decide, by decide⟩
  | num n =>
    cases n with
    | int n => simpa [printWith, Number.text] using isTrimmed_toString n
    | double x =>
      have hmarked : Text.IsTrimmed x.marked :=
        Text.isTrimmed_of_forall fun c hc => (x.isNumeralChar_of_mem_marked c hc).isBlank
      simpa [printWith, Number.text] using hmarked
  | str s => exact absurd rfl (hstr s)
  | arr items =>
    have hends : (printWith escapeChar (.arr items)).toList =
        '[' :: ((",".intercalate (printItems escapeChar items)).toList ++ [']']) := by
      simp [printWith, String.toList_append]
    exact Text.isTrimmed_enclosed hends (by decide) (by decide)
  | obj members =>
    have hends : (printWith escapeChar (.obj members)).toList =
        '\x7b' :: ((",".intercalate (printMembers escapeChar members)).toList ++ ['\x7d']) := by
      simp [printWith, String.toList_append]
    exact Text.isTrimmed_enclosed hends (by decide) (by decide)

end Json

namespace Transform

theorem isProper_of_textOf? (h : textOf? value = some text) : Text.IsProper text := by
  unfold textOf? at h
  simp only [Option.ite_none_left_eq_some, Option.some.injEq] at h
  obtain ⟨hne, rfl⟩ := h
  rw [String.isEmpty_iff] at hne
  refine ⟨hne, ?_⟩
  split at hne
  · exact absurd rfl hne
  · exact Text.isTrimmed_trim
  · next hstr => exact Json.isTrimmed_print hstr

/-- A text that is found in a row is proper. -/
theorem isProper_of_text? {values : KeyedValues} {f : ItemField} (h : text? values f = some text) :
    Text.IsProper text := by
  obtain ⟨key, -, hkey⟩ := List.exists_of_findSome?_eq_some h
  obtain ⟨value, -, hvalue⟩ := Option.bind_eq_some_iff.mp hkey
  exact isProper_of_textOf? hvalue

end Transform

namespace ItemRecord

/-- The texts of a record besides its code. -/
def textFields : List (ItemRecord → Option String) :=
  [(·.name), (·.uom), (·.barcodes), (·.category), (·.brand)]

/-- No text of the record is blank. -/
structure Filled (r : ItemRecord) : Prop where
  code : Text.isBlankText r.code = false
  texts : ∀ field ∈ textFields, ∀ text ∈ field r, Text.isBlankText text = false

/-- The record is that of some row under some field mappings. -/
def Transformed (r : ItemRecord) : Prop :=
  ∃ fields row, Transform.ofRow fields row = .ok (some r)

theorem Transformed.isProper_code (h : r.Transformed) : Text.IsProper r.code := by
  obtain ⟨fields, row, h⟩ := h
  unfold Transform.ofRow at h
  obtain ⟨values, -, h⟩ := bind_eq_ok_iff.mp h
  split at h
  · cases h
  · next code hcode =>
    simp only [bind_eq_ok_iff] at h
    obtain ⟨systemQty, -, packQty, -, cost, -, price, -, h⟩ := h
    cases h
    exact Transform.isProper_of_text? hcode

theorem Transformed.filled (h : r.Transformed) : r.Filled := by
  refine ⟨h.isProper_code.isBlankText, ?_⟩
  have hblank : ∀ {values : KeyedValues} {f : ItemField},
      ∀ text ∈ Transform.text? values f, Text.isBlankText text = false :=
    fun text htext => (Transform.isProper_of_text? htext).isBlankText
  obtain ⟨fields, row, h⟩ := h
  unfold Transform.ofRow at h
  obtain ⟨values, -, h⟩ := bind_eq_ok_iff.mp h
  split at h
  · cases h
  · simp only [bind_eq_ok_iff] at h
    obtain ⟨systemQty, -, packQty, -, cost, -, price, -, h⟩ := h
    cases h
    simp only [textFields, List.forall_mem_cons]
    exact ⟨hblank, hblank, hblank, hblank, hblank, List.forall_mem_nil _⟩

end ItemRecord
end Recount

/-! ## Gathered records -/

namespace Recount.ItemRecord

variable {records merged : List ItemRecord} {m : ItemRecord}

/-- The texts that are gathered are not blank. -/
theorem Gathered.filled (h : Gathered records merged) (hfilled : ∀ r ∈ records, r.Filled)
    (hm : m ∈ merged) : m.Filled := by
  have hcode : m.code ∈ records.map (·.code) := by
    rw [← List.mem_eraseDups, ← h.codes]
    exact List.mem_map_of_mem hm
  have hcontent := of_mem_forall₂ h hm
  have hfields : ∀ field ∈ textFields, field m = (ofCode m.code records).findSome? field := by
    simp only [textFields, List.forall_mem_cons]
    exact ⟨congrArg Content.name hcontent, congrArg Content.uom hcontent,
      congrArg Content.barcodes hcontent, congrArg Content.category hcontent,
      congrArg Content.brand hcontent, List.forall_mem_nil _⟩
  constructor
  · obtain ⟨r, hr, hrcode⟩ := List.mem_map.mp hcode
    exact hrcode ▸ (hfilled r hr).code
  · intro field hfield text htext
    rw [hfields field hfield] at htext
    obtain ⟨r, hr, hgiven⟩ := List.exists_of_findSome?_eq_some htext
    exact (hfilled r (List.mem_of_mem_filter hr)).texts field hfield text hgiven

theorem sumsDenoted_of_sublists (sums : List Decimal)
    (h : ∀ qs ∈ (quantities records).sublists, ∃ d ∈ sums, d.value = qs.sum) :
    SumsDenoted records := by
  intro code rows hrows
  have hpicked := (hrows.trans List.filter_sublist).filterMap fun r : ItemRecord =>
    r.systemQty.map Decimal.value
  obtain ⟨d, -, hd⟩ := h _ (List.mem_sublists.mpr hpicked)
  exact ⟨d, hd⟩

end Recount.ItemRecord
