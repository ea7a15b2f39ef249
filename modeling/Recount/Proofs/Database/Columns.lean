import Mathlib.Tactic.Ring
import Recount.Id
import Recount.Proofs.Count.Item
import Recount.Proofs.Database.Seen
import Recount.Proofs.Decimal.Numeral
import Recount.Proofs.Store.Answers
import Recount.Proofs.Time.Text

/-!
# What columns keep

A cell that a value fills is read as the value, but for what a database does not keep: parts of a
microsecond, and the scale and the sign of a zero. So a row that holds a record is read as what is
kept of the record.
-/

/-! ## Identifiers and their texts

The text of an identifier is read back as the identifier. -/

namespace Recount.Id

variable {x : Id}

/-- The hexadecimal digits of a number, so many of them. -/
def hexDigits (count n : Nat) : List Char :=
  (List.range count).map fun i => Json.hexDigit (n / 16 ^ (count - 1 - i))

/-- One more digit of a number that is read from its digits. -/
def nextDigit (n? : Option Nat) (c : Char) : Option Nat :=
  n?.bind fun n => (Json.hexValue? c).map (n * 16 + ·)

theorem hexValue?_hexDigit (n : Nat) : Json.hexValue? (Json.hexDigit n) = some (n % 16) := by
  have hall : ∀ k < 16, Json.hexValue? (Json.hexDigit k) = some k := by decide +kernel
  have hdigit : Json.hexDigit n = Json.hexDigit (n % 16) :=
    congrArg (fun k => ("0123456789abcdef".toList)[k]?.getD '0') (Nat.mod_mod n 16).symm
  rw [hdigit]
  exact hall (n % 16) (Nat.mod_lt n (by decide))

/-- A digit is not what stands between the groups. -/
theorem hexDigit_ne_hyphen (n : Nat) : Json.hexDigit n ≠ '-' := by
  intro h
  have hvalue := hexValue?_hexDigit n
  rw [h] at hvalue
  cases hvalue

theorem hexDigits_succ (count n : Nat) :
    hexDigits (count + 1) n = Json.hexDigit (n / 16 ^ count) :: hexDigits count n := by
  rw [hexDigits, List.range_succ_eq_map, List.map_cons, List.map_map]
  refine congrArg _ (List.map_congr_left fun i _ => ?_)
  rw [Function.comp_apply, Nat.succ_eq_add_one, show count + 1 - 1 - (i + 1) = count - 1 - i by omega]

/-- The digits of a number are read as its last digits. -/
theorem foldl_hexDigits (count n before : Nat) :
    (hexDigits count n).foldl nextDigit (some before) =
      some (before * 16 ^ count + n % 16 ^ count) := by
  induction count generalizing before with
  | zero => simp [hexDigits, Nat.mod_one]
  | succ count ih =>
    have hnext : nextDigit (some before) (Json.hexDigit (n / 16 ^ count)) =
        some (before * 16 + n / 16 ^ count % 16) := by
      simp [nextDigit, hexValue?_hexDigit]
    rw [hexDigits_succ, List.foldl_cons, hnext, ih, Nat.mod_pow_succ]
    congr 1
    ring

theorem length_digits : x.digits.length = 32 := rfl

theorem ofDigits?_digits : ofDigits? x.digits = some x := by
  have hread : x.digits.foldl nextDigit (some 0) = some x.val.toNat := by
    have hdigits := foldl_hexDigits 32 x.val.toNat 0
    rwa [Nat.zero_mul, Nat.zero_add,
      show (16 : Nat) ^ 32 = 2 ^ 128 by norm_num, Nat.mod_eq_of_lt x.val.isLt] at hdigits
  rw [ofDigits?, if_pos length_digits]
  change (x.digits.foldl nextDigit (some 0)).map ofNat = some x
  rw [hread, Option.map_some, ofNat, BitVec.ofNat_toNat, BitVec.setWidth_eq]

/-- Without the hyphens, only the digits are left of the groups. -/
theorem filter_groups : (groups x.digits).filter (· != '-') = x.digits := by
  have hkept : ∀ part : List Char, part ⊆ x.digits → part.filter (· != '-') = part := by
    refine fun part hpart => List.filter_eq_self.mpr fun c hc => ?_
    obtain ⟨i, -, rfl⟩ := List.mem_map.mp (hpart hc)
    exact bne_iff_ne.mpr (hexDigit_ne_hyphen _)
  have hpart : ∀ start count, (((x.digits.drop start).take count).filter (· != '-')) =
      (x.digits.drop start).take count :=
    fun start count => hkept _ fun c hc => List.mem_of_mem_drop (List.mem_of_mem_take hc)
  have hhyphen : ∀ rest : List Char, ('-' :: rest).filter (· != '-') = rest.filter (· != '-') :=
    fun rest => List.filter_cons_of_neg (by decide)
  have hfirst := hpart 0 8
  have hlast := hkept (x.digits.drop 20) fun c hc => List.mem_of_mem_drop hc
  rw [List.drop_zero] at hfirst
  simp only [groups, List.filter_append, hhyphen, hpart, hfirst, hlast]
  rfl

/-- The text of an identifier is read back. -/
theorem parse?_text : parse? x.text = some x := by
  have hgroups : ofGroups? (groups x.digits) = some x := by
    rw [ofGroups?, filter_groups, ofDigits?_digits]
    rfl
  rw [parse?, text, String.toList_ofList]
  exact hgroups

end Recount.Id

/-! ## Numbers and points in time within their bounds

The numbers of counts, items and reports have 32 or 64 bits, and their points in time are on the
calendar. What a settlement makes of items within these bounds is within them. -/

namespace Recount

/-- A number of 32 bits with sign. -/
def IsInt32 (n : Int) : Prop := -2 ^ 31 ≤ n ∧ n ≤ 2 ^ 31 - 1

instance (n : Int) : Decidable (IsInt32 n) := inferInstanceAs (Decidable (_ ∧ _))

/-- A number of 64 bits with sign. -/
def IsInt64 (n : Int) : Prop := -2 ^ 63 ≤ n ∧ n ≤ 2 ^ 63 - 1

instance (n : Int) : Decidable (IsInt64 n) := inferInstanceAs (Decidable (_ ∧ _))

/-- The numbers and points in time of a count are within their bounds. -/
structure Count.InBounds (c : Count) : Prop where
  sequence : IsInt64 c.sequence
  currentVersion : IsInt32 c.currentVersion
  totalVersions : IsInt32 c.totalVersions
  createdAt : c.createdAt.InBounds
  marks : ∀ m ∈ [c.started, c.completed, c.approved, c.closed, c.cancelled], ∀ t ∈ m.time, t.InBounds
  updatedAt : c.updatedAt.InBounds

/-- The version and the points in time of an item are within their bounds. -/
structure Item.InBounds (i : Item) : Prop where
  version : IsInt32 i.version
  countedAt : ∀ t ∈ i.countedAt, t.InBounds
  createdAt : i.createdAt.InBounds
  updatedAt : i.updatedAt.InBounds

/-- The version and the points in time of a report are within their bounds. -/
structure Report.InBounds (r : Report) : Prop where
  version : IsInt32 r.version
  resolvedAt : ∀ t ∈ r.resolvedAt, t.InBounds
  createdAt : r.createdAt.InBounds
  updatedAt : r.updatedAt.InBounds

/-- What belongs to a transition is within its bounds. -/
structure Transition.InBounds (t : Transition) : Prop where
  newItems : ∀ i ∈ t.newItems, i.InBounds
  reports : ∀ r ∈ t.reports, r.InBounds

/-- The counts and items of a store are within their bounds. -/
structure Store.InBounds (s : Store) : Prop where
  counts : ∀ c ∈ s.counts, c.InBounds
  items : ∀ i ∈ s.items, i.InBounds

namespace Item

variable {i j : Item} {actor id : Id} {now : Time} {counted : Decimal} {r : Report}
  {entries : List (Item × Id)} {items : List Item} {reports : List Report}

theorem InBounds.withCounted (hi : i.InBounds) (h : i.withCounted counted = .ok j) : j.InBounds := by
  obtain ⟨_, _, _, _, rfl⟩ := withCounted_eq_ok h
  exact ⟨hi.version, hi.countedAt, hi.createdAt, hi.updatedAt⟩

theorem InBounds.judged (hi : i.InBounds) : i.judged.InBounds :=
  ⟨hi.version, hi.countedAt, hi.createdAt, hi.updatedAt⟩

theorem InBounds.unseen (hi : i.InBounds) (hnow : now.InBounds) : (i.unseen actor now).InBounds where
  version := hi.version
  countedAt := by
    rintro t ⟨⟩
    exact hnow
  createdAt := hi.createdAt
  updatedAt := hi.updatedAt

theorem InBounds.settle (hi : i.InBounds) (hnow : now.InBounds) (h : i.settle actor now = .ok j) :
    j.InBounds := by
  cases hcounted : i.countedQty with
  | none =>
    rw [settle_of_uncounted hcounted] at h
    obtain ⟨k, hk, h⟩ := bind_eq_ok_iff.mp h
    cases h
    exact ((hi.unseen hnow).withCounted hk).judged
  | some counted =>
    rw [settle_of_counted hcounted] at h
    obtain ⟨k, hk, h⟩ := bind_eq_ok_iff.mp h
    cases h
    exact (hi.withCounted hk).judged

theorem InBounds.report? (hi : i.InBounds) (hnow : now.InBounds)
    (h : i.report? id now = .ok (some r)) : r.InBounds := by
  unfold Item.report? at h
  split at h
  · obtain ⟨difference, -, h⟩ := bind_eq_ok_iff.mp h
    obtain ⟨percent, -, h⟩ := bind_eq_ok_iff.mp h
    cases h
    exact ⟨hi.version, fun _ ht => (nomatch ht), hnow, hnow⟩
  · cases h

/-- What a settlement makes of items within their bounds is within its bounds. -/
theorem settleAll_inBounds (hentries : ∀ entry ∈ entries, entry.1.InBounds) (hnow : now.InBounds)
    (h : settleAll actor now entries = .ok (items, reports)) :
    (∀ j ∈ items, j.InBounds) ∧ ∀ r ∈ reports, r.InBounds := by
  constructor
  · intro j hj
    obtain ⟨entry, hentry, hsettle⟩ := settleAll_mem_items h hj
    exact (hentries entry hentry).settle hnow hsettle
  · intro r hr
    obtain ⟨entry, hentry, j, -, hsettle, hreport⟩ := settleAll_mem_reports h hr
    exact ((hentries entry hentry).settle hnow hsettle).report? hnow hreport

end Item
end Recount

/-! ## Cells -/

namespace Recount

namespace Database

open Columns

variable {α β ρ : Type}

/-- A cell that `a` fills is read as `b`. -/
def ColumnType.Keeps (type : ColumnType α) (a b : α) : Prop := type.read (type.write a).toCell = .ok b

namespace ColumnType

section Cells

variable {write : α → Parameter} {decode : Json.Decoder α} {reason : String} {a b : α}

theorem ofDecoder_keeps (hvalue : (write a).toCell ≠ .null)
    (hdecode : decode (write a).toCell.toDraft = .ok b) :
    (ofDecoder write decode reason).Keeps a b := by
  unfold Keeps
  simp only [ofDecoder]
  rw [Json.Decode.ofJson?, hdecode]
  rfl

theorem textAs_eq_ok {read : String → Option α} {s : String} (h : read s = some a) :
    Json.Decode.textAs read (.str s) = .ok a := by
  rw [Json.Decode.textAs, h]
  rfl

/-- A text of an alternative is read as the alternative. -/
theorem named_keeps {naming : Naming α} {parse : String → Except UnknownName α}
    (h : parse (naming.name a) = .ok a) : (named naming parse).Keeps a a := by
  change (parse (naming.name a)).mapError CellFault.unknown = .ok a
  rw [h]
  rfl

theorem intBetween_eq_ok {low high n : Int} (hlow : low ≤ n) (hhigh : n ≤ high) :
    Json.Decode.intBetween low high (.num (.int n)) = .ok n := by
  simp [Json.Decode.intBetween, hlow, hhigh]

/-- The numeral of a quantity that is kept is read as the quantity. -/
theorem decode_storedQuantity (d : Decimal) :
    Json.Decode.decimal (storedQuantity d).toJson.toDraft = .ok (storedQuantity d) := by
  have hread : Decimal.ofNumeral? (storedQuantity d).toNumeral = some (storedQuantity d) := by
    rw [Decimal.ofNumeral?_toNumeral]
    unfold storedQuantity
    cases h : d.isZero with
    | true => rfl
    | false =>
      have hdigits : (d.minus && d.digits != 0) = d.minus := by
        have hne : d.digits ≠ 0 := by simpa [Decimal.isZero] using h
        simp [hne]
      rw [if_neg (by simp), hdigits, Decimal.ofSign?_self]
  change (Decimal.ofText? (storedQuantity d).toNumeral).elim (Except.error Json.Fault.unfit) Except.ok = _
  rw [Decimal.ofText?, hread]
  rfl

/-- What is kept of a point in time is one. -/
theorem inBounds_storedTime {t : Time} (ht : t.InBounds) : (storedTime t).InBounds := by
  refine ⟨ht.day, ?_⟩
  have hnanos := ht.nanos
  simp only [storedTime]
  omega

end Cells

theorem id_keeps {x : Id} : id.Keeps x x :=
  ofDecoder_keeps (by rintro ⟨⟩) (textAs_eq_ok Id.parse?_text)

theorem text_keeps {s : String} : text.Keeps s s := rfl

theorem bool_keeps {b : Bool} : bool.Keeps b b := rfl

theorem int32_keeps {n : Int} (h : IsInt32 n) : int32.Keeps n n :=
  ofDecoder_keeps (by rintro ⟨⟩) (intBetween_eq_ok h.1 h.2)

theorem int64_keeps {n : Int} (h : IsInt64 n) : int64.Keeps n n :=
  ofDecoder_keeps (by rintro ⟨⟩) (intBetween_eq_ok h.1 h.2)

theorem time_keeps {t : Time} (ht : t.InBounds) : time.Keeps t (storedTime t) := by
  refine ofDecoder_keeps (by rintro ⟨⟩) ?_
  change storedTime <$> Json.Decode.textAs Time.parse? (.str (storedTime t).text) = _
  rw [textAs_eq_ok (inBounds_storedTime ht).parse?_text]
  exact congrArg Except.ok (storedTime_storedTime t)

theorem quantity_keeps {d : Decimal} : quantity.Keeps d (storedQuantity d) := by
  refine ofDecoder_keeps (by rintro ⟨⟩) ?_
  change storedQuantity <$> Json.Decode.decimal (storedQuantity d).toJson.toDraft = _
  rw [decode_storedQuantity]
  exact congrArg Except.ok (storedQuantity_storedQuantity d)

theorem status_keeps {s : Status} : (named Status.naming Status.parse).Keeps s s :=
  named_keeps (by cases s <;> decide)

theorem itemStatus_keeps {s : ItemStatus} : (named ItemStatus.naming ItemStatus.parse).Keeps s s :=
  named_keeps (by cases s <;> decide)

theorem reportStatus_keeps {s : ReportStatus} :
    (named ReportStatus.naming ReportStatus.parse).Keeps s s :=
  named_keeps (by cases s <;> decide)

/-- Where a cell may be without a value, it is read as what is kept of the value that is there. -/
theorem optional_keeps {type : ColumnType α} {keep : α → α} {o : Option α}
    (hnull : ∀ a, type.read .null ≠ .ok a) (h : ∀ a ∈ o, type.Keeps a (keep a)) :
    (optional type).Keeps o (o.map keep) := by
  cases o with
  | none => rfl
  | some a =>
    have ha : type.read (type.write a).toCell = .ok (keep a) := h a rfl
    unfold Keeps
    simp only [optional, Option.elim_some]
    split
    · next heq =>
      rw [heq] at ha
      exact absurd ha (hnull _)
    · rw [ha]
      rfl

theorem optional_text_keeps {o : Option String} : (optional text).Keeps o o := by
  cases o <;> rfl

theorem optional_id_keeps {o : Option Id} : (optional id).Keeps o o := by
  have h : (optional id).Keeps o (o.map fun x => x) :=
    optional_keeps (by rintro a ⟨⟩) fun _ _ => id_keeps
  rwa [Option.map_id'] at h

theorem optional_time_keeps {o : Option Time} (h : ∀ t ∈ o, t.InBounds) :
    (optional time).Keeps o (o.map storedTime) :=
  optional_keeps (by rintro a ⟨⟩) fun t ht => time_keeps (h t ht)

theorem optional_quantity_keeps {o : Option Decimal} :
    (optional quantity).Keeps o (o.map storedQuantity) :=
  optional_keeps (by rintro a ⟨⟩) fun _ _ => quantity_keeps

end ColumnType

namespace Columns

/-- A row holds a record if it has the cells that the record fills. -/
def Holds (c : Columns ρ α) (row : Row) (r : ρ) : Prop := ∀ p ∈ c.row r, cell row p.1 = p.2

/-- A row holds for each column what the record that is picked for it fills the column with. -/
def Mixes (c : Columns ρ α) (row : Row) (pick : String → ρ) : Prop :=
  ∀ r, ∀ p ∈ c.row r, pick p.1 = r → cell row p.1 = p.2

/-- What columns keep of valid records: a row that holds one is read as what is kept of it, and a row
can be read if each of its cells comes from one. -/
structure Keep (c : Columns ρ α) (valid : ρ → Prop) (kept : ρ → α) : Prop where
  length : ∀ r, c.names.length = (c.parameters r).length
  read : ∀ row r, valid r → c.Holds row r → c.read row = .ok (kept r)
  legible : ∀ row pick, (∀ name, valid (pick name)) → c.Mixes row pick → ∃ a, c.read row = .ok a

variable {valid : ρ → Prop}

theorem keep_column {name : String} {type : ColumnType α} {get keep : ρ → α}
    (h : ∀ r, valid r → type.Keeps (get r) (keep r)) :
    (column name type get).Keep valid keep := by
  have hread : ∀ row r, valid r → cell row name = (type.write (get r)).toCell →
      (column name type get).read row = .ok (keep r) := by
    intro row r hr hcell
    change (type.read (cell row name)).mapError _ = _
    rw [hcell, h r hr]
    rfl
  exact ⟨fun _ => rfl, fun row r hr hrow => hread row r hr (hrow _ (List.mem_singleton_self _)),
    fun row pick hpick hrow => ⟨keep (pick name), hread row (pick name) (hpick name)
      (hrow (pick name) _ (List.mem_singleton_self _) rfl)⟩⟩

theorem Keep.map {c : Columns ρ α} {kept : ρ → α} (h : c.Keep valid kept) (f : α → β) :
    (f <$> c).Keep valid fun r => f (kept r) where
  length := h.length
  read row r hr hrow := by
    change (c.read row).map f = _
    rw [h.read row r hr hrow]
    rfl
  legible row pick hpick hrow := by
    obtain ⟨a, ha⟩ := h.legible row pick hpick hrow
    refine ⟨f a, ?_⟩
    change (c.read row).map f = _
    rw [ha]
    rfl

theorem Keep.seq {f : Columns ρ (α → β)} {a : Columns ρ α} {keptF : ρ → α → β} {keptA : ρ → α}
    (hf : f.Keep valid keptF) (ha : a.Keep valid keptA) :
    (f <*> a).Keep valid fun r => keptF r (keptA r) := by
  have hrow : ∀ r, (f <*> a).row r = f.row r ++ a.row r := by
    intro r
    change (f.names ++ a.names).zip ((f.parameters r ++ a.parameters r).map Parameter.toCell) = _
    rw [List.map_append, List.zip_append (by rw [hf.length r, List.length_map])]
    rfl
  have hread : ∀ {row g x}, f.read row = .ok g → a.read row = .ok x →
      (f <*> a).read row = .ok (g x) := by
    intro row g x hg hx
    change (do
      let g ← f.read row
      let x ← a.read row
      Except.ok (g x)) = _
    rw [hg, hx]
    rfl
  refine ⟨fun r => ?_, fun row r hr hcells => ?_, fun row pick hpick hcells => ?_⟩
  · change (f.names ++ a.names).length = (f.parameters r ++ a.parameters r).length
    rw [List.length_append, List.length_append, hf.length, ha.length]
  · exact hread
      (hf.read row r hr fun p hp => hcells p (hrow r ▸ List.mem_append_left _ hp))
      (ha.read row r hr fun p hp => hcells p (hrow r ▸ List.mem_append_right _ hp))
  · obtain ⟨g, hg⟩ := hf.legible row pick hpick fun r p hp =>
      hcells r p (hrow r ▸ List.mem_append_left _ hp)
    obtain ⟨x, hx⟩ := ha.legible row pick hpick fun r p hp =>
      hcells r p (hrow r ▸ List.mem_append_right _ hp)
    exact ⟨g x, hread hg hx⟩

/-- The cells that a record fills are those of its parameters. -/
theorem mem_row_iff {c : Columns ρ α} {r : ρ} {p : String × Json} :
    p ∈ c.row r ↔ ∃ parameter, (p.1, parameter) ∈ c.named r ∧ parameter.toCell = p.2 := by
  rw [row, List.zip_map_right, List.mem_map]
  constructor
  · rintro ⟨⟨name, parameter⟩, hmem, rfl⟩
    exact ⟨parameter, hmem, rfl⟩
  · rintro ⟨parameter, hmem, hcell⟩
    exact ⟨(p.1, parameter), hmem, Prod.ext rfl hcell⟩

/-- A row can be read that holds some cells of one record and the others of another one. -/
theorem Keep.read_parts {c : Columns ρ α} {kept : ρ → α} {row : Row} {r q : ρ}
    (h : c.Keep valid kept) (own : String → Prop) (hr : valid r) (hq : valid q)
    (hown : ∀ p ∈ c.row r, own p.1 → cell row p.1 = p.2)
    (hother : ∀ p ∈ c.row q, ¬ own p.1 → cell row p.1 = p.2) : ∃ a, c.read row = .ok a := by
  classical
  refine h.legible row (fun name => if own name then r else q) (fun name => ?_) ?_
  · split
    · exact hr
    · exact hq
  · intro record p hp hpick
    by_cases howns : own p.1
    · obtain rfl : r = record := (if_pos howns).symm.trans hpick
      exact hown p hp howns
    · obtain rfl : q = record := (if_neg howns).symm.trans hpick
      exact hother p hp howns

end Columns

open ColumnType

theorem keep_mark {milestone : Milestone} {get : ρ → Mark} {valid : ρ → Prop}
    (h : ∀ r, valid r → ∀ t ∈ (get r).time, t.InBounds) :
    (markColumns milestone get).Keep valid fun r => (get r).seen storedTime :=
  ((keep_column fun _ _ => optional_id_keeps).map Mark.mk).seq
    (keep_column fun r hr => optional_time_keeps (h r hr))

/-- A count is kept with its points in time in microseconds. -/
theorem keep_count : countColumns.Keep Count.InBounds (Count.seen storedTime) := by
  delta countColumns
  refine .seq (.seq (.seq (.seq (.seq (.seq (.seq (.seq (.seq (.seq (.seq (.seq (.seq (.seq (.seq (.seq
    (.map ?id _) ?tenant) ?warehouse) ?sequence) ?name) ?notes) ?status) ?current) ?total)
    ?createdBy) ?createdAt) ?started) ?completed) ?approved) ?closed) ?cancelled) ?updatedAt
  case sequence => exact keep_column fun c hc => int64_keeps hc.sequence
  case current => exact keep_column fun c hc => int32_keeps hc.currentVersion
  case total => exact keep_column fun c hc => int32_keeps hc.totalVersions
  case createdAt => exact keep_column fun c hc => time_keeps hc.createdAt
  case updatedAt => exact keep_column fun c hc => time_keeps hc.updatedAt
  case status => exact keep_column fun _ _ => status_keeps
  case name | notes => exact keep_column fun _ _ => optional_text_keeps
  case id | tenant | warehouse | createdBy => exact keep_column fun _ _ => id_keeps
  all_goals exact keep_mark fun c hc => hc.marks _ (by simp)

/-- An item is kept but for the scale and the sign of a zero, with its points in time in
microseconds. -/
theorem keep_item : itemColumns.Keep Item.InBounds (Item.seen storedTime) := by
  delta itemColumns
  refine .seq (.seq (.seq (.seq (.seq (.seq (.seq (.seq (.seq (.seq (.seq (.seq (.seq (.seq (.seq (.seq
    (.seq (.seq (.seq (.seq (.seq (.seq (.seq (.map ?id _) ?count) ?location) ?code) ?name) ?uom)
    ?pack) ?system) ?counted) ?previous) ?version) ?status) ?variance) ?difference) ?percent) ?cost)
    ?price) ?barcodes) ?category) ?brand) ?countedBy) ?countedAt) ?createdAt) ?updatedAt
  case version => exact keep_column fun i hi => int32_keeps hi.version
  case countedAt => exact keep_column fun i hi => optional_time_keeps hi.countedAt
  case createdAt => exact keep_column fun i hi => time_keeps hi.createdAt
  case updatedAt => exact keep_column fun i hi => time_keeps hi.updatedAt
  case status => exact keep_column fun _ _ => itemStatus_keeps
  case variance => exact keep_column fun _ _ => bool_keeps
  case system => exact keep_column fun _ _ => quantity_keeps
  case countedBy => exact keep_column fun _ _ => optional_id_keeps
  case id | count | location => exact keep_column fun _ _ => id_keeps
  case code | name => exact keep_column fun _ _ => text_keeps
  case uom | barcodes | category | brand => exact keep_column fun _ _ => optional_text_keeps
  all_goals exact keep_column fun _ _ => optional_quantity_keeps

/-- What is kept of an item within its bounds is within them. -/
theorem inBounds_keptItem {i : Item} (hi : i.InBounds) : (i.seen storedTime).InBounds where
  version := hi.version
  countedAt := by
    intro t ht
    obtain ⟨u, hu, rfl⟩ := Option.mem_map.mp ht
    exact inBounds_storedTime (hi.countedAt u hu)
  createdAt := inBounds_storedTime hi.createdAt
  updatedAt := inBounds_storedTime hi.updatedAt

theorem keep_report : reportColumns.Keep Report.InBounds (Report.seen storedTime) := by
  delta reportColumns
  refine .seq (.seq (.seq (.seq (.seq (.seq (.seq (.seq (.seq (.seq (.seq (.seq (.seq (.seq
    (.map ?id _) ?count) ?item) ?version) ?code) ?system) ?counted) ?difference) ?percent) ?status)
    ?resolution) ?resolvedBy) ?resolvedAt) ?createdAt) ?updatedAt
  case version => exact keep_column fun r hr => int32_keeps hr.version
  case resolvedAt => exact keep_column fun r hr => optional_time_keeps hr.resolvedAt
  case createdAt => exact keep_column fun r hr => time_keeps hr.createdAt
  case updatedAt => exact keep_column fun r hr => time_keeps hr.updatedAt
  case status => exact keep_column fun _ _ => reportStatus_keeps
  case code => exact keep_column fun _ _ => text_keeps
  case resolution => exact keep_column fun _ _ => optional_text_keeps
  case resolvedBy => exact keep_column fun _ _ => optional_id_keeps
  case id | count | item => exact keep_column fun _ _ => id_keeps
  all_goals exact keep_column fun _ _ => quantity_keeps

end Database

end Recount
