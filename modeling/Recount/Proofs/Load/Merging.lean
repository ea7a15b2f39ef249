import Mathlib.Algebra.BigOperators.Group.List.Basic
import Mathlib.Data.List.Forall2
import Mathlib.Data.List.Induction
import Mathlib.Data.List.Nodup
import Recount.Load.Record
import Recount.Proofs.Decimal.Rounding
import Recount.Proofs.Decimal.Value
import Recount.Proofs.Result

/-!
# Merged records

Merging gathers what the records of one code say: the sum of the quantities that are given, and the
first value of every other field. As long as the sums can be denoted, what is gathered from two
lists of records comes from the records that were gathered from each of them.
-/

namespace Recount

section Distinct

variable {α : Type} [DecidableEq α] {a : α} {l l' : List α}

theorem eraseDups_concat :
    (l ++ [a]).eraseDups = if a ∈ l then l.eraseDups else l.eraseDups ++ [a] := by
  rw [List.eraseDups_append]
  split <;> simp_all [List.removeAll, List.eraseDups_cons]

theorem nodup_eraseDups (l : List α) : l.eraseDups.Nodup := by
  induction l using List.reverseRecOn with
  | nil => exact List.nodup_nil
  | append_singleton l a ih =>
    rw [eraseDups_concat]
    split
    · exact ih
    · next hnew =>
      rw [← List.concat_eq_append]
      exact ih.concat fun hmem => hnew (List.mem_eraseDups.mp hmem)

theorem eraseDups_of_nodup (h : l.Nodup) : l.eraseDups = l := by
  induction l using List.reverseRecOn with
  | nil => rfl
  | append_singleton l a ih =>
    obtain ⟨hl, -, hdisjoint⟩ := List.nodup_append.mp h
    have hnew : a ∉ l := fun hmem => hdisjoint a hmem a (List.mem_singleton_self a) rfl
    rw [eraseDups_concat, if_neg hnew, ih hl]

/-- The first occurrences in two lists are those among the first occurrences in each of them. -/
theorem eraseDups_append_eraseDups :
    (l.eraseDups ++ l'.eraseDups).eraseDups = (l ++ l').eraseDups := by
  induction l' using List.reverseRecOn with
  | nil => simp [eraseDups_of_nodup (nodup_eraseDups l)]
  | append_singleton l' a ih =>
    rw [eraseDups_concat, ← List.append_assoc, eraseDups_concat]
    by_cases hmem : a ∈ l'
    · rw [if_pos hmem, ih, if_pos (List.mem_append_right l hmem)]
    · rw [if_neg hmem, ← List.append_assoc, eraseDups_concat, ih]
      simp only [List.mem_append, List.mem_eraseDups]

end Distinct

namespace ItemRecord

/-- What a record says of its item, with the quantity as a number. -/
structure Content where
  name : Option String
  systemQty : Option ℚ
  uom : Option String
  packQty : Option Decimal
  cost : Option Decimal
  price : Option Decimal
  barcodes : Option String
  category : Option String
  brand : Option String

def content (r : ItemRecord) : Content :=
  ⟨r.name, r.systemQty.map Decimal.value, r.uom, r.packQty, r.cost, r.price, r.barcodes, r.category,
    r.brand⟩

/-- The quantities that records give. -/
def quantities (rows : List ItemRecord) : List ℚ :=
  rows.filterMap fun r => r.systemQty.map Decimal.value

/-- The sum of the quantities, if any is given. -/
def total? (rows : List ItemRecord) : Option ℚ :=
  if quantities rows = [] then none else some (quantities rows).sum

/-- What records say of one item: the sum of the quantities, and the first value of each other
field. -/
def contentOf (rows : List ItemRecord) : Content where
  name := rows.findSome? (·.name)
  systemQty := total? rows
  uom := rows.findSome? (·.uom)
  packQty := rows.findSome? (·.packQty)
  cost := rows.findSome? (·.cost)
  price := rows.findSome? (·.price)
  barcodes := rows.findSome? (·.barcodes)
  category := rows.findSome? (·.category)
  brand := rows.findSome? (·.brand)

/-- The records with a code. -/
def ofCode (code : String) (records : List ItemRecord) : List ItemRecord :=
  records.filter fun r => r.code = code

/-- One record for every code, in the order in which the codes occur first, with what the records
of this code say together. -/
def Gathered (records merged : List ItemRecord) : Prop :=
  List.Forall₂ (fun code m => m.code = code ∧ m.content = contentOf (ofCode code records))
    (records.map (·.code)).eraseDups merged

/-- Whichever records of one code are picked, there is a decimal for the sum of their quantities. -/
def SumsDenoted (records : List ItemRecord) : Prop :=
  ∀ code rows, rows.Sublist (ofCode code records) →
    ∃ d : Decimal, d.value = (quantities rows).sum

/-- There is a decimal for each sum that comes up when the quantities of a code are added one after
the other. -/
def AddsExactly (records : List ItemRecord) : Prop :=
  ∀ code qs, qs <+: quantities (ofCode code records) → ∃ d : Decimal, d.value = qs.sum

/-- Two records of one code with the same content. -/
def Same (a b : ItemRecord) : Prop := a.code = b.code ∧ a.content = b.content

variable {a b m record : ItemRecord} {records rows rows' xs ys merged mx my : List ItemRecord}
  {code : String}

section Content

/-- What is said first, and what is said then. -/
def Content.join (a b : Content) : Content where
  name := a.name.or b.name
  systemQty := a.systemQty.merge (· + ·) b.systemQty
  uom := a.uom.or b.uom
  packQty := a.packQty.or b.packQty
  cost := a.cost.or b.cost
  price := a.price.or b.price
  barcodes := a.barcodes.or b.barcodes
  category := a.category.or b.category
  brand := a.brand.or b.brand

theorem quantities_append : quantities (rows ++ rows') = quantities rows ++ quantities rows' :=
  List.filterMap_append

theorem total?_append :
    total? (rows ++ rows') = (total? rows).merge (· + ·) (total? rows') := by
  unfold total?
  rw [quantities_append]
  by_cases h : quantities rows = [] <;> by_cases h' : quantities rows' = [] <;> simp [h, h']

theorem getD_total? : (total? rows).getD 0 = (quantities rows).sum := by
  unfold total?
  split
  · next hnone => simp [hnone]
  · rfl

theorem total?_eq_none_iff : total? rows = none ↔ quantities rows = [] := by
  simp [total?]

/-- A quantity that is the sum of others is theirs, and zero if there are none. -/
theorem value_getD_systemQty (h : m.systemQty.map Decimal.value = total? rows) :
    (m.systemQty.getD .zero).value = (quantities rows).sum := by
  have hzero : Decimal.value .zero = 0 := Decimal.value_eq_zero_iff.mpr rfl
  calc (m.systemQty.getD .zero).value = (m.systemQty.map Decimal.value).getD 0 := by
        rw [← hzero, Option.getD_map]
    _ = (quantities rows).sum := by rw [h, getD_total?]

theorem contentOf_append :
    contentOf (rows ++ rows') = (contentOf rows).join (contentOf rows') := by
  simp only [contentOf, Content.join, List.findSome?_append, total?_append]

theorem contentOf_singleton (r : ItemRecord) : contentOf [r] = r.content := by
  have hsum : total? [r] = r.systemQty.map Decimal.value := by
    unfold total? quantities
    cases hq : r.systemQty <;> simp [hq]
  simp only [contentOf, content, hsum, List.findSome?_singleton]

/-- Records are merged into one that says what both say, if there is a decimal for the sum. -/
theorem exists_merge (hdenoted : ∀ q ∈ (a.content.join b.content).systemQty,
      ∃ d : Decimal, d.value = q) :
    ∃ m, a.merge b = .ok m ∧ m.code = a.code ∧ m.content = a.content.join b.content := by
  obtain ⟨sum, hsum, hvalue⟩ : ∃ sum, addQty a.systemQty b.systemQty = .ok sum ∧
      sum.map Decimal.value = (a.content.join b.content).systemQty := by
    dsimp only [content, Content.join] at hdenoted ⊢
    cases ha : a.systemQty with
    | none => exact ⟨b.systemQty, rfl, by simp⟩
    | some x =>
      cases hb : b.systemQty with
      | none => exact ⟨some x, rfl, rfl⟩
      | some y =>
        rw [ha, hb] at hdenoted
        obtain ⟨d, hd⟩ := hdenoted (x.value + y.value) rfl
        obtain ⟨sum, hsum⟩ := Decimal.exists_add_iff.mpr (hd ▸ Decimal.inRange_value)
        refine ⟨some sum, map_eq_ok_iff.mpr ⟨sum, hsum, rfl⟩, ?_⟩
        exact congrArg some (Decimal.add_value hsum ⟨d, hd⟩)
  refine ⟨_, map_eq_ok_iff.mpr ⟨sum, hsum, rfl⟩, rfl, ?_⟩
  simp only [content, hvalue]
  rfl

end Content

section Absorbing

/-- Absorbing a record merges it into the one of its code, or appends it. -/
theorem exists_absorb {P Q : String → ItemRecord → Prop} {codes : List String}
    (h : List.Forall₂ P codes merged) (hcode : ∀ code m, P code m → m.code = code)
    (hnodup : codes.Nodup)
    (hmerge : ∀ m ∈ merged, P record.code m →
      ∃ both, m.merge record = .ok both ∧ Q record.code both)
    (hnew : record.code ∉ codes → Q record.code record)
    (hkeep : ∀ code m, code ≠ record.code → P code m → Q code m) :
    ∃ next, absorb record merged = .ok next ∧
      List.Forall₂ Q (if record.code ∈ codes then codes else codes ++ [record.code]) next := by
  induction h with
  | nil => exact ⟨[record], rfl, .cons (hnew List.not_mem_nil) .nil⟩
  | @cons code m codes rest hm hrest ih =>
    obtain ⟨hfirst, hnodup⟩ := List.nodup_cons.mp hnodup
    unfold absorb
    rw [hcode code m hm]
    by_cases heq : code = record.code
    · subst heq
      obtain ⟨both, hboth, hQ⟩ := hmerge m List.mem_cons_self hm
      refine ⟨both :: rest, ?_, ?_⟩
      · rw [if_pos rfl, hboth]
        rfl
      · rw [if_pos List.mem_cons_self]
        refine .cons hQ ((List.forall₂_and_left _ _).mpr ⟨fun code hmem => ?_, hrest⟩ |>.imp
          fun code m ⟨hne, hP⟩ => hkeep code m hne hP)
        rintro rfl
        exact hfirst hmem
    · have hne : record.code ≠ code := fun h => heq h.symm
      have hmem : record.code ∈ code :: codes ↔ record.code ∈ codes := by simp [hne]
      obtain ⟨next, hnext, hQ⟩ := ih hnodup (fun m hm => hmerge m (List.mem_cons_of_mem _ hm))
        fun hnot => hnew (mt hmem.mp hnot)
      refine ⟨m :: next, ?_, ?_⟩
      · rw [if_neg heq, hnext]
        rfl
      · simp only [hmem]
        split <;> rename_i hcodes
        · rw [if_pos hcodes] at hQ
          exact .cons (hkeep code m heq hm) hQ
        · rw [if_neg hcodes] at hQ
          exact .cons (hkeep code m heq hm) hQ

end Absorbing

section Gathering

theorem ofCode_append : ofCode code (xs ++ ys) = ofCode code xs ++ ofCode code ys :=
  List.filter_append _ _

theorem ofCode_eq_nil_iff : ofCode code records = [] ↔ code ∉ records.map (·.code) := by
  simp [ofCode]

theorem ofCode_concat_self :
    ofCode record.code (records ++ [record]) = ofCode record.code records ++ [record] := by
  rw [ofCode_append]
  simp [ofCode]

theorem ofCode_concat_of_ne (h : code ≠ record.code) :
    ofCode code (records ++ [record]) = ofCode code records := by
  have hnone : ofCode code [record] = [] := ofCode_eq_nil_iff.mpr (by simpa using h)
  rw [ofCode_append, hnone, List.append_nil]

theorem SumsDenoted.addsExactly (h : SumsDenoted records) : AddsExactly records := by
  intro code qs hqs
  obtain ⟨rows, hrows, rfl⟩ := List.sublist_filterMap_iff.mp hqs.sublist
  exact h code rows hrows

theorem AddsExactly.of_append (h : AddsExactly (xs ++ ys)) : AddsExactly xs := by
  intro code qs hqs
  refine h code qs (hqs.trans ?_)
  rw [ofCode_append, quantities_append]
  exact List.prefix_append _ _

/-- If all sums on the way can be denoted, records are gathered without an overflow. -/
theorem AddsExactly.exists_dedupe (h : AddsExactly records) :
    ∃ merged, dedupe records = .ok merged ∧ Gathered records merged := by
  unfold dedupe Gathered
  induction records using List.reverseRecOn with
  | nil => exact ⟨[], rfl, .nil⟩
  | append_singleton records record ih =>
    obtain ⟨before, hbefore, hgathered⟩ := ih h.of_append
    have hdenoted : ∀ q ∈ total? (ofCode record.code records ++ [record]),
        ∃ d : Decimal, d.value = q := by
      intro q hq
      obtain ⟨d, hd⟩ := h record.code _ (List.prefix_refl _)
      rw [ofCode_concat_self, ← getD_total?, Option.mem_def.mp hq, Option.getD_some] at hd
      exact ⟨d, hd⟩
    have hstep : ∃ merged, absorb record before = .ok merged ∧ List.Forall₂
        (fun code m => m.code = code ∧ m.content = contentOf (ofCode code (records ++ [record])))
        (if record.code ∈ (records.map (·.code)).eraseDups then (records.map (·.code)).eraseDups
          else (records.map (·.code)).eraseDups ++ [record.code]) merged := by
      refine exists_absorb hgathered (fun code m hm => hm.1) (nodup_eraseDups _) ?_ ?_ ?_
      · rintro m - ⟨hcode, hcontent⟩
        have hjoin : m.content.join record.content =
            contentOf (ofCode record.code (records ++ [record])) := by
          rw [ofCode_concat_self, contentOf_append, contentOf_singleton, hcontent]
        obtain ⟨both, hboth, hbothcode, hsaid⟩ := exists_merge (a := m) (b := record) <| by
          rw [hjoin, ofCode_concat_self]
          exact hdenoted
        exact ⟨both, hboth, hbothcode.trans hcode, hsaid.trans hjoin⟩
      · intro hfirst
        rw [List.mem_eraseDups, ← ofCode_eq_nil_iff] at hfirst
        rw [ofCode_concat_self, hfirst, List.nil_append, contentOf_singleton]
        exact ⟨rfl, rfl⟩
      · rintro code m hne ⟨hcode, hcontent⟩
        exact ⟨hcode, (ofCode_concat_of_ne hne).symm ▸ hcontent⟩
    obtain ⟨merged, hmerged, hnext⟩ := hstep
    refine ⟨merged, ?_, ?_⟩
    · rw [List.foldlM_append]
      exact bind_eq_ok_iff.mpr ⟨before, hbefore, bind_eq_ok_iff.mpr ⟨merged, hmerged, rfl⟩⟩
    · rw [List.map_append, List.map_singleton, eraseDups_concat]
      simpa only [List.mem_eraseDups] using hnext

/-- If the sums can be denoted, records are gathered without an overflow. -/
theorem exists_dedupe (h : SumsDenoted records) :
    ∃ merged, dedupe records = .ok merged ∧ Gathered records merged :=
  h.addsExactly.exists_dedupe

theorem codes_of_forall₂ {P : String → ItemRecord → Prop} {codes : List String}
    (h : List.Forall₂ (fun code m => m.code = code ∧ P code m) codes merged) :
    merged.map (·.code) = codes := by
  induction h with
  | nil => rfl
  | cons hm _ ih => rw [List.map_cons, ih, hm.1]

theorem of_mem_forall₂ {P : String → ItemRecord → Prop} {codes : List String}
    (h : List.Forall₂ (fun code m => m.code = code ∧ P code m) codes merged) (hm : m ∈ merged) :
    P m.code m := by
  induction h with
  | nil => exact absurd hm List.not_mem_nil
  | cons hfirst _ ih =>
    rcases List.mem_cons.mp hm with rfl | hm
    · exact hfirst.1 ▸ hfirst.2
    · exact ih hm

theorem Gathered.codes (h : Gathered records merged) :
    merged.map (·.code) = (records.map (·.code)).eraseDups :=
  codes_of_forall₂ h

/-- Of different codes, each one that was gathered has one record. -/
theorem exists_ofCode_eq {P : String → ItemRecord → Prop} {codes : List String}
    (h : List.Forall₂ (fun code m => m.code = code ∧ P code m) codes merged) (hnodup : codes.Nodup)
    (hmem : code ∈ codes) : ∃ m, ofCode code merged = [m] ∧ P code m := by
  induction h with
  | nil => exact absurd hmem List.not_mem_nil
  | @cons other m codes rest hm hrest ih =>
    obtain ⟨hfirst, hothers⟩ := List.nodup_cons.mp hnodup
    by_cases heq : code = other
    · subst heq
      have hnone : ofCode code rest = [] := by
        rwa [ofCode_eq_nil_iff, codes_of_forall₂ hrest]
      refine ⟨m, ?_, hm.2⟩
      rw [ofCode, List.filter_cons_of_pos (by simpa using hm.1)]
      exact congrArg (m :: ·) hnone
    · obtain ⟨m', hm', hP⟩ := ih hothers ((List.mem_cons.mp hmem).resolve_left heq)
      refine ⟨m', ?_, hP⟩
      rwa [ofCode, List.filter_cons_of_neg (by simpa [hm.1] using fun h => heq h.symm)]

/-- What was gathered has the records of a code together say what these records said. -/
theorem Gathered.contentOf_ofCode (h : Gathered records merged) (code : String) :
    contentOf (ofCode code merged) = contentOf (ofCode code records) := by
  by_cases hmem : code ∈ records.map (·.code)
  · obtain ⟨m, hm, hcontent⟩ := exists_ofCode_eq h (nodup_eraseDups _) (List.mem_eraseDups.mpr hmem)
    rw [hm, contentOf_singleton, hcontent]
  · have hnone : ofCode code merged = [] := by
      rwa [ofCode_eq_nil_iff, h.codes, List.mem_eraseDups]
    rw [hnone, ofCode_eq_nil_iff.mpr hmem]

/-- What is gathered from records that were gathered is gathered from all their records. -/
theorem Gathered.append (hx : Gathered xs mx) (hy : Gathered ys my)
    (h : Gathered (mx ++ my) merged) : Gathered (xs ++ ys) merged := by
  unfold Gathered at h ⊢
  rw [List.map_append, hx.codes, hy.codes, eraseDups_append_eraseDups, ← List.map_append] at h
  refine h.imp fun code m ⟨hcode, hcontent⟩ => ⟨hcode, hcontent.trans ?_⟩
  rw [ofCode_append, ofCode_append, contentOf_append, contentOf_append, hx.contentOf_ofCode,
    hy.contentOf_ofCode]

/-- What is gathered from records is the same up to the forms of the quantities. -/
theorem Gathered.same (h : Gathered records mx) (h' : Gathered records my) :
    List.Forall₂ Same mx my := by
  unfold Gathered at h h'
  generalize (records.map (·.code)).eraseDups = codes at h h'
  induction h generalizing my with
  | nil =>
    cases h'
    exact .nil
  | cons hm _ ih =>
    cases h' with
    | cons hm' hrest => exact .cons ⟨hm.1.trans hm'.1.symm, hm.2.trans hm'.2.symm⟩ (ih hrest)

/-- The order of the records makes no difference to the sums. -/
theorem SumsDenoted.perm (h : SumsDenoted xs) (hperm : ys.Perm xs) : SumsDenoted ys := by
  intro code rows hrows
  obtain ⟨rows', hrows', hsub⟩ := hrows.subperm.trans (hperm.filter _).subperm
  obtain ⟨d, hd⟩ := h code rows' hsub
  exact ⟨d, hd.trans (hrows'.filterMap _).sum_eq⟩

end Gathering

section Levelling

/-- The record with a quantity of zero, if it has a quantity. Merging does to such records what it
does to records, but for the sums. -/
def levelled (r : ItemRecord) : ItemRecord :=
  { r with systemQty := r.systemQty.map fun _ => .zero }

theorem merge_levelled (h : a.merge b = .ok m) : a.levelled.merge b.levelled = .ok m.levelled := by
  obtain ⟨sum, hsum, rfl⟩ := map_eq_ok_iff.mp h
  refine map_eq_ok_iff.mpr ⟨sum.map fun _ => .zero, ?_, rfl⟩
  unfold levelled
  cases ha : a.systemQty with
  | none =>
    rw [ha] at hsum
    cases hsum
    rfl
  | some x =>
    cases hb : b.systemQty with
    | none =>
      rw [ha, hb] at hsum
      cases hsum
      rfl
    | some y =>
      rw [ha, hb] at hsum
      obtain ⟨z, -, rfl⟩ := map_eq_ok_iff.mp hsum
      rfl

theorem absorb_levelled (h : absorb record records = .ok merged) :
    absorb record.levelled (records.map levelled) = .ok (merged.map levelled) := by
  induction records generalizing merged with
  | nil =>
    cases h
    rfl
  | cons r rest ih =>
    have hcode : r.levelled.code = record.levelled.code ↔ r.code = record.code := Iff.rfl
    unfold absorb at h
    rw [List.map_cons]
    unfold absorb
    simp only [hcode]
    split at h
    · next heq =>
      obtain ⟨both, hboth, rfl⟩ := map_eq_ok_iff.mp h
      rw [if_pos heq, merge_levelled hboth]
      rfl
    · next hne =>
      obtain ⟨rest', hrest, rfl⟩ := map_eq_ok_iff.mp h
      rw [if_neg hne, ih hrest]
      rfl

theorem dedupe_levelled (h : dedupe records = .ok merged) :
    dedupe (records.map levelled) = .ok (merged.map levelled) := by
  have hfold : ∀ before, records.foldlM (fun merged record => absorb record merged) before =
      .ok merged → (records.map levelled).foldlM (fun merged record => absorb record merged)
        (before.map levelled) = .ok (merged.map levelled) := by
    clear h
    induction records with
    | nil =>
      rintro before h
      cases h
      rfl
    | cons record records ih =>
      intro before h
      obtain ⟨next, hnext, hrest⟩ := bind_eq_ok_iff.mp h
      exact bind_eq_ok_iff.mpr ⟨next.map levelled, absorb_levelled hnext, ih next hrest⟩
  exact hfold [] h

theorem ofCode_map_levelled :
    ofCode code (records.map levelled) = (ofCode code records).map levelled :=
  List.filter_map

theorem quantities_map_levelled :
    quantities (rows.map levelled) = (quantities rows).map fun _ => 0 := by
  have hzero : Decimal.value .zero = 0 := Decimal.value_eq_zero_iff.mpr rfl
  simp [quantities, levelled, List.map_filterMap, Function.comp_def, hzero]

theorem addsExactly_levelled : AddsExactly (records.map levelled) := by
  intro code qs hqs
  refine ⟨.zero, ?_⟩
  have hnone : ∀ q ∈ qs, q = 0 := by
    intro q hq
    have hmem := hqs.subset hq
    rw [ofCode_map_levelled, quantities_map_levelled] at hmem
    obtain ⟨_, -, rfl⟩ := List.mem_map.mp hmem
    rfl
  rw [List.sum_eq_zero hnone]
  exact Decimal.value_eq_zero_iff.mpr rfl

/-- Whatever its sum is, a merged record says of everything else what the records of its code say
first, and it has a quantity if they give one. -/
theorem content_of_dedupe (h : dedupe records = .ok merged) (hm : m ∈ merged) :
    { m.content with systemQty := none } =
        { contentOf (ofCode m.code records) with systemQty := none } ∧
      (m.systemQty = none ↔ quantities (ofCode m.code records) = []) := by
  have hexact : AddsExactly (records.map levelled) := addsExactly_levelled
  obtain ⟨levels, hlevels, hgathered⟩ := hexact.exists_dedupe
  cases (dedupe_levelled h).symm.trans hlevels
  have hsame := of_mem_forall₂ hgathered (List.mem_map_of_mem hm)
  have hcode : m.levelled.code = m.code := rfl
  rw [hcode, ofCode_map_levelled] at hsame
  simp only [content, contentOf, Content.mk.injEq, List.findSome?_map] at hsame ⊢
  obtain ⟨hname, hqty, huom, hpack, hcost, hprice, hbarcodes, hcategory, hbrand⟩ := hsame
  refine ⟨⟨hname, trivial, huom, hpack, hcost, hprice, hbarcodes, hcategory, hbrand⟩, ?_⟩
  have hnone : m.levelled.systemQty.map Decimal.value = none ↔
      total? ((ofCode m.code records).map levelled) = none := by rw [hqty]
  rw [total?_eq_none_iff, quantities_map_levelled, List.map_eq_nil_iff] at hnone
  simpa [levelled] using hnone

end Levelling

end ItemRecord
end Recount
