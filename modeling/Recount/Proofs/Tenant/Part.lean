import Mathlib.Data.Prod.Lex
import Mathlib.Data.String.Basic
import Recount.Proofs.Store.Mappings
import Recount.Proofs.Store.Sound

/-!
# What a store holds of a tenant

A tenant has counts, with their items, reports and attempts, and mappings. What is read of them is
the same in two stores that hold the same of the tenant, whatever they hold of others and in
whichever order.
-/

namespace Recount

section Lists

variable {α β : Type} {l l' : List α} {p : α → Bool} {id : α → Id} {a : Id}

/-- What is the only one of its kind in a list is found in another list that has the same of its
kind. -/
theorem find?_congr (hmem : ∀ x, p x = true → (x ∈ l ↔ x ∈ l'))
    (honly : ∀ x ∈ l', ∀ y ∈ l', p x = true → p y = true → x = y) : l.find? p = l'.find? p := by
  cases hfound : l'.find? p with
  | none =>
    rw [List.find?_eq_none] at hfound ⊢
    exact fun x hx hp => hfound x ((hmem x hp).mp hx) hp
  | some y =>
    have hy := List.mem_of_find?_eq_some hfound
    have hpy := List.find?_some hfound
    have hsome : (l.find? p).isSome = true := List.find?_isSome.mpr ⟨y, (hmem y hpy).mpr hy, hpy⟩
    obtain ⟨x, hx⟩ := Option.isSome_iff_exists.mp hsome
    have hpx := List.find?_some hx
    rw [hx, honly x ((hmem x hpx).mp (List.mem_of_find?_eq_some hx)) y hy hpx hpy]

theorem any_congr (hmem : ∀ x, p x = true → (x ∈ l ↔ x ∈ l')) : l.any p = l'.any p := by
  rw [Bool.eq_iff_iff, List.any_eq_true, List.any_eq_true]
  exact exists_congr fun x => and_congr_left (hmem x)

theorem filter_perm (hl : (l.map id).Nodup) (hl' : (l'.map id).Nodup)
    (hmem : ∀ x, p x = true → (x ∈ l ↔ x ∈ l')) : (l.filter p).Perm (l'.filter p) := by
  rw [List.perm_ext_iff_of_nodup ((List.Nodup.of_map id hl).filter p)
    ((List.Nodup.of_map id hl').filter p)]
  intro x
  rw [List.mem_filter, List.mem_filter]
  exact and_congr_left (hmem x)

/-- An entry with an identifier and of a kind is the same in two lists that have the same of this
kind. -/
theorem filter_find?_congr (hl : (l.map id).Nodup) (hl' : (l'.map id).Nodup)
    (hmem : ∀ x, p x = true → (x ∈ l ↔ x ∈ l')) :
    (l.find? fun x => id x = a).filter p = (l'.find? fun x => id x = a).filter p := by
  refine Option.ext fun x => ?_
  rw [Option.filter_eq_some_iff, Option.filter_eq_some_iff, find?_id_eq_some_iff hl,
    find?_id_eq_some_iff hl']
  exact and_congr_left fun hp => and_congr_left' (hmem x hp)

/-- Two lists have the same entries, in one order up to entries with one key. -/
def SameUpTo (key : α → β) (l l' : List α) : Prop := l.Perm l' ∧ l.map key = l'.map key

/-- Keys may be told apart by something else. -/
theorem SameUpTo.of_injective {γ : Type} {key : α → γ} {f : γ → β} (hf : Function.Injective f)
    (h : SameUpTo (fun x => f (key x)) l l') : SameUpTo key l l' := by
  refine ⟨h.1, List.map_injective_iff.mpr hf ?_⟩
  rw [List.map_map, List.map_map]
  exact h.2

variable [LinearOrder β] {key : α → β} {le : α → α → Bool}

theorem pairwise_mergeSort (hle : ∀ x y, le x y = true ↔ key x ≤ key y) (l : List α) :
    (l.mergeSort le).Pairwise fun x y => key x ≤ key y := by
  refine (List.pairwise_mergeSort ?_ ?_ l).imp fun h => (hle _ _).mp h
  · exact fun x y z hxy hyz => (hle x z).mpr (((hle x y).mp hxy).trans ((hle y z).mp hyz))
  · intro x y
    rw [Bool.or_eq_true, hle, hle]
    exact le_total (key x) (key y)

theorem mergeSort_perm_mergeSort (h : l.Perm l') : (l.mergeSort le).Perm (l'.mergeSort le) :=
  ((List.mergeSort_perm l le).trans h).trans (List.mergeSort_perm l' le).symm

/-- Lists are sorted by a key in one order, up to entries with one key. -/
theorem sameUpTo_mergeSort (hle : ∀ x y, le x y = true ↔ key x ≤ key y) (h : l.Perm l') :
    SameUpTo key (l.mergeSort le) (l'.mergeSort le) := by
  have hsorted : ∀ l : List α, ((l.mergeSort le).map key).Pairwise (· ≤ ·) :=
    fun l => List.pairwise_map.mpr (pairwise_mergeSort hle l)
  exact ⟨mergeSort_perm_mergeSort h, ((mergeSort_perm_mergeSort h).map key).eq_of_pairwise
    (fun _ _ _ _ => le_antisymm) (hsorted l) (hsorted l')⟩

/-- Lists are sorted in one order by a key that tells their entries apart. -/
theorem mergeSort_eq (hle : ∀ x y, le x y = true ↔ key x ≤ key y) (h : l.Perm l')
    (honly : ∀ x ∈ l, ∀ y ∈ l, key x = key y → x = y) : l.mergeSort le = l'.mergeSort le := by
  refine (mergeSort_perm_mergeSort h).eq_of_pairwise (fun x y hx hy hxy hyx => ?_)
    (pairwise_mergeSort hle l) (pairwise_mergeSort hle l')
  exact honly x ((List.mergeSort_perm l le).mem_iff.mp hx) y
    (h.mem_iff.mpr ((List.mergeSort_perm l' le).mem_iff.mp hy)) (le_antisymm hxy hyx)

end Lists

section Orders

/-- Items are listed by version, code and location. -/
def Item.rank (i : Item) : ℤ ×ₗ String ×ₗ ℕ :=
  toLex (i.version, toLex (i.code, i.location.val.toNat))

theorem Item.precedes_iff {i j : Item} : i.precedes j = true ↔ i.rank ≤ j.rank := by
  simp only [Item.precedes, Item.rank, Prod.Lex.toLex_le_toLex, Id.le, Bool.or_eq_true,
    Bool.and_eq_true, decide_eq_true_eq]

/-- A point in time by its rank in the order of time. -/
def Time.rank (t : Time) : ℤ ×ₗ ℕ := toLex (t.seconds, t.nanos)

theorem Time.le_iff {t u : Time} : t.le u = true ↔ t.rank ≤ u.rank := by
  simp only [Time.le, Time.rank, Prod.Lex.toLex_le_toLex, Bool.or_eq_true, Bool.and_eq_true,
    decide_eq_true_eq, beq_iff_eq]

theorem Time.rank_injective : Function.Injective Time.rank := by
  rintro ⟨seconds, nanos⟩ ⟨seconds', nanos'⟩ h
  simpa [Time.rank] using h

theorem Id.toNat_injective {x y : Id} (h : x.val.toNat = y.val.toNat) : x = y := by
  cases x
  cases y
  exact congrArg Id.mk (BitVec.eq_of_toNat_eq h)

end Orders

namespace Store

/-- A count of the tenant with this identifier is stored. -/
def Owns (s : Store) (tenant count : Id) : Prop := ∃ c ∈ s.counts, c.id = count ∧ c.tenant = tenant

/-- Two stores hold the same of a tenant: its counts with their items, reports and attempts, and its
mappings. -/
structure SamePart (tenant : Id) (s t : Store) : Prop where
  counts : ∀ c : Count, c.tenant = tenant → (c ∈ s.counts ↔ c ∈ t.counts)
  items : ∀ i : Item, s.Owns tenant i.count → (i ∈ s.items ↔ i ∈ t.items)
  reports : ∀ r : Report, s.Owns tenant r.count → (r ∈ s.reports ↔ r ∈ t.reports)
  /-- Attempts are kept as often as they were recorded. -/
  attempts : ∀ count, s.Owns tenant count →
    (s.attempts.filter (·.count = count)).Perm (t.attempts.filter (·.count = count))
  mappings : ∀ m : Mapping, m.tenant = tenant → (m ∈ s.mappings ↔ m ∈ t.mappings)

variable {tenant count id : Id} {s t : Store}

instance : Decidable (s.Owns tenant count) :=
  inferInstanceAs (Decidable (∃ c ∈ s.counts, c.id = count ∧ c.tenant = tenant))

theorem SamePart.refl : SamePart tenant s s where
  counts _ _ := Iff.rfl
  items _ _ := Iff.rfl
  reports _ _ := Iff.rfl
  attempts _ _ := .refl _
  mappings _ _ := Iff.rfl

theorem SamePart.owns_iff (h : SamePart tenant s t) : s.Owns tenant count ↔ t.Owns tenant count := by
  constructor
  · rintro ⟨c, hc, hid, htenant⟩
    exact ⟨c, (h.counts c htenant).mp hc, hid, htenant⟩
  · rintro ⟨c, hc, hid, htenant⟩
    exact ⟨c, (h.counts c htenant).mpr hc, hid, htenant⟩

theorem SamePart.symm (h : SamePart tenant s t) : SamePart tenant t s where
  counts c hc := (h.counts c hc).symm
  items i hi := (h.items i (h.owns_iff.mpr hi)).symm
  reports r hr := (h.reports r (h.owns_iff.mpr hr)).symm
  attempts count hcount := (h.attempts count (h.owns_iff.mpr hcount)).symm
  mappings m hm := (h.mappings m hm).symm

theorem SamePart.trans {u : Store} (h : SamePart tenant s t) (h' : SamePart tenant t u) :
    SamePart tenant s u where
  counts c hc := (h.counts c hc).trans (h'.counts c hc)
  items i hi := (h.items i hi).trans (h'.items i (h.owns_iff.mp hi))
  reports r hr := (h.reports r hr).trans (h'.reports r (h.owns_iff.mp hr))
  attempts count hcount := (h.attempts count hcount).trans (h'.attempts count (h.owns_iff.mp hcount))
  mappings m hm := (h.mappings m hm).trans (h'.mappings m hm)

/-- What two stores hold of a tenant is the same if it is listed in one order. -/
theorem SamePart.of_filter_eq (hattempts : s.attempts = t.attempts) (hmappings : s.mappings = t.mappings)
    (hcounts : s.counts.filter (·.tenant = tenant) = t.counts.filter (·.tenant = tenant))
    (hitems : (s.items.filter fun i => s.Owns tenant i.count) =
      t.items.filter fun i => s.Owns tenant i.count)
    (hreports : (s.reports.filter fun r => s.Owns tenant r.count) =
      t.reports.filter fun r => s.Owns tenant r.count) : SamePart tenant s t where
  counts c hc := by simpa [hc] using congrArg (c ∈ ·) hcounts
  items i hi := by simpa [hi] using congrArg (i ∈ ·) hitems
  reports r hr := by simpa [hr] using congrArg (r ∈ ·) hreports
  attempts _ _ := hattempts ▸ .refl _
  mappings _ _ := hmappings ▸ Iff.rfl

/-- What belongs to a count that is stored belongs to its tenant. -/
theorem Sound.owns_of_count (hs : s.Sound) {c : Count} (hc : c ∈ s.counts)
    (howns : s.Owns tenant c.id) : c.tenant = tenant := by
  obtain ⟨d, hd, hid, htenant⟩ := howns
  rw [← eq_of_id_eq hs.counts_nodup hd hc hid, htenant]

/-- Items of one count are listed at different ranks. -/
theorem Sound.eq_of_rank_eq (hs : s.Sound) {i j : Item} (hi : i ∈ s.items) (hj : j ∈ s.items)
    (hcount : i.count = j.count) (hrank : i.rank = j.rank) : i = j := by
  have hparts : i.version = j.version ∧ i.code = j.code ∧
      i.location.val.toNat = j.location.val.toNat := by
    simpa [Item.rank] using hrank
  obtain ⟨hversion, hcode, hlocation⟩ := hparts
  have hkeys : i.key = j.key := by
    rw [Item.key, Item.key, hcount, hversion, hcode, Id.toNat_injective hlocation]
  exact eq_of_id_eq hs.items_nodup hi hj (hs.key_unique i hi j hj hkeys)

/-- Reports are listed by version, code and location. -/
def reportRank (s : Store) (r : Report) : ℤ ×ₗ String ×ₗ ℕ :=
  toLex (r.version, toLex (r.code, (s.location r).val.toNat))

theorem reportPrecedes_iff {r q : Report} :
    s.reportPrecedes r q = true ↔ s.reportRank r ≤ s.reportRank q := by
  simp only [reportPrecedes, reportRank, Prod.Lex.toLex_le_toLex, Id.le, Bool.or_eq_true,
    Bool.and_eq_true, decide_eq_true_eq]

/-- A report is listed where its item is. -/
theorem Sound.reportRank_eq (hs : s.Sound) {r : Report} {i : Item} (hi : i ∈ s.items)
    (hsubject : i.subject = r.subject) : s.reportRank r = i.rank := by
  simp only [Item.subject, Report.subject, Subject.mk.injEq] at hsubject
  obtain ⟨hcount, hitem, hversion, hcode⟩ := hsubject
  have hfound : s.item? r.count r.item = some i := by
    rw [item?, (find?_id_eq_some_iff hs.items_nodup).mpr ⟨hi, hitem⟩]
    simp [hcount]
  rw [reportRank, location, hfound, Item.rank, hversion, hcode]
  rfl

/-- Reports of one count are listed at different ranks. -/
theorem Sound.eq_of_reportRank_eq (hs : s.Sound) {r q : Report} (hr : r ∈ s.reports)
    (hq : q ∈ s.reports) (hcount : r.count = q.count) (hrank : s.reportRank r = s.reportRank q) :
    r = q := by
  obtain ⟨i, hi, hisubject⟩ := hs.report_stored r hr
  obtain ⟨j, hj, hjsubject⟩ := hs.report_stored q hq
  rw [hs.reportRank_eq hi hisubject, hs.reportRank_eq hj hjsubject] at hrank
  have hcounts : i.count = j.count :=
    (congrArg Subject.count hisubject).trans (hcount.trans (congrArg Subject.count hjsubject).symm)
  have hij : i = j := hs.eq_of_rank_eq hi hj hcounts hrank
  have hitem : r.item = q.item :=
    congrArg Subject.item (hisubject.symm.trans ((congrArg Item.subject hij).trans hjsubject))
  exact eq_of_id_eq hs.reports_nodup hr hq (hs.report_unique r hr q hq hitem)

section Reading

variable (hs : s.Sound) (ht : t.Sound) (h : SamePart tenant s t)

include hs ht h

theorem SamePart.count?_eq : s.count? tenant id = t.count? tenant id := by
  refine filter_find?_congr hs.counts_nodup ht.counts_nodup fun c hc => ?_
  exact h.counts c (by simpa using hc)

/-- A count of the tenant is found without naming the tenant. -/
theorem SamePart.anyCount?_eq (howns : s.Owns tenant id) : s.anyCount? id = t.anyCount? id := by
  obtain ⟨c, hc, hid, htenant⟩ := howns
  have hfound : s.anyCount? id = some c := (find?_id_eq_some_iff hs.counts_nodup).mpr ⟨hc, hid⟩
  have hfound' : t.anyCount? id = some c :=
    (find?_id_eq_some_iff ht.counts_nodup).mpr ⟨(h.counts c htenant).mp hc, hid⟩
  rw [hfound, hfound']

theorem SamePart.checkWritable_eq {version : Int} (howns : s.Owns tenant id) :
    s.checkWritable id version = t.checkWritable id version := by
  unfold checkWritable
  rw [h.anyCount?_eq hs ht howns]

theorem SamePart.item?_eq (howns : s.Owns tenant count) : s.item? count id = t.item? count id := by
  refine filter_find?_congr hs.items_nodup ht.items_nodup fun i hi => ?_
  have hcount : i.count = count := by simpa using hi
  exact h.items i (hcount ▸ howns)

theorem SamePart.itemsOf_perm {version : Option Int} (howns : s.Owns tenant count) :
    (s.itemsOf count version).Perm (t.itemsOf count version) := by
  refine filter_perm hs.items_nodup ht.items_nodup fun i hi => ?_
  have hcount : i.count = count := by
    rw [Bool.and_eq_true, decide_eq_true_eq] at hi
    exact hi.1
  exact h.items i (hcount ▸ howns)

theorem SamePart.listItems_eq {version : Option Int} (howns : s.Owns tenant count) :
    s.listItems count version = t.listItems count version := by
  refine mergeSort_eq (fun _ _ => Item.precedes_iff) (h.itemsOf_perm hs ht howns) ?_
  intro i hi j hj
  obtain ⟨hi, hicount, -⟩ := mem_itemsOf.mp hi
  obtain ⟨hj, hjcount, -⟩ := mem_itemsOf.mp hj
  exact hs.eq_of_rank_eq hi hj (hicount.trans hjcount.symm)

theorem SamePart.report?_eq (howns : s.Owns tenant count) :
    s.report? count id = t.report? count id := by
  refine filter_find?_congr hs.reports_nodup ht.reports_nodup fun r hr => ?_
  have hcount : r.count = count := by simpa using hr
  exact h.reports r (hcount ▸ howns)

theorem SamePart.listReports_eq {version : Option Int} (howns : s.Owns tenant count) :
    s.listReports count version = t.listReports count version := by
  have hperm : (s.reportsOf count version).Perm (t.reportsOf count version) := by
    refine filter_perm hs.reports_nodup ht.reports_nodup fun r hr => ?_
    have hcount : r.count = count := by
      rw [Bool.and_eq_true, decide_eq_true_eq] at hr
      exact hr.1
    exact h.reports r (hcount ▸ howns)
  have hmem : ∀ r ∈ s.reportsOf count version, r ∈ s.reports ∧ r.count = count := by
    intro r hr
    obtain ⟨hr, hmatch⟩ := List.mem_filter.mp hr
    rw [Bool.and_eq_true, decide_eq_true_eq] at hmatch
    exact ⟨hr, hmatch.1⟩
  -- The two stores list by the ranks of their own items, which are the same.
  have hrank : ∀ r, r.count = count → t.reportRank r = s.reportRank r := by
    rintro r rfl
    rw [reportRank, reportRank, location, location, h.item?_eq hs ht howns]
  have hlisted : ∀ r ∈ t.listReports count version, r ∈ s.reportsOf count version :=
    fun r hr => hperm.mem_iff.mpr ((List.mergeSort_perm _ _).mem_iff.mp hr)
  have hsorted : ∀ u : Store, (u.listReports count version).Pairwise
      fun r q => u.reportRank r ≤ u.reportRank q :=
    fun u => @pairwise_mergeSort _ _ _ u.reportRank u.reportPrecedes (fun _ _ => reportPrecedes_iff) _
  refine List.Perm.eq_of_pairwise (fun r q hr hq hrq hqr => ?_) (hsorted s)
    ((hsorted t).imp_of_mem fun {r q} hr hq hrq => ?_)
    (((List.mergeSort_perm _ _).trans hperm).trans (List.mergeSort_perm _ _).symm)
  · obtain ⟨hr, hrcount⟩ := hmem r ((List.mergeSort_perm _ _).mem_iff.mp hr)
    obtain ⟨hq, hqcount⟩ := hmem q (hlisted q hq)
    exact hs.eq_of_reportRank_eq hr hq (hrcount.trans hqcount.symm) (le_antisymm hrq hqr)
  · rwa [hrank r (hmem r (hlisted r hr)).2, hrank q (hmem q (hlisted q hq)).2] at hrq

theorem SamePart.listCounts_sameUpTo {status : Option Status} :
    SameUpTo Count.sequence (s.listCounts tenant status) (t.listCounts tenant status) := by
  refine SameUpTo.of_injective OrderDual.toDual.injective (sameUpTo_mergeSort (fun c d => ?_) ?_)
  · rw [decide_eq_true_eq, OrderDual.toDual_le_toDual]
  · refine filter_perm hs.counts_nodup ht.counts_nodup fun c hc => h.counts c ?_
    rw [Bool.and_eq_true, decide_eq_true_eq] at hc
    exact hc.1

end Reading

section Known

variable (h : SamePart tenant s t)

include h

theorem SamePart.itemByKey?_eq (ht : t.Sound) {key : Item.Key} (howns : s.Owns tenant key.count) :
    s.itemByKey? key = t.itemByKey? key := by
  refine find?_congr (fun i hi => ?_) fun i hi j hj hikey hjkey => ?_
  · have hkey : i.key = key := by simpa using hi
    exact h.items i (by rwa [← hkey] at howns)
  · have hkeys : i.key = j.key := by
      rw [of_decide_eq_true hikey, of_decide_eq_true hjkey]
    exact eq_of_id_eq ht.items_nodup hi hj (ht.key_unique i hi j hj hkeys)

theorem SamePart.checkNew_eq (ht : t.Sound) {items : List Item}
    (howns : ∀ i ∈ items, s.Owns tenant i.count) : s.checkNew items = t.checkNew items := by
  have hfound : items.find? (fun i => (s.itemByKey? i.key).isSome) =
      items.find? (fun i => (t.itemByKey? i.key).isSome) := by
    induction items with
    | nil => rfl
    | cons i items ih =>
      rw [List.find?_cons, List.find?_cons, h.itemByKey?_eq ht (howns i List.mem_cons_self),
        ih fun j hj => howns j (List.mem_cons_of_mem i hj)]
  rw [checkNew, checkNew, hfound]

theorem SamePart.isBusy_eq {c : Count} (hc : c.tenant = tenant) : s.isBusy c = t.isBusy c := by
  refine any_congr fun other hother => h.counts other ?_
  simp only [Bool.and_eq_true, decide_eq_true_eq] at hother
  exact hother.1.1.2.trans hc

theorem SamePart.listAttempts_sameUpTo (howns : s.Owns tenant count) :
    SameUpTo Attempt.startedAt (s.listAttempts count) (t.listAttempts count) := by
  refine SameUpTo.of_injective (OrderDual.toDual.injective.comp Time.rank_injective)
    (sameUpTo_mergeSort (fun a b => ?_) (h.attempts count howns))
  exact Time.le_iff

theorem SamePart.mapping?_eq (hs : s.Registered) (ht : t.Registered) :
    s.mapping? tenant id = t.mapping? tenant id :=
  filter_find?_congr hs.nodup ht.nodup fun m hm => h.mappings m (by simpa using hm)

theorem SamePart.listMappings_sameUpTo (hs : s.Registered) (ht : t.Registered)
    {dataset : Option Dataset} :
    SameUpTo Mapping.updatedAt (s.listMappings tenant dataset) (t.listMappings tenant dataset) := by
  refine SameUpTo.of_injective (OrderDual.toDual.injective.comp Time.rank_injective)
    (sameUpTo_mergeSort (fun m n => ?_) ?_)
  · exact Time.le_iff
  · refine filter_perm hs.nodup ht.nodup fun m hm => h.mappings m ?_
    rw [Bool.and_eq_true, decide_eq_true_eq] at hm
    exact hm.1

theorem SamePart.activeMapping?_eq (ht : t.Registered) {dataset : Dataset} :
    s.activeMapping? tenant dataset = t.activeMapping? tenant dataset := by
  refine find?_congr (fun m hm => h.mappings m ?_) fun m hm n hn hmatch hmatch' => ?_
  · simp only [Bool.and_eq_true, decide_eq_true_eq] at hm
    exact hm.1.1
  · simp only [Bool.and_eq_true, decide_eq_true_eq] at hmatch hmatch'
    obtain ⟨⟨htenant, hdataset⟩, hactive⟩ := hmatch
    obtain ⟨⟨htenant', hdataset'⟩, hactive'⟩ := hmatch'
    exact ht.active_unique m hm n hn (htenant.trans htenant'.symm) (hdataset.trans hdataset'.symm)
      hactive hactive'

end Known

end Store
end Recount
