import Recount.Proofs.Store.Reported
import Recount.Proofs.Tenant.Part

/-!
# Writes to what a tenant has

Two stores that hold the same of a tenant do so after the same is written to both, in whichever
order, and what other tenants have stays as it is if what is written belongs to the tenant.
-/

namespace Recount

section Lists

variable {α : Type} {id : α → Id} {l l' : List α}

theorem mem_putBy_congr {e x : α} (hl : (l.map id).Nodup) (hl' : (l'.map id).Nodup)
    (hx : x ∈ l ↔ x ∈ l') : x ∈ putBy id e l ↔ x ∈ putBy id e l' := by
  rw [mem_putBy_iff hl, mem_putBy_iff hl', hx]

/-- An entry that is put in the place of another one is no entry besides these. -/
theorem mem_putBy_other_iff {e x : α} (hl : (l.map id).Nodup) (hx : x ≠ e)
    (hplace : x ∈ l → id x ≠ id e) : x ∈ l ↔ x ∈ putBy id e l := by
  rw [mem_putBy_iff hl]
  constructor
  · exact fun h => .inr ⟨h, hplace h⟩
  · rintro (h | h)
    · exact absurd h hx
    · exact h.1

end Lists

namespace Store

variable {tenant other : Id} {s s' s₁ t t' t₁ : Store} {new new' : List Id} {c : Count} {i : Item}
  {r q : Report} {reports reports' : List Report}

/-- Two stores hold the same of a tenant, and give the same number to the next count. -/
structure Alike (tenant : Id) (s t : Store) : Prop extends SamePart tenant s t where
  sequence : s.sequence = t.sequence

/-- Two stores are alike for a tenant after something was written to both that does not concern
other tenants. -/
structure Confined (tenant : Id) (s s' t t' : Store) : Prop where
  alike : Alike tenant s' t'
  others : ∀ other, other ≠ tenant → SamePart other s s'

theorem Confined.refl (h : Alike tenant s t) : Confined tenant s s t t := ⟨h, fun _ _ => .refl⟩

theorem Confined.trans (h : Confined tenant s s₁ t t₁) (h' : Confined tenant s₁ s' t₁ t') :
    Confined tenant s s' t t' :=
  ⟨h'.alike, fun other hne => (h.others other hne).trans (h'.others other hne)⟩

/-- A count has one tenant. -/
theorem Sound.owner_eq (hs : s.Sound) {count : Id} (h : s.Owns tenant count)
    (h' : s.Owns other count) : other = tenant := by
  obtain ⟨c, hc, rfl, hother⟩ := h'
  exact hother.symm.trans (hs.owns_of_count hc h)

section Frames

/-- What belongs to counts of the tenant is the same items, and the others stay as they are. -/
theorem Alike.withItems (hs : s.Sound) (h : Alike tenant s t) {items items' : List Item}
    (hsame : ∀ i, s.Owns tenant i.count → (i ∈ items ↔ i ∈ items'))
    (hothers : ∀ i, ¬ s.Owns tenant i.count → (i ∈ s.items ↔ i ∈ items)) :
    Confined tenant s { s with items } t { t with items := items' } where
  alike := { h with items := hsame }
  others _ hne := { SamePart.refl with
    items := fun i hi => hothers i fun howns => hne (hs.owner_eq howns hi) }

/-- What belongs to counts of the tenant is the same reports, and the others stay as they are. -/
theorem Alike.withReports (hs : s.Sound) (h : Alike tenant s t)
    (hsame : ∀ r, s.Owns tenant r.count → (r ∈ reports ↔ r ∈ reports'))
    (hothers : ∀ r, ¬ s.Owns tenant r.count → (r ∈ s.reports ↔ r ∈ reports)) :
    Confined tenant s { s with reports } t { t with reports := reports' } where
  alike := { h with reports := hsame }
  others _ hne := { SamePart.refl with
    reports := fun r hr => hothers r fun howns => hne (hs.owner_eq howns hr) }

/-- What the tenant has is the same mappings, and the others stay as they are. -/
theorem Alike.withMappings (h : Alike tenant s t) {mappings mappings' : List Mapping}
    (hsame : ∀ m : Mapping, m.tenant = tenant → (m ∈ mappings ↔ m ∈ mappings'))
    (hothers : ∀ m : Mapping, m.tenant ≠ tenant → (m ∈ s.mappings ↔ m ∈ mappings)) :
    Confined tenant s { s with mappings } t { t with mappings := mappings' } where
  alike := { h with mappings := hsame }
  others _ hne := { SamePart.refl with
    mappings := fun m hm => hothers m fun hmine => hne (hm.symm.trans hmine) }

end Frames

section Counts

theorem owns_putCount (hc : ∀ d ∈ s.counts, d.id = c.id → d.tenant = c.tenant) {count : Id} :
    (s.putCount c).Owns tenant count ↔
      s.Owns tenant count ∨ c.id = count ∧ c.tenant = tenant := by
  constructor
  · rintro ⟨d, hd, hid, htenant⟩
    rcases mem_of_mem_putBy hd with rfl | hd
    · exact .inr ⟨hid, htenant⟩
    · exact .inl ⟨d, hd, hid, htenant⟩
  · rintro (⟨d, hd, hid, htenant⟩ | ⟨hid, htenant⟩)
    · by_cases hsame : d.id = c.id
      · exact ⟨c, mem_putBy_self, hsame.symm.trans hid, (hc d hd hsame).symm.trans htenant⟩
      · exact ⟨d, mem_putBy_of_ne hd hsame, hid, htenant⟩
    · exact ⟨c, mem_putBy_self, hid, htenant⟩

/-- Nothing of what is stored belongs to a count with this identifier. -/
structure Lacks (s : Store) (id : Id) : Prop where
  count : ∀ d ∈ s.counts, d.id ≠ id
  attempt : ∀ a ∈ s.attempts, a.count ≠ id

theorem Lacks.item (h : s.Lacks c.id) (hs : s.Sound) (hi : i ∈ s.items) : i.count ≠ c.id := by
  obtain ⟨d, hd, hid, -⟩ := hs.item_stored i hi
  exact hid ▸ h.count d hd

theorem Lacks.report (h : s.Lacks c.id) (hs : s.Sound) (hr : r ∈ s.reports) : r.count ≠ c.id := by
  obtain ⟨i, hi, hsubject⟩ := hs.report_stored r hr
  have hcount : i.count = r.count := congrArg Subject.count hsubject
  exact hcount ▸ h.item hs hi

theorem Lacks.attempts_eq {id : Id} (h : s.Lacks id) : s.attempts.filter (·.count = id) = [] :=
  List.filter_eq_nil_iff.mpr fun a ha => by simpa using h.attempt a ha

/-- A count of the tenant is put: a new one, or a later state of one that is there. -/
theorem Alike.putCount (hs : s.Sound) (ht : t.Sound) (h : Alike c.tenant s t)
    (hplace : s.Owns c.tenant c.id ∨ s.Lacks c.id ∧ t.Lacks c.id) :
    Confined c.tenant s (s.putCount c) t (t.putCount c) := by
  have hkept : ∀ d ∈ s.counts, d.id = c.id → d.tenant = c.tenant := by
    intro d hd hid
    rcases hplace with howns | ⟨hlacks, -⟩
    · exact hs.owns_of_count hd (hid ▸ howns)
    · exact absurd hid (hlacks.count d hd)
  refine ⟨⟨⟨?counts, ?items, ?reports, ?attempts, h.mappings⟩, h.sequence⟩, ?others⟩
  case counts =>
    exact fun d hd => mem_putBy_congr hs.counts_nodup ht.counts_nodup (h.counts d hd)
  case items =>
    intro i hi
    rcases (owns_putCount hkept).mp hi with hi | ⟨hid, -⟩
    · exact h.items i hi
    · rcases hplace with howns | ⟨hlacks, hlacks'⟩
      · exact h.items i (hid ▸ howns)
      · exact iff_of_false (fun hi => hlacks.item hs hi hid.symm)
          fun hi => hlacks'.item ht hi hid.symm
  case reports =>
    intro r hr
    rcases (owns_putCount hkept).mp hr with hr | ⟨hid, -⟩
    · exact h.reports r hr
    · rcases hplace with howns | ⟨hlacks, hlacks'⟩
      · exact h.reports r (hid ▸ howns)
      · exact iff_of_false (fun hr => hlacks.report hs hr hid.symm)
          fun hr => hlacks'.report ht hr hid.symm
  case attempts =>
    intro count hcount
    rcases (owns_putCount hkept).mp hcount with hcount | ⟨rfl, -⟩
    · exact h.attempts count hcount
    · rcases hplace with howns | ⟨hlacks, hlacks'⟩
      · exact h.attempts c.id howns
      · change (s.attempts.filter _).Perm (t.attempts.filter _)
        rw [hlacks.attempts_eq, hlacks'.attempts_eq]
  case others =>
    refine fun other hne => { SamePart.refl with counts := fun d hd => ?_ }
    refine mem_putBy_other_iff hs.counts_nodup ?_ fun hmem hid => ?_
    · rintro rfl
      exact hne hd.symm
    · exact hne (hd.symm.trans (hkept d hmem hid))

/-- A count of the tenant is deleted with all that belongs to it. -/
theorem Alike.deleteCount (hs : s.Sound) (h : Alike tenant s t) {id : Id}
    (howns : s.Owns tenant id) :
    Confined tenant s
      { s with
        counts := s.counts.filter (·.id ≠ id)
        items := s.items.filter (·.count ≠ id)
        reports := s.reports.filter (·.count ≠ id)
        attempts := s.attempts.filter (·.count ≠ id) } t
      { t with
        counts := t.counts.filter (·.id ≠ id)
        items := t.items.filter (·.count ≠ id)
        reports := t.reports.filter (·.count ≠ id)
        attempts := t.attempts.filter (·.count ≠ id) } := by
  -- A count that is left was there, and is another one.
  have hleft : ∀ {owner count}, Owns { s with
      counts := s.counts.filter (·.id ≠ id)
      items := s.items.filter (·.count ≠ id)
      reports := s.reports.filter (·.count ≠ id)
      attempts := s.attempts.filter (·.count ≠ id) } owner count → s.Owns owner count ∧ count ≠ id := by
    rintro owner count ⟨c, hc, hid, htenant⟩
    obtain ⟨hc, hne⟩ := List.mem_filter.mp hc
    exact ⟨⟨c, hc, hid, htenant⟩, by simpa [hid] using hne⟩
  have hattempts : ∀ {u : Store} {count}, count ≠ id →
      (u.attempts.filter (·.count ≠ id)).filter (·.count = count) =
        u.attempts.filter (·.count = count) := by
    intro u count hne
    rw [List.filter_filter]
    refine List.filter_congr fun a _ => ?_
    by_cases ha : a.count = count <;> simp [ha, hne]
  have hapart : ∀ other, other ≠ tenant → ∀ {count}, s.Owns other count → count ≠ id := by
    rintro other hne count hcount rfl
    exact hne (hs.owner_eq howns hcount)
  refine ⟨⟨⟨fun c hc => ?_, fun i hi => ?_, fun r hr => ?_, fun count hcount => ?_, h.mappings⟩,
    h.sequence⟩, fun other hne => ⟨fun c hc => ?_, fun i hi => ?_, fun r hr => ?_,
    fun count hcount => ?_, fun _ _ => Iff.rfl⟩⟩
  · rw [List.mem_filter, List.mem_filter, h.counts c hc]
  · rw [List.mem_filter, List.mem_filter, h.items i (hleft hi).1]
  · rw [List.mem_filter, List.mem_filter, h.reports r (hleft hr).1]
  · obtain ⟨hcount, hne⟩ := hleft hcount
    rw [hattempts hne, hattempts hne]
    exact h.attempts count hcount
  · refine (List.mem_filter.trans (and_iff_left_of_imp fun hmem => ?_)).symm
    exact decide_eq_true (hapart other hne ⟨c, hmem, rfl, hc⟩)
  · refine (List.mem_filter.trans (and_iff_left ?_)).symm
    exact decide_eq_true (hapart other hne hi)
  · refine (List.mem_filter.trans (and_iff_left ?_)).symm
    exact decide_eq_true (hapart other hne hr)
  · rw [hattempts (hapart other hne hcount)]

/-- An attempt to write back a count of the tenant is recorded. -/
theorem Alike.addAttempt (hs : s.Sound) (h : Alike tenant s t) {a : Attempt}
    (howns : s.Owns tenant a.count) : Confined tenant s (s.addAttempt a) t (t.addAttempt a) := by
  refine ⟨{ h with attempts := fun count hcount => ?_ }, fun other hne =>
    { SamePart.refl with attempts := fun count hcount => ?_ }⟩
  · change ((s.attempts ++ [a]).filter _).Perm ((t.attempts ++ [a]).filter _)
    rw [List.filter_append, List.filter_append]
    exact (h.attempts count hcount).append_right _
  · have hout : a.count ≠ count := by
      rintro rfl
      exact hne (hs.owner_eq howns hcount)
    change (s.attempts.filter _).Perm ((s.attempts ++ [a]).filter _)
    have hnone : [a].filter (·.count = count) = [] :=
      List.filter_eq_nil_iff.mpr fun b hb => by simpa [List.mem_singleton.mp hb] using hout
    rw [List.filter_append, hnone, List.append_nil]

end Counts

section Items

variable {items items' : List Item}

/-- Items of the tenant are put, each in the place of one of its count or as a new one. -/
theorem Alike.putItems (hs : s.Sound) (ht : t.Sound) (h : Alike tenant s t)
    (hnodup : (items.map Item.id).Nodup) (hperm : items.Perm items')
    (howns : ∀ i ∈ items, s.Owns tenant i.count)
    (hplace : ∀ i ∈ items, ∀ j ∈ s.items, j.id = i.id → j.count = i.count) :
    Confined tenant s (s.putItems items) t (t.putItems items') := by
  have hids := hperm.map Item.id
  rw [putItems_eq, putItems_eq]
  refine h.withItems hs (fun i hi => ?_) fun i hi => ?_
  · rw [mem_putAll_iff hnodup hs.items_nodup,
      mem_putAll_iff (hids.nodup_iff.mp hnodup) ht.items_nodup, hperm.mem_iff, hids.mem_iff,
      h.items i hi]
  · rw [mem_putAll_iff hnodup hs.items_nodup]
    constructor
    · refine fun hmem => .inr ⟨hmem, fun hid => hi ?_⟩
      obtain ⟨j, hj, hid⟩ := List.mem_map.mp hid
      exact hplace j hj i hmem hid.symm ▸ howns j hj
    · rintro (hmem | ⟨hmem, -⟩)
      · exact absurd (howns i hmem) hi
      · exact hmem

end Items

section Reports

/-- A report takes over the identity of another one of its item only. -/
theorem Sound.adopted_putReport (hs : s.Sound) (hr : ∃ i ∈ s.items, i.subject = r.subject)
    (hid : ∀ q ∈ s.reports, q.id ≠ r.id) (hne : q.item ≠ r.item) :
    (s.putReport r).adopted q = s.adopted q := by
  have hfound : (s.putReport r).reports.find?
      (fun old => old.item = q.item && old.version = q.version) =
        s.reports.find? fun old => old.item = q.item && old.version = q.version := by
    refine find?_congr (fun old hold => ?_) fun p hp p' hp' hmatch hmatch' => ?_
    · simp only [Bool.and_eq_true, decide_eq_true_eq] at hold
      rw [hs.mem_putReport_iff hr hid]
      constructor
      · rintro (rfl | ⟨hmem, -⟩)
        · exact absurd (hold.1.symm.trans adopted_item) hne
        · exact hmem
      · exact fun hmem => .inr ⟨hmem, hold.1 ▸ hne⟩
    · simp only [Bool.and_eq_true, decide_eq_true_eq] at hmatch hmatch'
      exact eq_of_id_eq hs.reports_nodup hp hp'
        (hs.report_unique p hp p' hp' (hmatch.1.trans hmatch'.1.symm))
  rw [adopted, adopted, hfound]

/-- Reports of different items replace those of their items. -/
theorem Sound.mem_putReports_iff (hs : s.Sound) (hreports : s.AcceptsReports new reports)
    (hnodup : (reports.map Report.item).Nodup) :
    q ∈ (s.putReports reports).reports ↔
      (∃ r ∈ reports, q = s.adopted r) ∨ (q ∈ s.reports ∧ ∀ r ∈ reports, q.item ≠ r.item) := by
  induction reports generalizing s with
  | nil =>
    change q ∈ s.reports ↔ _
    simp
  | cons r reports ih =>
    obtain ⟨hnot, hnodup⟩ := List.nodup_cons.mp hnodup
    have hr := hreports.stored r List.mem_cons_self
    have hid := hreports.fresh r List.mem_cons_self
    have hne : ∀ p ∈ reports, p.item ≠ r.item := fun p hp hitem =>
      hnot (hitem ▸ List.mem_map_of_mem hp)
    have hadopted : ∀ p ∈ reports, (s.putReport r).adopted p = s.adopted p := fun p hp =>
      hs.adopted_putReport hr hid (hne p hp)
    have hrest := ih (hreports.head hs).sound (hreports.tail hs) hnodup
    rw [hs.mem_putReport_iff hr hid] at hrest
    refine hrest.trans ?_
    rw [List.exists_mem_cons_iff, List.forall_mem_cons]
    constructor
    · rintro (⟨p, hp, rfl⟩ | ⟨rfl | ⟨hq, hqr⟩, hall⟩)
      · exact .inl (.inr ⟨p, hp, hadopted p hp⟩)
      · exact .inl (.inl rfl)
      · exact .inr ⟨hq, hqr, hall⟩
    · rintro ((rfl | ⟨p, hp, rfl⟩) | ⟨hq, hqr, hall⟩)
      · refine .inr ⟨.inl rfl, fun p hp hitem => hne p hp (hitem.symm.trans adopted_item)⟩
      · exact .inl ⟨p, hp, (hadopted p hp).symm⟩
      · exact .inr ⟨.inr ⟨hq, hqr⟩, hall⟩

/-- A report of a stored item belongs to the count of the item. -/
theorem Sound.report_count (hs : s.Sound) (hr : ∃ i ∈ s.items, i.subject = r.subject)
    (hq : q ∈ s.reports) (hitem : q.item = r.item) : q.count = r.count := by
  obtain ⟨i, hi, hsubject⟩ := hr
  have hsame : q.subject = r.subject :=
    (hs.subject_eq hq hi (hitem.trans (congrArg Subject.item hsubject).symm)).trans hsubject
  exact congrArg Subject.count hsame

/-- A report takes over the same identity in stores that hold the same of its tenant. -/
theorem SamePart.adopted_eq (hs : s.Sound) (ht : t.Sound) (h : SamePart tenant s t)
    (hr : ∃ i ∈ s.items, i.subject = r.subject) (hr' : ∃ i ∈ t.items, i.subject = r.subject)
    (howns : s.Owns tenant r.count) : s.adopted r = t.adopted r := by
  have hfound : s.reports.find? (fun old => old.item = r.item && old.version = r.version) =
      t.reports.find? fun old => old.item = r.item && old.version = r.version := by
    refine find?_congr (fun old hold => ?_) fun p hp p' hp' hmatch hmatch' => ?_
    · simp only [Bool.and_eq_true, decide_eq_true_eq] at hold
      by_cases hcount : old.count = r.count
      · exact h.reports old (hcount ▸ howns)
      · exact iff_of_false (fun hmem => hcount (hs.report_count hr hmem hold.1))
          fun hmem => hcount (ht.report_count hr' hmem hold.1)
    · simp only [Bool.and_eq_true, decide_eq_true_eq] at hmatch hmatch'
      exact eq_of_id_eq ht.reports_nodup hp hp'
        (ht.report_unique p hp p' hp' (hmatch.1.trans hmatch'.1.symm))
  rw [adopted, adopted, hfound]

/-- Reports about items of the tenant are put. -/
theorem Alike.putReports (hs : s.Sound) (ht : t.Sound) (h : Alike tenant s t)
    (hreports : s.AcceptsReports new reports) (hreports' : t.AcceptsReports new' reports')
    (hnodup : (reports.map Report.item).Nodup) (hperm : reports.Perm reports')
    (howns : ∀ r ∈ reports, s.Owns tenant r.count) :
    Confined tenant s (s.putReports reports) t (t.putReports reports') := by
  have hnodup' : (reports'.map Report.item).Nodup := (hperm.map Report.item).nodup_iff.mp hnodup
  rw [putReports_eq, @putReports_eq t]
  refine h.withReports hs (fun q hq => ?_) fun q hq => ?_
  · rw [hs.mem_putReports_iff hreports hnodup, ht.mem_putReports_iff hreports' hnodup', h.reports q hq]
    refine or_congr (exists_congr fun r => ?_) (and_congr_right fun _ => forall_congr' fun r => ?_)
    · rw [hperm.mem_iff]
      refine and_congr_right fun hr => ?_
      have hr₁ := hperm.mem_iff.mpr hr
      rw [h.adopted_eq hs ht (hreports.stored r hr₁) (hreports'.stored r hr) (howns r hr₁)]
    · rw [hperm.mem_iff]
  · rw [hs.mem_putReports_iff hreports hnodup]
    constructor
    · refine fun hmem => .inr ⟨hmem, fun r hr hitem => hq ?_⟩
      exact hs.report_count (hreports.stored r hr) hmem hitem ▸ howns r hr
    · rintro (⟨r, hr, rfl⟩ | ⟨hmem, -⟩)
      · have hcount : (s.adopted r).count = r.count := congrArg Subject.count adopted_subject
        exact absurd (hcount ▸ howns r hr) hq
      · exact hmem

/-- A report of a stored item is accepted if its identifier is new. -/
theorem acceptsReports_single (hr : ∃ i ∈ s.items, i.subject = r.subject)
    (hid : ∀ q ∈ s.reports, q.id ≠ r.id) : s.AcceptsReports [r.id] [r] where
  nodup := List.nodup_singleton r.id
  mem _ hq := List.mem_singleton.mp hq ▸ List.mem_singleton_self r.id
  stored _ hq := List.mem_singleton.mp hq ▸ hr
  fresh _ hq := List.mem_singleton.mp hq ▸ hid

/-- The report of an item of the tenant is put or removed. -/
theorem Alike.changeReport (hs : s.Sound) (ht : t.Sound) (h : Alike tenant s t)
    {change : ReportChange} (howns : s.Owns tenant i.count)
    (hstored : ∃ j ∈ s.items, j.subject = i.subject) (hstored' : ∃ j ∈ t.items, j.subject = i.subject)
    (hput : ∀ r, change = .put r → r.subject = i.subject ∧ (∀ q ∈ s.reports, q.id ≠ r.id) ∧
      ∀ q ∈ t.reports, q.id ≠ r.id) :
    Confined tenant s (s.changeReport i change) t (t.changeReport i change) ∧
      (s.changeReport i change).Sound ∧ (t.changeReport i change).Sound := by
  cases change with
  | put r =>
    obtain ⟨hsubject, hid, hid'⟩ := hput r rfl
    rw [← hsubject] at hstored hstored'
    have haccepts : s.AcceptsReports [r.id] [r] := acceptsReports_single hstored hid
    have haccepts' : t.AcceptsReports [r.id] [r] := acceptsReports_single hstored' hid'
    have hcount : r.count = i.count := congrArg Subject.count hsubject
    refine ⟨h.putReports hs ht haccepts haccepts' (List.nodup_singleton _) (.refl _) ?_,
      (hs.putReports haccepts).sound, (ht.putReports haccepts').sound⟩
    exact fun q hq => List.mem_singleton.mp hq ▸ hcount ▸ howns
  | clear =>
    have hsound : ∀ {u : Store}, u.Sound → (u.changeReport i .clear).Sound := by
      intro u hu
      have hnext : Next [] u (u.changeReport i .clear) := hu.filterReports _
      exact hnext.sound
    refine ⟨h.withReports hs (fun q hq => ?_) fun q hq => ?_, hsound hs, hsound ht⟩
    · rw [List.mem_filter, List.mem_filter, h.reports q hq]
    · refine (List.mem_filter.trans (and_iff_left_of_imp fun hmem => ?_)).symm
      have hitem : q.item ≠ i.id := by
        obtain ⟨j, hj, hsubject⟩ := hstored
        intro hitem
        have hsame := hs.subject_eq hmem hj (hitem.trans (congrArg Subject.item hsubject).symm)
        have hcount : q.count = i.count := congrArg Subject.count (hsame.trans hsubject)
        exact hq (hcount ▸ howns)
      simp [hitem]

/-- A report of the tenant takes the place of one about the same. -/
theorem Alike.saveReport (hs : s.Sound) (ht : t.Sound) (h : Alike tenant s t)
    (hplace : ∀ q ∈ s.reports, q.id = r.id → q.count = r.count) (howns : s.Owns tenant r.count) :
    Confined tenant s { s with reports := putBy Report.id r s.reports } t
      { t with reports := putBy Report.id r t.reports } := by
  refine h.withReports hs (fun q hq => ?_) fun q hq => ?_
  · exact mem_putBy_congr hs.reports_nodup ht.reports_nodup (h.reports q hq)
  · refine mem_putBy_other_iff hs.reports_nodup ?_ fun hmem hid => hq ?_
    · rintro rfl
      exact hq howns
    · exact hplace q hmem hid ▸ howns

end Reports

section Mappings

variable {m : Mapping} {now : Time}

/-- The mappings of the tenant for a data set are made inactive, except for one. -/
theorem Alike.deactivateSiblings (h : Alike m.tenant s t) :
    Confined m.tenant s (s.deactivateSiblings m now) t (t.deactivateSiblings m now) := by
  refine h.withMappings (fun n hn => ?_) fun n hn => ?_
  · rw [List.mem_map, List.mem_map]
    refine exists_congr fun old => and_congr_left fun heq => h.mappings old ?_
    rw [← hn, ← heq]
    split <;> rfl
  · rw [List.mem_map]
    constructor
    · exact fun hmem => ⟨n, hmem, by simp [hn]⟩
    · rintro ⟨old, hold, heq⟩
      have htenant : old.tenant ≠ m.tenant := by
        intro hold
        refine hn (Eq.trans ?_ hold)
        rw [← heq]
        split <;> rfl
      simp only [htenant, decide_false, Bool.and_false, Bool.false_and, Bool.false_eq_true,
        if_false] at heq
      exact heq ▸ hold

/-- A mapping of the tenant is put. -/
theorem Alike.putMapping (hs : s.Registered) (ht : t.Registered) (h : Alike m.tenant s t)
    (hplace : ∀ n ∈ s.mappings, n.id = m.id → n.tenant = m.tenant) :
    Confined m.tenant s (s.putMapping m) t (t.putMapping m) := by
  refine h.withMappings (fun n hn => ?_) fun n hn => ?_
  · exact mem_putBy_congr hs.nodup ht.nodup (h.mappings n hn)
  · refine mem_putBy_other_iff hs.nodup ?_ fun hmem hid => hn (hplace n hmem hid)
    rintro rfl
    exact hn rfl

end Mappings

end Store
end Recount
