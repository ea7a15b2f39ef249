import Recount.Proofs.Tenant.Moving

/-!
# Calls of a tenant

A call that names a tenant, or a count of it, is answered from what the store holds of the tenant,
and writes only to this. Two stores that hold the same of the tenant answer it alike.
-/

namespace Recount

/-- What two runs come to: results that correspond, one error, or overflows. -/
inductive SameOutcome {α β : Type} (R : α → β → Prop) :
    Except Overflow (Except Error α) → Except Overflow (Except Error β) → Prop
  | ok {a b} (h : R a b) : SameOutcome R (.ok (.ok a)) (.ok (.ok b))
  | error (e : Error) : SameOutcome R (.ok (.error e)) (.ok (.error e))
  | overflow (o o' : Overflow) : SameOutcome R (.error o) (.error o')

/-- The tenant that a call names. -/
def StoreCall.tenant? : StoreCall → Option Id
  | .counts (.create new) => some new.tenant
  | .counts (.get tenant _) | .counts (.list tenant _) | .counts (.change tenant _ _)
  | .counts (.delete tenant _ _) => some tenant
  | .mappings (.create m) | .mappings (.update m) => some m.tenant
  | .mappings (.get tenant _) | .mappings (.list tenant _) | .mappings (.setActive tenant _ _)
  | .mappings (.findActive tenant _) => some tenant
  | _ => none

/-- The count that a call names without its tenant. -/
def StoreCall.count? : StoreCall → Option Id
  | .counts (.upsertItem i) | .counts (.insertItem i) | .counts (.recordItem i _) => some i.count
  | .counts (.getItem count _) | .counts (.listItems count _) | .counts (.listReports count _)
  | .counts (.getReport count _) | .counts (.listAttempts count) => some count
  | .counts (.saveReport r) => some r.count
  | .counts (.addAttempt a) => some a.count
  | _ => none

/-- What a call answers is the same, up to the order of what is listed at one place. -/
def SameResult : (call : StoreCall) → call.Result → call.Result → Prop
  | .counts (.list _ _) => SameUpTo Count.sequence
  | .counts (.listAttempts _) => SameUpTo Attempt.startedAt
  | .mappings (.list _ _) => SameUpTo Mapping.updatedAt
  | _ => Eq

namespace Store

variable {tenant id : Id} {s t : Store} {new new' : List Id} {c : Count} {i : Item} {d : Draw}

section Items

variable {supply : Supply}

/-- A single item of the tenant is put. -/
theorem Alike.putItem (hs : s.Sound) (ht : t.Sound) (h : Alike tenant s t)
    (howns : s.Owns tenant i.count) (hplace : ∀ j ∈ s.items, j.id = i.id → j.count = i.count) :
    Confined tenant s (s.putItem i) t (t.putItem i) := by
  have hnodup : ([i].map Item.id).Nodup := List.nodup_singleton i.id
  exact h.putItems hs ht hnodup (.refl _) (fun _ hj => List.mem_singleton.mp hj ▸ howns)
    fun _ hj => List.mem_singleton.mp hj ▸ hplace

/-- An item is inserted into a count of the tenant. -/
theorem Alike.insertItem (hs : s.Sound) (ht : t.Sound) (h : Alike tenant s t)
    (howns : s.Owns tenant i.count) (hnew : s.AreNew new [i.id]) :
    AnswersAlike tenant s t Eq (s.insertItem i) (t.insertItem i) := by
  unfold Store.insertItem
  rw [h.checkWritable_eq hs ht howns, h.itemByKey?_eq ht howns]
  refine (Parallel.ofCheck rfl).bind fun _ _ _ _ _ => ?_
  split
  · exact .refused _
  · refine .ok ⟨rfl, h.putItem hs ht howns fun j hj hid => ?_⟩
    exact absurd hid (hnew.item_ne (List.mem_singleton_self _) hj)

/-- An item of a count of the tenant is inserted or refreshed. -/
theorem Alike.upsertItem (hs : s.Sound) (ht : t.Sound) (h : Alike tenant s t)
    (howns : s.Owns tenant i.count) (hnew : s.AreNew new [i.id])
    (hid : ∀ q ∈ s.reports, q.id ≠ supply.id 0) (hid' : ∀ q ∈ t.reports, q.id ≠ supply.id 0) :
    AnswersAlike tenant s t Eq (s.upsertItem i supply) (t.upsertItem i supply) := by
  unfold Store.upsertItem
  have hkey : s.itemByKey? i.key = t.itemByKey? i.key := h.itemByKey?_eq ht howns
  rw [h.checkWritable_eq hs ht howns, hkey]
  refine (Parallel.ofCheck rfl).bind fun _ _ _ _ _ => ?_
  cases hfound : t.itemByKey? i.key with
  | none =>
    refine .ok ⟨rfl, h.putItem hs ht howns fun j hj hid => ?_⟩
    exact absurd hid (hnew.item_ne (List.mem_singleton_self _) hj)
  | some old =>
    obtain ⟨hold, hkeys⟩ := itemByKey?_eq_some (hkey.trans hfound)
    obtain ⟨hold', -⟩ := itemByKey?_eq_some hfound
    have hplace : ∀ j ∈ s.items, j.id = old.id → j.count = old.count := fun j hj hjid =>
      congrArg Item.count (eq_of_id_eq hs.items_nodup hj hold hjid)
    have hcount : old.count = i.count := congrArg Item.Key.count hkeys
    have howns' : s.Owns tenant old.count := hcount ▸ howns
    dsimp only
    split
    · exact .ok ⟨rfl, h.putItem (i := refresh old i (supply.time 0)) hs ht howns' hplace⟩
    · next counted hcounted =>
      refine Parallel.arithmetic_refl.bind ?_
      rintro item _ rfl hitem -
      refine Parallel.arithmetic_refl.bind ?_
      rintro report _ rfl hreport -
      rw [Halt.ofArithmetic_eq_ok_iff] at hitem hreport
      obtain ⟨hiid, hikey, -, -⟩ := Item.withCounted_same hitem
      have hsubject : old.subject = item.subject := Item.subject_eq_of_key hiid.symm hikey.symm
      have hicount : item.count = old.count := congrArg Item.Key.count hikey
      obtain ⟨hchanged, hsound, hsound'⟩ := h.changeReport hs ht (hicount ▸ howns')
        ⟨old, hold, hsubject⟩ ⟨old, hold', hsubject⟩ fun r hr => by
          obtain ⟨hrsubject, hrid⟩ := (Item.consistent_of_withCounted hitem).put_report hreport hr
          exact ⟨hrsubject, hrid ▸ hid, hrid ▸ hid'⟩
      refine .ok ⟨rfl, hchanged.trans (hchanged.alike.putItem hsound hsound' ?_ ?_)⟩
      · rw [hicount, Owns, changeReport_counts]
        exact howns'
      · rw [changeReport_items, hicount]
        exact fun j hj hjid => hplace j hj (hjid.trans hiid)

/-- A quantity that is recorded has a new report, if any. -/
theorem FitsRecord.put_report {change : ReportChange} (hfits : FitsRecord s new i change) {r : Report}
    (hr : change = .put r) : r.subject = i.subject ∧ ∀ q ∈ s.reports, q.id ≠ r.id := by
  obtain ⟨id, created, report, hnew, hreport, rfl⟩ := hfits.report
  obtain ⟨hsubject, rfl⟩ := hfits.consistent.put_report hreport hr
  exact ⟨hsubject, fun q hq => hnew.report_ne (List.mem_singleton_self _) hq⟩

/-- A quantity of an item of the tenant is recorded. -/
theorem Alike.recordItem (hs : s.Sound) (ht : t.Sound) (h : Alike tenant s t)
    (howns : s.Owns tenant i.count) {change : ReportChange} (hfits : FitsRecord s new i change)
    (hfits' : FitsRecord t new' i change) {now : Time} :
    AnswersAlike tenant s t Eq (s.recordItem i change now) (t.recordItem i change now) := by
  unfold Store.recordItem
  have hitem : s.item? i.count i.id = t.item? i.count i.id := h.item?_eq hs ht howns
  rw [hitem]
  cases hfound : t.item? i.count i.id with
  | none => exact .refused _
  | some stored =>
    obtain ⟨hstored, hid, hcount⟩ := item?_eq_some (hitem.trans hfound)
    obtain ⟨hstored', -⟩ := item?_eq_some hfound
    dsimp only
    rw [h.checkWritable_eq hs ht howns]
    refine (Parallel.ofCheck rfl).bind fun _ _ _ _ _ => .ok ⟨rfl, ?_⟩
    have hplace : ∀ j ∈ s.items, j.id = i.id → j.count = i.count := fun j hj hjid =>
      congrArg Item.Key.count (hfits.key j hj hjid)
    have hput : Confined tenant s (s.putItem { i with updatedAt := now }) t
        (t.putItem { i with updatedAt := now }) := h.putItem hs ht howns hplace
    refine hput.trans (hput.alike.changeReport (hfits.next hs hstored hid).sound
      (hfits'.next ht hstored' hid).sound howns ⟨_, mem_putBy_self, rfl⟩ ⟨_, mem_putBy_self, rfl⟩
      fun r hr => ?_).1
    obtain ⟨hsubject, hfresh⟩ := hfits.put_report hr
    exact ⟨hsubject, hfresh, (hfits'.put_report hr).2⟩

/-- A report of a count of the tenant is saved. -/
theorem Alike.saveReport_answer (hs : s.Sound) (ht : t.Sound) (h : Alike tenant s t) {r : Report}
    (howns : s.Owns tenant r.count) (hplace : ∀ q ∈ s.reports, q.id = r.id → q.subject = r.subject)
    (hplace' : ∀ q ∈ t.reports, q.id = r.id → q.subject = r.subject) {now : Time} :
    AnswersAlike tenant s t Eq (s.saveReport r now) (t.saveReport r now) := by
  have hcount : ∀ q ∈ s.reports, q.id = r.id → q.count = r.count := fun q hq hid =>
    congrArg Subject.count (hplace q hq hid)
  have hany : s.reports.any (·.id = r.id) = t.reports.any (·.id = r.id) := by
    refine any_congr fun q hid => ?_
    have hid : q.id = r.id := of_decide_eq_true hid
    by_cases hqcount : q.count = r.count
    · exact h.reports q (hqcount ▸ howns)
    · exact iff_of_false (fun hq => hqcount (hcount q hq hid))
        fun hq => hqcount (congrArg Subject.count (hplace' q hq hid))
  unfold Store.saveReport
  rw [hany]
  split
  · exact .ok ⟨rfl, h.saveReport hs ht (r := { r with updatedAt := now }) hcount howns⟩
  · exact .refused _

end Items

section Counts

/-- A count of the tenant is created. -/
theorem Alike.createCount {new : NewCount} (hs : s.Sound) (ht : t.Sound) (h : Alike new.tenant s t)
    (hlacks : s.Lacks id) (hlacks' : t.Lacks id) (now : Time) :
    (s.createCount new id now).1 = (t.createCount new id now).1 ∧
      Confined new.tenant s (s.createCount new id now).2 t (t.createCount new id now).2 := by
  have hsame : (s.createCount new id now).1 = (t.createCount new id now).1 := by
    simp [Store.createCount, h.sequence]
  have hstore : (t.createCount new id now).2 =
      { t with sequence := t.sequence + 1 }.putCount (s.createCount new id now).1 := by
    rw [hsame]
    rfl
  have hnumbered : Confined new.tenant s { s with sequence := s.sequence + 1 } t
      { t with sequence := t.sequence + 1 } :=
    ⟨{ h with sequence := congrArg (· + 1) h.sequence }, fun _ _ => { SamePart.refl with }⟩
  have hsound : ∀ {u : Store}, u.Sound → Sound { u with sequence := u.sequence + 1 } := by
    intro u hu
    have hnext : Next [] u { u with sequence := u.sequence + 1 } := hu.next_of_same rfl rfl rfl
    exact hnext.sound
  refine ⟨hsame, hstore ▸ hnumbered.trans ?_⟩
  exact hnumbered.alike.putCount (c := (s.createCount new id now).1) (hsound hs) (hsound ht)
    (.inr ⟨⟨hlacks.count, hlacks.attempt⟩, ⟨hlacks'.count, hlacks'.attempt⟩⟩)

/-- A count of the tenant is deleted. -/
theorem Alike.deleteCount_answer (hs : s.Sound) (ht : t.Sound) (h : Alike tenant s t)
    {allowed : List Status} :
    AnswersAlike tenant s t Eq (s.deleteCount tenant id allowed) (t.deleteCount tenant id allowed) := by
  unfold Store.deleteCount findCount
  rw [h.count?_eq hs ht]
  refine (Parallel.ofCheck rfl).bind ?_
  rintro c _ rfl hc -
  obtain ⟨hc, hid, htenant⟩ :=
    count?_eq_some (elim_eq_ok_iff.mp (Halt.ofCheck_eq_ok_iff.mp hc))
  split
  · exact .ok ⟨rfl, h.deleteCount hs (h.owns_iff.mpr ⟨c, hc, hid, htenant⟩)⟩
  · exact .refused _

end Counts

section Mappings

variable {m : Mapping} {now : Time} {supply : Supply}

/-- A mapping of the tenant is put after the others for its data set were made inactive. -/
theorem Alike.putActive (hs : s.Registered) (ht : t.Registered) (h : Alike m.tenant s t)
    (hplace : ∀ n ∈ s.mappings, n.id = m.id → n.tenant = m.tenant) {changed : Mapping}
    (hid : changed.id = m.id) (htenant : changed.tenant = m.tenant) :
    Confined m.tenant s ((s.deactivateSiblings m now).putMapping changed) t
      ((t.deactivateSiblings m now).putMapping changed) := by
  have hinactive : Confined m.tenant s (s.deactivateSiblings m now) t (t.deactivateSiblings m now) :=
    h.deactivateSiblings
  refine hinactive.trans ?_
  rw [← htenant] at hinactive ⊢
  refine hinactive.alike.putMapping hs.deactivateSiblings ht.deactivateSiblings fun n hn hnid => ?_
  obtain ⟨old, hold, holdid, holdtenant, -⟩ := exists_of_mem_deactivateSiblings hn
  rw [← holdtenant, htenant]
  exact hplace old hold (holdid.trans (hnid.trans hid))

/-- A mapping of the tenant is entered. -/
theorem Alike.enterMapping (hs : s.Registered) (ht : t.Registered) (h : Alike m.tenant s t)
    (hplace : ∀ n ∈ s.mappings, n.id = m.id → n.tenant = m.tenant) :
    Confined m.tenant s (s.enterMapping m now) t (t.enterMapping m now) := by
  unfold Store.enterMapping
  split
  · exact h.putActive hs ht hplace rfl rfl
  · exact h.putMapping hs ht hplace

theorem Alike.updateMapping (hs : s.Registered) (ht : t.Registered) (h : Alike m.tenant s t) :
    AnswersAlike m.tenant s t Eq (s.updateMapping m now) (t.updateMapping m now) := by
  unfold Store.updateMapping
  rw [h.mapping?_eq hs ht]
  split
  · next hsome =>
    rw [← h.mapping?_eq hs ht] at hsome
    obtain ⟨old, hold⟩ := Option.isSome_iff_exists.mp hsome
    obtain ⟨hold, hid, htenant⟩ := mapping?_eq_some hold
    refine .ok ⟨rfl, h.enterMapping hs ht fun n hn hnid => ?_⟩
    rw [eq_of_id_eq hs.nodup hn hold (hnid.trans hid.symm), htenant]
  · exact .refused _

theorem Alike.setActive (hs : s.Registered) (ht : t.Registered) (h : Alike tenant s t)
    {active : Bool} :
    AnswersAlike tenant s t Eq (s.setActive tenant id active supply)
      (t.setActive tenant id active supply) := by
  unfold Store.setActive
  have hsame : s.mapping? tenant id = t.mapping? tenant id := h.mapping?_eq hs ht
  rw [hsame]
  cases hfound : t.mapping? tenant id with
  | none => exact .refused _
  | some m =>
    obtain ⟨hm, rfl, rfl⟩ := mapping?_eq_some (hsame.trans hfound)
    have hplace : ∀ n ∈ s.mappings, n.id = m.id → n.tenant = m.tenant := fun n hn hid =>
      congrArg Mapping.tenant (eq_of_id_eq hs.nodup hn hm hid)
    refine .ok ⟨rfl, ?_⟩
    cases active with
    | true => exact h.putActive hs ht hplace rfl rfl
    | false => exact h.putMapping (m := { m with isActive := false, updatedAt := _ }) hs ht hplace

end Mappings

/-- What holds of a store when a call of a tenant comes to it: the call names no other tenant and no
count of another one, it fits, and the identifiers for what it enters are new. -/
structure Ready (s : Store) (tenant : Id) (supply : Supply) (call : StoreCall) : Prop where
  sound : s.Sound
  registered : s.Registered
  owner : ∀ owner, call.tenant? = some owner → owner = tenant
  owned : ∀ count, call.count? = some count → s.Owns tenant count
  fits : ∃ new, s.AreNew new (supply.ids s.demand) ∧ ∀ c, call = .counts c → s.Fits new c
  lacks : ∀ n, call = .counts (.create n) → s.Lacks (supply.id 0)
  mapping : ∀ m, call = .mappings (.create m) → ∀ n ∈ s.mappings, n.id ≠ m.id

/-- Two stores that hold the same of a tenant answer its calls about counts alike. -/
theorem Alike.answer_counts {call : CountCall} (h : Alike tenant s t)
    (hs : s.Ready tenant (d.supply (s.toSettle (.counts call))) (.counts call))
    (ht : t.Ready tenant (d.supply (t.toSettle (.counts call))) (.counts call)) :
    AnswersAlike tenant s t (SameResult (.counts call))
      (s.answer (d.supply (s.toSettle (.counts call))) (.counts call))
      (t.answer (d.supply (t.toSettle (.counts call))) (.counts call)) := by
  obtain ⟨new, hnew, hfits⟩ := hs.fits
  obtain ⟨new', hnew', hfits'⟩ := ht.fits
  replace hfits := hfits call rfl
  replace hfits' := hfits' call rfl
  cases call with
  | create n =>
    obtain rfl := hs.owner _ rfl
    exact .ok (h.createCount hs.sound ht.sound (hs.lacks n rfl) (ht.lacks n rfl) (d.time 0))
  | get owner id =>
    obtain rfl := hs.owner _ rfl
    exact .ok ⟨h.count?_eq hs.sound ht.sound, .refl h⟩
  | list owner status =>
    obtain rfl := hs.owner _ rfl
    exact .ok ⟨h.listCounts_sameUpTo hs.sound ht.sound, .refl h⟩
  | change owner id tr =>
    obtain rfl := hs.owner _ rfl
    exact h.change hs.sound ht.sound hfits hnew hnew'
  | delete owner id allowed =>
    obtain rfl := hs.owner _ rfl
    exact h.deleteCount_answer hs.sound ht.sound
  | upsertItem i =>
    have hmem : ∀ {u : Store} {supply : Supply}, supply.id 0 ∈ supply.ids u.demand :=
      Supply.id_mem_ids (Nat.succ_pos _)
    exact h.upsertItem hs.sound ht.sound (hs.owned _ rfl) hfits.2
      (fun q hq => hnew.report_ne hmem hq) fun q hq => hnew'.report_ne hmem hq
  | insertItem i => exact h.insertItem hs.sound ht.sound (hs.owned _ rfl) hfits.2
  | getItem count id => exact .ok ⟨h.item?_eq hs.sound ht.sound (hs.owned _ rfl), .refl h⟩
  | listItems count version =>
    exact .ok ⟨h.listItems_eq hs.sound ht.sound (hs.owned _ rfl), .refl h⟩
  | recordItem i change => exact h.recordItem hs.sound ht.sound (hs.owned _ rfl) hfits hfits'
  | listReports count version =>
    exact .ok ⟨h.listReports_eq hs.sound ht.sound (hs.owned _ rfl), .refl h⟩
  | getReport count id => exact .ok ⟨h.report?_eq hs.sound ht.sound (hs.owned _ rfl), .refl h⟩
  | saveReport r => exact h.saveReport_answer hs.sound ht.sound (hs.owned _ rfl) hfits hfits'
  | addAttempt a => exact .ok ⟨rfl, h.addAttempt hs.sound (hs.owned _ rfl)⟩
  | listAttempts count => exact .ok ⟨h.listAttempts_sameUpTo (hs.owned _ rfl), .refl h⟩

theorem Alike.answer_mappings {call : MappingCall} (h : Alike tenant s t)
    (hs : s.Ready tenant (d.supply (s.toSettle (.mappings call))) (.mappings call))
    (ht : t.Ready tenant (d.supply (t.toSettle (.mappings call))) (.mappings call)) :
    AnswersAlike tenant s t (SameResult (.mappings call))
      (s.answer (d.supply (s.toSettle (.mappings call))) (.mappings call))
      (t.answer (d.supply (t.toSettle (.mappings call))) (.mappings call)) := by
  have hregistered := hs.registered
  have hregistered' := ht.registered
  cases call with
  | create m =>
    obtain rfl := hs.owner _ rfl
    refine .ok ⟨rfl, h.enterMapping hregistered hregistered' fun n hn hid => ?_⟩
    exact absurd hid (hs.mapping m rfl n hn)
  | get owner id =>
    obtain rfl := hs.owner _ rfl
    exact .ok ⟨h.mapping?_eq hregistered hregistered', .refl h⟩
  | list owner dataset =>
    obtain rfl := hs.owner _ rfl
    exact .ok ⟨h.listMappings_sameUpTo hregistered hregistered', .refl h⟩
  | update m =>
    obtain rfl := hs.owner _ rfl
    exact h.updateMapping hregistered hregistered'
  | setActive owner id active =>
    obtain rfl := hs.owner _ rfl
    exact h.setActive hregistered hregistered'
  | findActive owner dataset =>
    obtain rfl := hs.owner _ rfl
    exact .ok ⟨h.activeMapping?_eq hregistered', .refl h⟩

/-- Two stores that hold the same of a tenant answer its calls alike, and nothing that belongs to
others is written. -/
theorem Alike.answer {call : StoreCall} (h : Alike tenant s t)
    (hs : s.Ready tenant (d.supply (s.toSettle call)) call)
    (ht : t.Ready tenant (d.supply (t.toSettle call)) call) :
    AnswersAlike tenant s t (SameResult call) (s.answer (d.supply (s.toSettle call)) call)
      (t.answer (d.supply (t.toSettle call)) call) := by
  cases call with
  | counts call => exact h.answer_counts hs ht
  | mappings call => exact h.answer_mappings hs ht

/-- The same as the caller sees it. -/
theorem Alike.step {call : StoreCall} (h : Alike tenant s t)
    (hs : s.Ready tenant (d.supply (s.toSettle call)) call)
    (ht : t.Ready tenant (d.supply (t.toSettle call)) call) :
    SameOutcome (SameResult call) (s.step (d.supply (s.toSettle call)) call).1
        (t.step (d.supply (t.toSettle call)) call).1 ∧
      Confined tenant s (s.step (d.supply (s.toSettle call)) call).2 t
        (t.step (d.supply (t.toSettle call)) call).2 := by
  have hanswer := h.answer hs ht
  unfold Store.step
  generalize s.answer (d.supply (s.toSettle call)) call = x at hanswer ⊢
  generalize t.answer (d.supply (t.toSettle call)) call = y at hanswer ⊢
  cases hanswer with
  | ok hresult => exact ⟨.ok hresult.1, hresult.2⟩
  | refused e => exact ⟨.error e, .refl h⟩
  | overflow o o' => exact ⟨.overflow o o', .refl h⟩

end Store
end Recount
