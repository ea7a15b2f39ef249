import Recount.Loading.Import
import Recount.Proofs.Loading.Overflow

/-!
# Reading before storing

A load first reads the rows of a source, and an import those of a file, without touching the store
and without computing with quantities. What is read is stored in one way, so only there a load may
overflow.
-/

namespace Recount

open Concurrent (Scene Ending)
open Counting (Idle Editable)

variable {α β : Type}

/-- A call that reads is answered by every store, which stays as it is. -/
def StoreCall.Reads (call : StoreCall) : Prop :=
  ∀ (s : Store) supply, ∃ result, s.answer supply call = .ok (result, s)

/-- A request that changes no store and is answered without arithmetic. -/
def Request.Reads : Request → Prop
  | .store call => call.Reads
  | _ => True

/-- A program that only reads, and computes nothing that may overflow. -/
def Program.Reads : Program Request Request.Answer α → Prop
  | .done _ => True
  | .stop _ => False
  | .ask q next => q.Reads ∧ ∀ answer, (next answer).Reads

namespace Program

variable {p : Program Request Request.Answer α} {σ : Scene}

theorem Reads.bind {f : α → Program Request Request.Answer β} (hp : p.Reads)
    (hf : ∀ a, (f a).Reads) : (p.bind f).Reads := by
  induction p with
  | done a => exact hf a
  | stop o => exact hp.elim
  | ask q next ih => exact ⟨hp.1, fun answer => ih answer (hp.2 answer)⟩

/-- An answer to a request that reads leaves the store as it is. -/
theorem idle_of_answers {q : Request} {answer : q.Answer} {s : Store} {drawn : List Id}
    (hq : q.Reads) (h : Concurrent.Answers σ.store σ.drawn q answer s drawn) :
    Idle σ (σ.answered ⟨q, answer⟩ s drawn) := by
  cases h with
  | store supply _ hstep =>
    obtain ⟨result, hanswer⟩ := hq σ.store supply
    unfold Store.step at hstep
    rw [hanswer] at hstep
    cases hstep
    exact .called σ
  | erp answer => exact .told σ
  | freshId hfresh => exact .drew σ
  | now time => exact .told σ

/-- A program that reads comes to a result, and the store is as it was. -/
theorem Reads.leads (hp : p.Reads) :
    Concurrent.Leads (fun result σ' => (∃ a, result = .ok a) ∧ Idle σ σ') p σ := by
  induction p generalizing σ with
  | done a => exact ⟨⟨a, rfl⟩, rfl, fun _ hid => hid⟩
  | stop o => exact hp.elim
  | ask q next ih =>
    obtain ⟨hq, hnext⟩ := hp
    constructor
    · intro answer s drawn hanswer
      refine (ih answer (hnext answer)).mono fun result σ' h => ⟨h.1, ?_⟩
      exact (idle_of_answers hq hanswer).trans h.2
    · rintro o ⟨supply, call, s, -, rfl, hstep⟩
      obtain ⟨result, hanswer⟩ := hq σ.store supply
      unfold Store.step at hstep
      rw [hanswer] at hstep
      cases hstep

end Program

namespace Action

/-- An action that only reads, and computes nothing that may overflow. -/
def Reads (x : Action α) : Prop := x.run.Reads

section Rules

variable {x : Action α} {result : Except Error α} {σ : Scene}

theorem Reads.bind {f : α → Action β} (hx : x.Reads) (hf : ∀ a, (f a).Reads) :
    (x >>= f).Reads := by
  refine Program.Reads.bind hx ?_
  rintro (e | a)
  · trivial
  · exact hf a

theorem Reads.attempt (hx : x.Reads) : Reads (Action.attempt x) :=
  Program.Reads.bind hx fun _ => trivial

theorem check_reads : Reads (check result) := trivial

theorem pure_reads {a : α} : Reads (pure a) := trivial

theorem require_reads {missing : Missing} {o : Option α} : Reads (require missing o) := by
  cases o <;> trivial

theorem erp_reads {connection : Id} {call : ErpCall} : (erp connection call).Reads :=
  ⟨trivial, fun _ => trivial⟩

theorem counts_reads {call : CountCall} (h : (StoreCall.counts call).Reads) : (counts call).Reads :=
  ⟨h, fun _ => trivial⟩

theorem mappings_reads {call : MappingCall} (h : (StoreCall.mappings call).Reads) :
    (mappings call).Reads :=
  ⟨h, fun _ => trivial⟩

/-- An action that reads ends without an overflow, and the store is as it was. -/
theorem Reads.leads (hx : x.Reads) :
    Leads (fun ending σ' => (∀ o, ending ≠ .overflow o) ∧ Idle σ σ') x σ := by
  refine Concurrent.Leads.mono (Program.Reads.leads hx) ?_
  rintro _ σ' ⟨⟨result, rfl⟩, hidle⟩
  refine ⟨fun o ho => ?_, hidle⟩
  cases result <;> cases ho

theorem bind_pure (x : Action α) : x >>= pure = x := by
  refine (congrArg (Program.bind x.run) (funext ?_)).trans (Program.bind_done_right x.run)
  rintro (e | a) <;> rfl

/-- Actions are run one after the other. -/
theorem bind_assoc {γ : Type} (x : Action α) (f : α → Action β) (g : β → Action γ) :
    x >>= f >>= g = x >>= fun a => f a >>= g := by
  refine (Program.bind_assoc _ _ _).trans (congrArg (Program.bind x.run) ?_)
  funext result
  cases result <;> rfl

end Rules
end Action

/-- Work in a session reads if it asks the store for nothing else. -/
theorem Erp.withSession_reads {connection : Id} {work : Action α} (h : work.Reads) :
    (Erp.withSession connection work).Reads := by
  have hclose : ∀ result : Except Error α, Action.Reads (do
      let _ ← Action.attempt (Action.erp connection .disconnect)
      Action.check result) :=
    fun result => Action.erp_reads.attempt.bind fun _ => Action.check_reads
  refine Action.erp_reads.attempt.bind fun opened => ?_
  cases opened with
  | ok _ => exact h.attempt.bind hclose
  | error e => exact hclose (.error e)

theorem Mapping.get_reads {tenant id : Id} : (Mapping.get tenant id).Reads :=
  (Action.mappings_reads fun s _ => ⟨s.mapping? tenant id, rfl⟩).bind fun _ => Action.require_reads

theorem Mapping.getGiven_reads {tenant : Id} {mapping : Option Id} :
    (Mapping.getGiven tenant mapping).Reads := by
  cases mapping with
  | none => exact Action.pure_reads
  | some id => exact Mapping.get_reads.bind fun _ => Action.pure_reads

theorem Mapping.findActive_reads {tenant : Id} {dataset : Dataset} :
    (Action.mappings (.findActive tenant dataset)).Reads :=
  Action.mappings_reads fun s _ => ⟨s.activeMapping? tenant dataset, rfl⟩

namespace Loading

section Sources

variable {sources : Sources} {tenant : Id} {limit : Nat}

theorem loadMapping_reads {m : Mapping} : (loadMapping sources m limit).Reads :=
  Action.check_reads.bind fun _ => Action.check_reads.bind fun _ =>
    (Erp.withSession_reads Action.erp_reads).bind fun _ => Action.pure_reads

theorem loadExtra_reads {dataset : Dataset} : (loadExtra sources tenant limit dataset).Reads := by
  refine Mapping.findActive_reads.bind fun found => ?_
  cases found with
  | none => exact Action.pure_reads
  | some m => exact loadMapping_reads.bind fun _ => Action.pure_reads

theorem loadConfigured_reads : (loadConfigured sources tenant limit).Reads := by
  refine Mapping.findActive_reads.bind fun items => Mapping.findActive_reads.bind fun stock => ?_
  cases items with
  | none => exact Action.pure_reads
  | some items =>
    cases stock with
    | none => exact Action.pure_reads
    | some stock =>
      exact loadMapping_reads.bind fun _ => loadMapping_reads.bind fun _ =>
        loadExtra_reads.bind fun _ => loadExtra_reads.bind fun _ => Action.pure_reads

theorem loadLegacy_reads : (loadLegacy sources limit).Reads := by
  unfold loadLegacy
  split
  · exact Action.check_reads.bind fun _ => Action.check_reads.bind fun _ =>
      (Erp.withSession_reads Action.erp_reads).bind fun _ => Action.pure_reads
  · exact Action.pure_reads

end Sources

/-- What a load has read: the batch of a source, unless none could be read. -/
structure Fetched where
  source : Source
  attempts : List Attempted
  batch : Option Batch

/-- Stores what was read. -/
def Fetched.store (count : Count) (location : Id) (f : Fetched) : Action Summary :=
  match f.batch with
  | some batch => storeBatch count location f.source f.attempts batch
  | none => return { source := f.source, version := count.currentVersion, attempts := f.attempts }

/-- Reads the first one of some sources that can be read. -/
def fetchFirst (attempts : List Attempted) :
    List (Source × String × Action (Option Batch)) → Action Fetched
  | [] => return ⟨.manualEntry,
      attempts ++ [⟨.manualEntry, true, "Items must be entered manually"⟩], none⟩
  | (source, absent, load) :: others => do
    let result ← Action.attempt load
    let attempts := attempts ++ [attemptedOf source absent result]
    match result with
    | .ok (some batch) => return ⟨source, attempts, some batch⟩
    | _ => fetchFirst attempts others

/-- Reads the mapping that is named, or the first source that can be read. -/
def fetch (sources : Sources) (tenant : Id) (r : LoadRequest) : Action Fetched := do
  let limit ← Action.check (rowLimit sources r.limit)
  match r.mapping with
  | some id =>
    let m ← Mapping.get tenant id
    let batch ← loadMapping sources m limit
    let attempted : Attempted :=
      ⟨.mapping, true, "Loaded with mapping '" ++ Text.harmless m.name ++ "'"⟩
    return ⟨.mapping, [attempted], some batch⟩
  | none => fetchFirst [] (sourcesInOrder sources tenant limit)

/-- Looks up the count of a load and reads what is to be stored in it. -/
def prepare (sources : Sources) (tenant count : Id) (r : LoadRequest) :
    Action (Count × Fetched) := do
  let seen ← Counting.editableCount tenant count
  return (seen, ← fetch sources tenant r)

/-- Where a load stores its items: at a location that is named, or in the warehouse of the count. -/
def LoadRequest.place (r : LoadRequest) (count : Count) : Id := r.location.getD count.warehouse

section Loads

variable {sources : Sources} {tenant count location : Id} {r : LoadRequest} {c : Count} {σ : Scene}

theorem loadFirst_eq {attempts : List Attempted}
    {entries : List (Source × String × Action (Option Batch))} :
    loadFirst c location attempts entries =
      fetchFirst attempts entries >>= Fetched.store c location := by
  induction entries generalizing attempts with
  | nil => rfl
  | cons entry entries ih =>
    obtain ⟨source, absent, load⟩ := entry
    unfold loadFirst fetchFirst
    rw [Action.bind_assoc]
    congr 1
    funext result
    match result with
    | .ok (some batch) => rfl
    | .ok none => exact ih
    | .error e => exact ih

/-- A load reads first and then stores what it has read. -/
theorem loadItems_eq : loadItems sources tenant count r =
    prepare sources tenant count r >>= fun (c, fetched) => fetched.store c (r.place c) := by
  unfold loadItems prepare fetch
  rw [Action.bind_assoc]
  congr 1
  funext c
  rw [Action.bind_assoc, Action.bind_assoc]
  refine congrArg (_ >>= ·) (funext fun limit => ?_)
  cases r.mapping with
  | some id =>
    dsimp only
    rw [Action.bind_assoc]
    refine congrArg (_ >>= ·) (funext fun m => ?_)
    rw [Action.bind_assoc]
    rfl
  | none => exact loadFirst_eq

theorem fetchFirst_reads {attempts : List Attempted}
    {entries : List (Source × String × Action (Option Batch))}
    (h : ∀ entry ∈ entries, entry.2.2.Reads) : (fetchFirst attempts entries).Reads := by
  induction entries generalizing attempts with
  | nil => exact Action.pure_reads
  | cons entry entries ih =>
    obtain ⟨source, absent, load⟩ := entry
    obtain ⟨hload, hothers⟩ := List.forall_mem_cons.mp h
    refine hload.attempt.bind fun result => ?_
    match result with
    | .ok (some batch) => exact Action.pure_reads
    | .ok none => exact ih hothers
    | .error e => exact ih hothers

theorem fetch_reads : (fetch sources tenant r).Reads := by
  refine Action.check_reads.bind fun limit => ?_
  cases r.mapping with
  | some id =>
    exact Mapping.get_reads.bind fun m => loadMapping_reads.bind fun _ => Action.pure_reads
  | none =>
    refine fetchFirst_reads ?_
    rw [sourcesInOrder, List.forall_mem_cons, List.forall_mem_singleton]
    exact ⟨loadConfigured_reads, loadLegacy_reads⟩

/-- What is read for a load is for a count that accepts items, and the store is as it was. -/
theorem leads_prepare : Action.Leads (fun ending σ₁ => (∀ o, ending ≠ .overflow o) ∧ Idle σ σ₁ ∧
    ∀ c fetched, ending = .success (c, fetched) → Editable σ.store tenant count c)
      (prepare sources tenant count r) σ := by
  refine Counting.leads_editableCount (fun _ e σ₁ _ hidle => ?_) fun c σ₁ hc hidle => ?_
  · exact ⟨by rintro _ ⟨⟩, hidle, by rintro _ _ ⟨⟩⟩
  · refine Action.leads_bind.mpr (fetch_reads.leads.mono fun ending σ₂ ⟨hno, hidle₂⟩ => ?_)
    cases ending with
    | success fetched =>
      refine ⟨by rintro _ ⟨⟩, hidle.trans hidle₂, ?_⟩
      rintro _ _ ⟨⟩
      exact hc
    | failure e => exact ⟨by rintro _ ⟨⟩, hidle.trans hidle₂, by rintro _ _ ⟨⟩⟩
    | overflow o => exact absurd rfl (hno o)

/-- The count that a load or an import goes to, as it is stored. -/
theorem Ready.of_editable {σ₁ : Scene} (hs : σ.store.Sound)
    (hdrawn : ∀ id ∈ σ.store.ids, id ∈ σ.drawn) (hc : Editable σ.store tenant count c)
    (hidle : Idle σ σ₁) : Ready c σ₁ where
  sound := hidle.store.symm ▸ hs
  drawn id hid := hidle.drawn id (hdrawn id (hidle.store ▸ hid))
  stored := hidle.store.symm ▸ (Store.count?_eq_some hc.1).1
  acceptsItems := hc.2

/-- A run of a load has read records for a count and gone on to store them. -/
def HasRead (sources : Sources) (tenant count : Id) (r : LoadRequest) (σ : Scene)
    (ending : Ending Summary) (σ' : Scene) (c : Count) (records : List ItemRecord) : Prop :=
  ∃ fetched σ₁, (prepare sources tenant count r).Runs σ (.success (c, fetched)) σ₁ ∧
    (∃ batch ∈ fetched.batch, batch.records = records) ∧
    (fetched.store c (r.place c)).Runs σ₁ ending σ'

/-- A load overflows just if the records that it reads exceed what can be computed with. -/
theorem loadItems_overflows_iff {ending : Ending Summary} {σ' : Scene} (hs : σ.store.Sound)
    (hdrawn : ∀ id ∈ σ.store.ids, id ∈ σ.drawn)
    (hrun : (loadItems sources tenant count r).Runs σ ending σ') :
    (∃ o, ending = .overflow o) ↔ ∃ c records,
      HasRead sources tenant count r σ ending σ' c records ∧
      Exceeds σ.store c (r.place c) records := by
  have hstores : ∀ {c fetched σ₁},
      (prepare sources tenant count r).Runs σ (.success (c, fetched)) σ₁ →
      (fetched.store c (r.place c)).OverflowsIff σ₁
        (∃ batch ∈ fetched.batch, Exceeds σ.store c (r.place c) batch.records) := by
    intro c fetched σ₁ hprepared
    obtain ⟨-, hidle, hc⟩ := Action.leads_iff_runs.mp leads_prepare _ _ hprepared
    unfold Fetched.store
    cases fetched.batch with
    | none => exact iff_of_false (by rintro ⟨_, ⟨⟩⟩) (by rintro ⟨_, ⟨⟩, _⟩)
    | some batch =>
      have hready := Ready.of_editable hs hdrawn (hc c fetched rfl) hidle
      refine (storeRecords_overflowsIff hready).mono fun ending _ hiff => hiff.trans ?_
      rw [hidle.store]
      exact ⟨fun h => ⟨batch, rfl, h⟩, by rintro ⟨_, ⟨⟩, h⟩; exact h⟩
  have hover : ∀ {ending : Ending Summary} {σ'}, (∃ c records,
      HasRead sources tenant count r σ ending σ' c records ∧
      Exceeds σ.store c (r.place c) records) → ∃ o, ending = .overflow o := by
    rintro ending σ' ⟨c, _, ⟨fetched, σ₁, hprepared, ⟨batch, hbatch, rfl⟩, hstored⟩, hexceeds⟩
    exact (Action.leads_iff_runs.mp (hstores hprepared) _ _ hstored).mpr ⟨batch, hbatch, hexceeds⟩
  have hleads : Action.Leads (fun ending σ' => (∃ o, ending = .overflow o) → ∃ c records,
      HasRead sources tenant count r σ ending σ' c records ∧
      Exceeds σ.store c (r.place c) records) (loadItems sources tenant count r) σ := by
    rw [loadItems_eq]
    refine Action.leads_bind.mpr (Action.leads_iff_runs.mpr fun first σ₁ hprepared => ?_)
    cases first with
    | success prepared =>
      obtain ⟨c, fetched⟩ := prepared
      rw [Action.andThen_success]
      refine Action.leads_iff_runs.mpr fun ending σ' hstored hoverflow => ?_
      obtain ⟨batch, hbatch, hexceeds⟩ :=
        (Action.leads_iff_runs.mp (hstores hprepared) _ _ hstored).mp hoverflow
      exact ⟨c, _, ⟨fetched, σ₁, hprepared, ⟨batch, hbatch, rfl⟩, hstored⟩, hexceeds⟩
    | failure e =>
      rintro ⟨_, ⟨⟩⟩
    | overflow o => exact absurd rfl ((Action.leads_iff_runs.mp leads_prepare _ _ hprepared).1 o)
  exact ⟨Action.leads_iff_runs.mp hleads _ _ hrun, hover⟩

end Loads

section Imports

variable {tenant count : Id} {mapping location : Option Id} {content : File.Content}
  {filename : String} {σ : Scene}

/-- The fields by which the rows of a file are read: those of the mapping that is named. -/
def fieldsGiven? (s : Store) (tenant : Id) : Option Id → Option (List FieldMapping)
  | some id => (s.mapping? tenant id).map (·.fields)
  | none => some []

/-- The mapping that is named is looked up, or nothing happens. -/
theorem leads_getGiven {β : Type} {post : Ending β → Scene → Prop}
    {f : Option Mapping → Action β}
    (hmissing : fieldsGiven? σ.store tenant mapping = none → ∀ e σ', post (.failure e) σ')
    (hrest : ∀ found σ', fieldsGiven? σ.store tenant mapping =
      some ((found.map (·.fields)).getD []) → Idle σ σ' → Action.Leads post (f found) σ') :
    Action.Leads post (Mapping.getGiven tenant mapping >>= f) σ := by
  cases mapping with
  | none => exact hrest none σ rfl ⟨rfl, fun _ hid => hid⟩
  | some id =>
    refine Action.leads_bind.mpr (Action.leads_bind.mpr (Action.leads_bind.mpr
      ((@Action.leads_mappings σ (.get tenant id) _).mpr fun supply _ => ?_)))
    change Action.Leads _ (Action.require (.mapping id) (σ.store.mapping? tenant id)) _
    cases hfound : σ.store.mapping? tenant id with
    | none => exact hmissing (by simp [fieldsGiven?, hfound]) _ _
    | some m => exact hrest (some m) _ (by simp [fieldsGiven?, hfound]) (.called σ)

/-- An import overflows just if the records of the file exceed what can be computed with. -/
theorem importItems_overflowsIff (hs : σ.store.Sound) (hdrawn : ∀ id ∈ σ.store.ids, id ∈ σ.drawn) :
    (importItems tenant count content filename location mapping).OverflowsIff σ
      (∃ c fields items, Editable σ.store tenant count c ∧
        fieldsGiven? σ.store tenant mapping = some fields ∧
        File.readItems content filename fields = .ok items ∧
        Exceeds σ.store c (location.getD c.warehouse) items.records) := by
  have hfails : ∀ {e : Error} {p : Prop}, ¬ p →
      ((∃ o, (Ending.failure e : Ending ImportSummary) = .overflow o) ↔ p) := fun hp =>
    iff_of_false (by rintro ⟨_, ⟨⟩⟩) hp
  refine Counting.leads_editableCount (fun hnone e _ _ _ => hfails ?_) fun c σ₁ hc h₁ => ?_
  · rintro ⟨c, -, -, hc, -⟩
    exact hnone c hc
  refine leads_getGiven (fun hmissing e σ₂ => hfails ?_) fun found σ₂ hfields h₂ => ?_
  · rintro ⟨-, fields, -, -, hfields, -⟩
    rw [h₁.store, hfields] at hmissing
    cases hmissing
  rw [h₁.store] at hfields
  dsimp only
  cases hitems : File.readItems content filename ((found.map (·.fields)).getD []) with
  | error defect =>
    refine hfails ?_
    rintro ⟨-, fields, items, -, hfields', hitems', -⟩
    cases hfields.symm.trans hfields'
    cases hitems.symm.trans hitems'
  | ok items =>
    have hready := Ready.of_editable hs hdrawn hc (h₁.trans h₂)
    refine Action.leads_check_bind.mpr (Action.leads_bind.mpr
      ((storeRecords_overflowsIff hready).mono fun ending σ₃ hiff => ?_))
    have hexceeds : (∃ c fields items, Editable σ.store tenant count c ∧
        fieldsGiven? σ.store tenant mapping = some fields ∧
        File.readItems content filename fields = .ok items ∧
        Exceeds σ.store c (location.getD c.warehouse) items.records) ↔
          Exceeds σ.store c (location.getD c.warehouse) items.records := by
      refine ⟨?_, fun h => ⟨c, _, items, hc, hfields, hitems, h⟩⟩
      rintro ⟨c', fields', items', hc', hfields', hitems', h⟩
      cases hc.1.symm.trans hc'.1
      cases hfields.symm.trans hfields'
      cases hitems.symm.trans hitems'
      exact h
    rw [(h₁.trans h₂).store] at hiff
    cases ending with
    | success load =>
      refine iff_of_false (by rintro ⟨_, ⟨⟩⟩) fun h => ?_
      obtain ⟨_, ⟨⟩⟩ := hiff.mpr (hexceeds.mp h)
    | failure e =>
      refine iff_of_false (by rintro ⟨_, ⟨⟩⟩) fun h => ?_
      obtain ⟨_, ⟨⟩⟩ := hiff.mpr (hexceeds.mp h)
    | overflow o => exact iff_of_true ⟨o, rfl⟩ (hexceeds.mpr (hiff.mp ⟨o, rfl⟩))

end Imports
end Loading
end Recount
