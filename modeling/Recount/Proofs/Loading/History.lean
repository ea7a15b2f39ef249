import Recount.Proofs.Loading.Reading
import Recount.Proofs.Program.Reaches

/-!
# What a source was asked

What a program asked tells which rows it was answered and which items it had stored. A source that
could be read was answered all its queries, and its batch accounts for each of their rows. This is
read off the history alone, so it holds whatever the planning systems answer and whatever other
tasks do meanwhile.
-/

namespace Recount

open Concurrent (Exchange)
open Recount.Action (Ends)

section Told

/-- The answer to a query. -/
def queryAnswer? : Exchange → Option (Except ErpFault (List Row))
  | ⟨.erp _ (.query _), answer⟩ => some answer
  | _ => none

/-- The answers to queries, in the order in which the queries were sent. -/
def queryAnswers (past : List Exchange) : List (Except ErpFault (List Row)) :=
  past.reverse.filterMap queryAnswer?

/-- The rows that queries were answered. -/
def rowsAnswered (past : List Exchange) : List Row :=
  (queryAnswers past).flatMap fun answer => answer.toOption.getD []

/-- An item that was to be stored, with the answer to that. -/
def upsert? : Exchange → Option (Item × Except Error (Item × UpsertOutcome))
  | ⟨.store (.counts (.upsertItem item)), answer⟩ => some (item, answer)
  | _ => none

/-- The items that were to be stored, in their order. -/
def upserts (past : List Exchange) : List (Item × Except Error (Item × UpsertOutcome)) :=
  past.reverse.filterMap upsert?

variable {earlier later past : List Exchange} {e : Exchange}

@[simp] theorem queryAnswers_nil : queryAnswers [] = [] := rfl

@[simp] theorem queryAnswers_append :
    queryAnswers (later ++ earlier) = queryAnswers earlier ++ queryAnswers later := by
  simp [queryAnswers]

@[simp] theorem queryAnswers_cons :
    queryAnswers (e :: past) = queryAnswers past ++ (queryAnswer? e).toList := by
  rw [← List.singleton_append, queryAnswers_append]
  simp [queryAnswers, List.filterMap_cons]
  cases queryAnswer? e <;> rfl

@[simp] theorem upserts_nil : upserts [] = [] := rfl

@[simp] theorem upserts_append : upserts (later ++ earlier) = upserts earlier ++ upserts later := by
  simp [upserts]

@[simp] theorem upserts_cons : upserts (e :: past) = upserts past ++ (upsert? e).toList := by
  rw [← List.singleton_append, upserts_append]
  simp [upserts, List.filterMap_cons]
  cases upsert? e <;> rfl

end Told

/-- All that a program asks that only reads is read. -/
theorem Program.Reads.of_reaches {α : Type} {p r : Program Request Request.Answer α}
    {past : List Concurrent.Exchange} (hp : p.Reads) (hr : p.Reaches past r) :
    r.Reads ∧ ∀ e ∈ past, e.request.Reads := by
  induction hr with
  | start => exact ⟨hp, fun _ he => absurd he List.not_mem_nil⟩
  | ask _ answer ih =>
    obtain ⟨⟨hq, hnext⟩, hbefore⟩ := ih
    exact ⟨hnext answer, List.forall_mem_cons.mpr ⟨hq, hbefore⟩⟩

section Passing

open Concurrent (Answers Scene)

/-- A store goes through a history: it answers the calls as a store does, or a call is refused for
whatever reason and changes nothing. -/
inductive Passes (s : Store) (drawn : List Id) : List Exchange → Store → List Id → Prop
  | start : Passes s drawn [] s drawn
  | answered {past s₁ drawn₁ q answer s₂ drawn₂} (h : Passes s drawn past s₁ drawn₁)
      (hanswer : Answers s₁ drawn₁ q answer s₂ drawn₂) :
      Passes s drawn (⟨q, answer⟩ :: past) s₂ drawn₂
  | refused {past s₁ drawn₁} (h : Passes s drawn past s₁ drawn₁) (call : StoreCall) (e : Error) :
      Passes s drawn (⟨.store call, .error e⟩ :: past) s₁ drawn₁

variable {s s' : Store} {drawn drawn' : List Id} {earlier later past : List Exchange}

theorem passes_append : Passes s drawn (later ++ earlier) s' drawn' ↔
    ∃ s₁ drawn₁, Passes s drawn earlier s₁ drawn₁ ∧ Passes s₁ drawn₁ later s' drawn' := by
  constructor
  · intro h
    induction later generalizing s' drawn' with
    | nil => exact ⟨s', drawn', h, .start⟩
    | cons e later ih =>
      cases h with
      | answered h hanswer =>
        obtain ⟨s₁, drawn₁, hearlier, hlater⟩ := ih h
        exact ⟨s₁, drawn₁, hearlier, .answered hlater hanswer⟩
      | refused h call e =>
        obtain ⟨s₁, drawn₁, hearlier, hlater⟩ := ih h
        exact ⟨s₁, drawn₁, hearlier, .refused hlater call e⟩
  · rintro ⟨s₁, drawn₁, hearlier, hlater⟩
    induction hlater with
    | start => exact hearlier
    | answered _ hanswer ih => exact .answered ih hanswer
    | refused _ call e ih => exact .refused ih call e

/-- A program that runs alone to its end has a history that its store has gone through. -/
theorem Concurrent.Runs.exists_history {α : Type} {p : Program Request Request.Answer α} {a : α}
    {σ σ' : Scene} (h : Concurrent.Runs p σ (.ok a) σ') : ∃ past, σ'.past = past ++ σ.past ∧
      p.Reaches past (.done a) ∧ Passes σ.store σ.drawn past σ'.store σ'.drawn := by
  generalize hresult : Except.ok a = result at h
  induction h with
  | done =>
    cases hresult
    exact ⟨[], rfl, .start, .start⟩
  | stop => cases hresult
  | @answered q next answer s drawn result σ σ' hanswer _ ih =>
    obtain ⟨past, hpast, hreaches, hpasses⟩ := ih hresult
    refine ⟨past ++ [⟨q, answer⟩], ?_, ?_, ?_⟩
    · rw [hpast, List.append_assoc]
      rfl
    · exact (Program.Reaches.ask .start answer).trans hreaches
    · exact passes_append.mpr ⟨s, drawn, .answered .start hanswer, hpasses⟩
  | overflowed => cases hresult

theorem Action.Runs.exists_history {α : Type} {x : Action α} {a : α} {σ σ' : Scene}
    (h : x.Runs σ (.success a) σ') : ∃ past, σ'.past = past ++ σ.past ∧ Ends x past (.ok a) ∧
      Passes σ.store σ.drawn past σ'.store σ'.drawn := by
  obtain ⟨result, hruns, heq⟩ := h
  match result with
  | .ok (.ok a) =>
    cases heq
    exact hruns.exists_history
  | .ok (.error e) => cases heq
  | .error o => cases heq

end Passing

section Sessions

variable {connection : Id} {query : Sql.Query} {rows : List Row} {past : List Exchange}

/-- A session is closed and its result is handed on. -/
theorem Erp.ends_closing {α : Type} {result result' : Except Error α}
    (h : Ends (Action.attempt (Action.erp connection .disconnect) >>= fun _ =>
      Action.check result') past result) :
    queryAnswers past = [] ∧ result = result' := by
  rcases Action.ends_bind.mp h with ⟨_, closing, last, rfl, hclosing, hlast⟩ | ⟨_, -, hclosing⟩
  · obtain ⟨_, ⟨⟩, hclosing⟩ := Action.ends_attempt.mp hclosing
    obtain ⟨_, rfl, rfl⟩ := Action.ends_erp.mp hclosing
    obtain ⟨rfl, rfl⟩ := Action.ends_check.mp hlast
    exact ⟨rfl, rfl⟩
  · obtain ⟨_, ⟨⟩, _⟩ := Action.ends_attempt.mp hclosing

/-- A query that has succeeded was answered these rows. -/
theorem Erp.ends_runQuery (h : Ends (Erp.runQuery connection query) past (.ok rows)) :
    queryAnswers past = [.ok rows] ∧ ⟨.erp connection (.query query), .ok rows⟩ ∈ past := by
  obtain ⟨opened, opening, past, rfl, hopening, h⟩ := Action.ends_ok_bind.mp h
  obtain ⟨_, ⟨⟩, hopening⟩ := Action.ends_attempt.mp hopening
  obtain ⟨answer, rfl, rfl⟩ := Action.ends_erp.mp hopening
  cases answer with
  | error fault =>
    obtain ⟨result, work, closing, rfl, hwork, hclosing⟩ := Action.ends_ok_bind.mp h
    cases (Action.ends_pure.mp hwork).2
    cases (Erp.ends_closing hclosing).2
  | ok opened =>
    obtain ⟨result, work, closing, rfl, hwork, hclosing⟩ := Action.ends_ok_bind.mp h
    obtain ⟨_, ⟨⟩, hwork⟩ := Action.ends_attempt.mp hwork
    obtain ⟨found, rfl, rfl⟩ := Action.ends_erp.mp hwork
    obtain ⟨hnone, heq⟩ := Erp.ends_closing hclosing
    cases found with
    | error fault => cases heq
    | ok found =>
      cases heq
      exact ⟨by simp [hnone, queryAnswer?], by simp⟩

end Sessions

section Rows

/-- What a row is read as: a record, nothing, or a fault. -/
abbrev RowReading := Except String (Option ItemRecord)

namespace RowReading

def record? (reading : RowReading) : Option ItemRecord := reading.toOption.join

def isDropped : RowReading → Bool
  | .ok none => true
  | _ => false

def fault? : RowReading → Option String
  | .ok _ => none
  | .error message => some message

/-- Every row makes a record, is dropped or is at fault. -/
theorem length_eq (readings : List RowReading) : readings.length =
    (readings.filterMap record?).length + readings.countP isDropped +
      (readings.filterMap fault?).length := by
  induction readings with
  | nil => rfl
  | cons reading readings ih =>
    rw [List.length_cons, ih, List.countP_cons]
    rcases reading with message | _ | record <;>
      simp [record?, isDropped, fault?, Except.toOption, List.filterMap_cons] <;> omega

end RowReading

/-- Rows that are read with the same field mappings. -/
structure Portion where
  fields : List FieldMapping
  rows : List Row

def Portion.readings (p : Portion) : List RowReading :=
  p.rows.map fun row => (Transform.ofRow p.fields row).mapError RowDefect.message

/-- A batch has, for each row of some portions, a record, with or without its quantity, the row
counted as dropped, or its fault. -/
structure Batch.Accounts (b : Batch) (portions : List Portion) : Prop where
  rowsRead : b.rowsRead = (portions.flatMap (·.rows)).length
  records : List.Forall₂ (fun r read => r = read ∨ r = { read with systemQty := none }) b.records
    ((portions.flatMap Portion.readings).filterMap RowReading.record?)
  rowsDropped : b.rowsDropped = (portions.flatMap Portion.readings).countP RowReading.isDropped
  rowErrors : b.rowErrors.map (·.message) =
    (portions.flatMap Portion.readings).filterMap RowReading.fault?

variable {fields : List FieldMapping} {rows : List Row} {b b' : Batch} {ps ps' : List Portion}

/-- The records of rows are those of the usable ones. -/
theorem Batch.ofRows_records : (Batch.ofRows fields rows).records =
    rows.filterMap fun row => (Transform.ofRow fields row).toOption.join := by
  simp only [Batch.ofRows, List.filterMap_map]
  conv_rhs => rw [← List.zipIdx_map_fst 0 rows, List.filterMap_map]
  rfl

theorem Batch.ofRows_accounts : (Batch.ofRows fields rows).Accounts [⟨fields, rows⟩] := by
  have hreadings : [Portion.mk fields rows].flatMap Portion.readings =
      (rows.zipIdx.map fun e => (e.2 + 1, Transform.ofRow fields e.1)).map
        fun result => result.2.mapError RowDefect.message := by
    rw [List.flatMap_singleton, Portion.readings, List.map_map]
    conv_lhs => rw [← List.zipIdx_map_fst 0 rows, List.map_map]
    rfl
  constructor
  · simp [Batch.ofRows]
  · rw [hreadings, List.filterMap_map]
    have hrecord : (RowReading.record? ∘ fun result : Nat × Except RowDefect (Option ItemRecord) =>
        result.2.mapError RowDefect.message) = fun result => result.2.toOption.join := by
      funext ⟨_, result⟩
      cases result <;> rfl
    rw [hrecord]
    exact List.forall₂_same.mpr fun r _ => .inl rfl
  · rw [hreadings, List.countP_map]
    refine List.countP_congr fun ⟨_, result⟩ _ => ?_
    rcases result with defect | _ | record <;> rfl
  · rw [hreadings, List.filterMap_map]
    simp only [Batch.ofRows, List.map_filterMap]
    refine congrArg (List.filterMap · _) (funext fun ⟨_, result⟩ => ?_)
    cases result <;> rfl

theorem Batch.Accounts.withoutQuantities (h : b.Accounts ps) : b.withoutQuantities.Accounts ps := by
  refine ⟨h.rowsRead, ?_, h.rowsDropped, h.rowErrors⟩
  refine List.forall₂_map_left_iff.mpr (h.records.imp fun r read hr => ?_)
  rcases hr with rfl | rfl <;> exact .inr rfl

theorem Batch.Accounts.append (h : b.Accounts ps) (h' : b'.Accounts ps') :
    (b.append b').Accounts (ps ++ ps') := by
  constructor
  · simp [Batch.append, h.rowsRead, h'.rowsRead]
  · rw [List.flatMap_append, List.filterMap_append]
    exact List.rel_append h.records h'.records
  · rw [List.flatMap_append, List.countP_append, ← h.rowsDropped, ← h'.rowsDropped]
    rfl
  · rw [List.flatMap_append, List.filterMap_append, ← h.rowErrors, ← h'.rowErrors]
    exact List.map_append

theorem Batch.empty_accounts : ({} : Batch).Accounts [] := ⟨rfl, .nil, rfl, rfl⟩

theorem Batch.Accounts.codes (h : b.Accounts ps) : b.records.map (·.code) =
    ((ps.flatMap Portion.readings).filterMap RowReading.record?).map (·.code) := by
  refine List.forall₂_eq_eq_eq ▸ ?_
  refine List.forall₂_map_left_iff.mpr (List.forall₂_map_right_iff.mpr (h.records.imp ?_))
  rintro r read (rfl | rfl) <;> rfl

end Rows

namespace Loading

/-- What was read for a mapping. -/
structure Reading where
  mapping : Mapping
  rows : List Row

namespace Reading

def batch (x : Reading) : Batch := .ofRows x.mapping.fields x.rows

def portion (x : Reading) : Portion := ⟨x.mapping.fields, x.rows⟩

/-- The query of the mapping was sent over its connection and answered the rows. -/
def AnsweredIn (past : List Exchange) (sources : Sources) (limit : Nat) (x : Reading) : Prop :=
  ∃ dialect query, Erp.dialectOf sources.connections x.mapping.connection = .ok dialect ∧
    Sql.Compiler.compileMapping ⟨dialect, none⟩ x.mapping (some limit) = .ok query ∧
    ⟨.erp x.mapping.connection (.query query), .ok x.rows⟩ ∈ past

theorem AnsweredIn.mono {past past' : List Exchange} {sources : Sources} {limit : Nat} {x : Reading}
    (h : x.AnsweredIn past sources limit) (hsub : past ⊆ past') :
    x.AnsweredIn past' sources limit := by
  obtain ⟨dialect, query, hdialect, hquery, hmem⟩ := h
  exact ⟨dialect, query, hdialect, hquery, hsub hmem⟩

theorem batch_accounts (x : Reading) : x.batch.Accounts [x.portion] := Batch.ofRows_accounts

end Reading

/-- A mapping of a data set was looked for, and this is what was found. -/
def FoundIn (past : List Exchange) (tenant : Id) (dataset : Dataset) (found : Option Mapping) :
    Prop :=
  ⟨.store (.mappings (.findActive tenant dataset)), .ok found⟩ ∈ past

section Sources

variable {sources : Sources} {tenant : Id} {limit : Nat} {past : List Exchange} {batch : Batch}

theorem ends_loadMapping {m : Mapping} (h : Ends (loadMapping sources m limit) past (.ok batch)) :
    ∃ x : Reading, x.mapping = m ∧ x.AnsweredIn past sources limit ∧
      queryAnswers past = [.ok x.rows] ∧ batch = x.batch := by
  unfold loadMapping at h
  simp only [Action.ends_ok_bind, Action.ends_check, Action.ends_pure] at h
  obtain ⟨dialect, _, _, rfl, ⟨rfl, hdialect⟩, query, _, _, rfl, ⟨rfl, hquery⟩, rows, reading, _,
    rfl, hrows, rfl, hbatch⟩ := h
  obtain ⟨hanswers, hmem⟩ := Erp.ends_runQuery hrows
  simp only [List.nil_append, List.append_nil]
  refine ⟨⟨m, rows⟩, rfl, ⟨dialect, query, hdialect.symm, ?_, hmem⟩, hanswers, Except.ok.inj hbatch⟩
  cases hcompiled : Sql.Compiler.compileMapping ⟨dialect, none⟩ m (some limit) with
  | ok found =>
    rw [hcompiled] at hquery
    cases hquery
    rfl
  | error defect =>
    rw [hcompiled] at hquery
    cases hquery

theorem ends_findActive {dataset : Dataset} {found : Option Mapping}
    (h : Ends (Action.mappings (.findActive tenant dataset)) past (.ok found)) :
    queryAnswers past = [] ∧ FoundIn past tenant dataset found := by
  obtain rfl := Action.ends_mappings.mp h
  exact ⟨rfl, List.mem_singleton_self _⟩

/-- What enriches items is read if there is a mapping for it. -/
theorem ends_loadExtra {dataset : Dataset}
    (h : Ends (loadExtra sources tenant limit dataset) past (.ok batch)) :
    ∃ x : Option Reading, FoundIn past tenant dataset (x.map (·.mapping)) ∧
      (∀ y ∈ x, y.AnsweredIn past sources limit) ∧
      queryAnswers past = x.toList.map (.ok ·.rows) ∧
      batch = x.elim {} (·.batch.withoutQuantities) := by
  unfold loadExtra at h
  obtain ⟨found, finding, rest, rfl, hfound, hrest⟩ := Action.ends_ok_bind.mp h
  obtain ⟨hnone, hfound⟩ := ends_findActive hfound
  cases found with
  | none =>
    obtain ⟨rfl, hbatch⟩ := Action.ends_pure.mp hrest
    exact ⟨none, hfound, by rintro _ ⟨⟩, hnone, Except.ok.inj hbatch⟩
  | some m =>
    simp only [Action.ends_ok_bind, Action.ends_pure] at hrest
    obtain ⟨_, reading, _, rfl, hread, rfl, hbatch⟩ := hrest
    obtain ⟨x, rfl, hx, hanswers, rfl⟩ := ends_loadMapping hread
    refine ⟨some x, List.mem_append_right _ hfound, ?_, by simp [hnone, hanswers],
      Except.ok.inj hbatch⟩
    rintro _ ⟨⟩
    exact hx.mono fun _ => List.mem_append_left _

/-- The data sets that are read, in their order. -/
def datasets : List Dataset := [.items, .stock, .cost, .price]

/-- What was read for the active mappings, and the batch that is made of it: those of items and of
stock are there, and only the stock says quantities. -/
structure ReadFor (sources : Sources) (tenant : Id) (limit : Nat) (past : List Exchange)
    (reading : Dataset → Option Reading) (batch : Batch) : Prop where
  found : ∀ d ∈ datasets, FoundIn past tenant d ((reading d).map (·.mapping))
  answered : ∀ d ∈ datasets, ∀ x ∈ reading d, x.AnsweredIn past sources limit
  items : (reading .items).isSome
  stock : (reading .stock).isSome
  queries : queryAnswers past = (datasets.filterMap reading).map (.ok ·.rows)
  records : batch.records = datasets.flatMap fun d => ((reading d).map fun x =>
    if d = .stock then x.batch.records else x.batch.withoutQuantities.records).getD []
  accounts : batch.Accounts ((datasets.filterMap reading).map Reading.portion)

/-- What was read for each data set: the destination is written to, never read. -/
def readingOf (items stock : Reading) (cost price : Option Reading) : Dataset → Option Reading
  | .items => some items
  | .stock => some stock
  | .cost => cost
  | .price => price
  | .destination => none

/-- The active mappings are read one after the other, and each query is answered. -/
theorem ends_loadConfigured
    (h : Ends (loadConfigured sources tenant limit) past (.ok (some batch))) :
    ∃ reading, ReadFor sources tenant limit past reading batch := by
  unfold loadConfigured at h
  obtain ⟨items, findingItems, _, rfl, hitems, hrest⟩ := Action.ends_ok_bind.mp h
  obtain ⟨stock, findingStock, _, rfl, hstock, hrest⟩ := Action.ends_ok_bind.mp hrest
  obtain ⟨hnone₁, hitems⟩ := ends_findActive hitems
  obtain ⟨hnone₂, hstock⟩ := ends_findActive hstock
  rcases items with _ | items
  · cases (Action.ends_pure.mp hrest).2
  rcases stock with _ | stock
  · cases (Action.ends_pure.mp hrest).2
  · simp only [Action.ends_ok_bind, Action.ends_pure] at hrest
    obtain ⟨_, h₁, _, rfl, hdescribed, _, h₂, _, rfl, hstocked, _, h₃, _, rfl, hcost, _, h₄, _, rfl,
      hprice, rfl, hbatch⟩ := hrest
    obtain ⟨x, rfl, hx, hxa, rfl⟩ := ends_loadMapping hdescribed
    obtain ⟨y, rfl, hy, hya, rfl⟩ := ends_loadMapping hstocked
    obtain ⟨cost, hcfound, hc, hca, rfl⟩ := ends_loadExtra hcost
    obtain ⟨price, hpfound, hp, hpa, rfl⟩ := ends_loadExtra hprice
    have hreadings : datasets.filterMap (readingOf x y cost price) =
        x :: y :: (cost.toList ++ price.toList) := by
      cases cost <;> cases price <;> rfl
    have haccounts : ∀ z : Option Reading, (z.elim {} (·.batch.withoutQuantities)).Accounts
        (z.toList.map Reading.portion) := by
      rintro (_ | z)
      · exact Batch.empty_accounts
      · exact z.batch_accounts.withoutQuantities
    refine ⟨readingOf x y cost price, ⟨?_, ?_, rfl, rfl, ?_, ?_, ?_⟩⟩
    · unfold FoundIn at hitems hstock hcfound hpfound
      simp [datasets, readingOf, FoundIn, hitems, hstock, hcfound, hpfound]
    · simp only [datasets, List.forall_mem_cons, readingOf]
      refine ⟨?_, ?_, fun z hz => ?_, fun z hz => ?_, List.forall_mem_nil _⟩
      · rintro _ ⟨⟩
        exact hx.mono fun e he => by simp [he]
      · rintro _ ⟨⟩
        exact hy.mono fun e he => by simp [he]
      · exact (hc z hz).mono fun e he => by simp [he]
      · exact (hp z hz).mono fun e he => by simp [he]
    · rw [hreadings]
      simp [hnone₁, hnone₂, hxa, hya, hca, hpa]
    · cases Except.ok.inj hbatch
      cases cost <;> cases price <;>
        simp [datasets, readingOf, Batch.append, Batch.withoutQuantities]
    · cases Except.ok.inj hbatch
      rw [hreadings]
      simpa using ((x.batch_accounts.withoutQuantities.append y.batch_accounts).append
        (haccounts cost)).append (haccounts price)

/-- The table that is read without mapping has one query. -/
theorem ends_loadLegacy (h : Ends (loadLegacy sources limit) past (.ok (some batch))) :
    ∃ rows, queryAnswers past = [.ok rows] ∧ batch = .ofRows [] rows := by
  unfold loadLegacy at h
  split at h
  · simp only [Action.ends_ok_bind, Action.ends_check, Action.ends_pure] at h
    obtain ⟨dialect, _, _, rfl, ⟨rfl, -⟩, sql, _, _, rfl, ⟨rfl, -⟩, rows, reading, _, rfl, hrows,
      rfl, hbatch⟩ := h
    obtain ⟨hanswers, -⟩ := Erp.ends_runQuery hrows
    exact ⟨rows, by simpa using hanswers, Option.some.inj (Except.ok.inj hbatch)⟩
  · cases (Action.ends_pure.mp h).2

end Sources

end Loading
end Recount
