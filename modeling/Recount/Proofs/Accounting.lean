import Recount.Proofs.Fallback
import Recount.Proofs.Reloading

/-!
# No row is lost

A load or an import tells of every row that it read what became of it: a record, a row that was
dropped or a row at fault. The records are about items, and of each item it tells whether it was
inserted, updated or could not be stored. What could be stored is there when it is over.
-/

namespace Recount

open Concurrent (Exchange Fresh)
open Recount.Action (Ends)

section Passing

variable {s s' : Store} {drawn drawn' : List Id} {past : List Exchange} {call : StoreCall}

/-- A call is granted by the store, with what is drawn for it, or it changes nothing. -/
theorem Passes.of_call {answer : Except Error call.Result}
    (h : Passes s drawn (⟨.store call, answer⟩ :: past) s' drawn') :
    ∃ s₁ drawn₁, Passes s drawn past s₁ drawn₁ ∧ drawn₁ ⊆ drawn' ∧
      ((∃ supply result, answer = .ok result ∧ s₁.answer supply call = .ok (result, s') ∧
          Fresh drawn₁ supply s₁.demand ∧ drawn' = supply.ids s₁.demand ++ drawn₁) ∨
        s' = s₁ ∧ ∀ result, answer ≠ .ok result) := by
  cases h with
  | answered h hanswer =>
    cases hanswer with
    | store supply hfresh hstep =>
      refine ⟨_, _, h, List.subset_append_right _ _, ?_⟩
      rcases Store.step_cases hstep with ⟨result, heq, hanswer⟩ | ⟨hsame, hnot⟩
      · exact .inl ⟨supply, result, Except.ok.inj heq, hanswer, hfresh, rfl⟩
      · exact .inr ⟨hsame, fun result heq => hnot result (congrArg _ heq)⟩
  | refused h call e => exact ⟨_, _, h, List.Subset.refl _, .inr ⟨rfl, by simp⟩⟩

/-- What only reads leaves the store as it is. -/
theorem Passes.of_reads (h : Passes s drawn past s' drawn') (hreads : ∀ e ∈ past, e.request.Reads) :
    s' = s ∧ drawn ⊆ drawn' := by
  induction h with
  | start => exact ⟨rfl, List.Subset.refl _⟩
  | @answered past s₁ drawn₁ q answer s₂ drawn₂ h hanswer ih =>
    obtain ⟨hq, hbefore⟩ := List.forall_mem_cons.mp hreads
    obtain ⟨rfl, hdrawn⟩ := ih hbefore
    have hidle := Program.idle_of_answers (σ := ⟨s₁, drawn₁, []⟩) hq hanswer
    exact ⟨hidle.store, fun id hid => hidle.drawn id (hdrawn hid)⟩
  | refused h call e ih => exact ih (List.forall_mem_cons.mp hreads).2

/-- A single call that is granted. -/
theorem Passes.of_granted {result : call.Result}
    (h : Passes s drawn [⟨.store call, .ok result⟩] s' drawn') :
    drawn ⊆ drawn' ∧ ∃ supply, s.answer supply call = .ok (result, s') := by
  obtain ⟨s₁, drawn₁, hstart, hsub, ⟨supply, result', heq, hanswer, -⟩ | ⟨-, hnot⟩⟩ := h.of_call
  · cases hstart
    cases heq
    exact ⟨hsub, supply, hanswer⟩
  · exact absurd rfl (hnot result)

/-- An identifier is drawn that was never drawn before. -/
theorem Passes.of_drawing {id : Id} {time : Time}
    (h : Passes s drawn [⟨.freshId, id⟩, ⟨.now, time⟩] s' drawn') :
    s' = s ∧ drawn' = id :: drawn ∧ id ∉ drawn := by
  cases h with
  | answered h hdrawn =>
    cases h with
    | answered h htold =>
      cases h
      cases htold
      cases hdrawn with
      | freshId hfresh => exact ⟨rfl, rfl, hfresh⟩

end Passing

theorem Error.ofFile_eq_ok_iff {α : Type} {result : Except File.Defect α} {a : α} :
    Error.ofFile result = .ok a ↔ result = .ok a := by
  cases result <;> simp [Error.ofFile, Except.mapError]

/-- What the rows of a file are read as. -/
def File.Table.readings (t : File.Table) (fields : List FieldMapping) : List RowReading :=
  t.rows.map fun row => (File.itemOfRow fields row.2).map some

namespace Loading

variable {s s' : Store} {drawn drawn' : List Id} {tenant count location : Id} {c : Count}
  {past : List Exchange} {summary summary' : Summary} {records : List ItemRecord}

section Storing

/-- An item that is stored is there, and nothing that was there is lost. -/
theorem grows_of_storing {i : Item} {answer : Except Error (Item × UpsertOutcome)}
    (h : Passes s drawn (storing i answer) s' drawn') (hs : s.Identified drawn) :
    s.Grows s' ∧ s'.Identified drawn' ∧
      ∀ stored, answer = .ok stored → i.key ∈ s'.items.map Item.key := by
  obtain ⟨s₁, drawn₁, h, hsub, hcases⟩ := h.of_call
  obtain ⟨rfl, rfl, hfresh⟩ := h.of_drawing
  have hkept : s₁.Identified drawn' := hs.mono fun id hid => hsub (List.mem_cons_of_mem _ hid)
  rcases hcases with ⟨supply, ⟨j, outcome⟩, rfl, hanswer, -⟩ | ⟨rfl, hnot⟩
  · have hputs := Store.putsItem_of_upsertItem hanswer
    obtain ⟨hgrows, hkey⟩ := hputs.grows hs hfresh
    exact ⟨hgrows, hputs.identified hkept (hsub List.mem_cons_self), fun _ _ => hkey⟩
  · exact ⟨.refl, hkept, fun stored heq => absurd heq (hnot stored)⟩

/-- Of all items that are stored one after the other, those that are not refused are there in the
end. -/
theorem grows_of_storeAll (h : Ends (storeAll c location summary records) past (.ok summary'))
    (hpasses : Passes s drawn past s' drawn') (hs : s.Identified drawn) :
    s.Grows s' ∧ ∀ u ∈ upserts past, (∃ stored, u.2 = .ok stored) →
      u.1.key ∈ s'.items.map Item.key := by
  induction records generalizing s drawn summary past with
  | nil =>
    obtain ⟨rfl, -⟩ := h.of_done
    cases hpasses with
    | start => exact ⟨.refl, List.forall_mem_nil _⟩
  | cons record records ih =>
    rcases reaches_storeAll_cons h with ⟨-, hnot⟩ | ⟨i, answer, later, -, rfl, hlater⟩
    · exact absurd rfl (hnot _)
    obtain ⟨s₁, drawn₁, hfirst, hrest⟩ := passes_append.mp hpasses
    obtain ⟨hgrows, hs₁, hstored⟩ := grows_of_storing hfirst hs
    obtain ⟨hgrows', hothers⟩ := ih hlater hrest hs₁
    refine ⟨hgrows.trans hgrows', fun u hu => ?_⟩
    rw [upserts_append, List.mem_append] at hu
    rcases hu with hu | hu
    · obtain rfl : u = (i, answer) := by simpa [storing, upsert?] using hu
      rintro ⟨stored, heq⟩
      exact hgrows'.keys (hstored stored heq)
    · exact hothers u hu

end Storing

/-- The codes of the records that rows make. -/
def codesOf (readings : List RowReading) : List String :=
  (readings.filterMap RowReading.record?).map (·.code)

/-- What a summary tells of rows and of the items that were stored of them, and what there is in the
store in the end. -/
structure Accounted (rows : List Row) (readings : List RowReading) (c : Count) (location : Id)
    (storing : List Exchange) (s' : Store) (summary : Summary) : Prop where
  rowsRead : summary.rowsRead = rows.length
  /-- Each row makes a record, or it is dropped or at fault. -/
  rows : summary.rowsRead = (readings.filterMap RowReading.record?).length + summary.rowsDropped +
    summary.rowErrors.length
  rowsDropped : summary.rowsDropped = readings.countP RowReading.isDropped
  rowErrors : summary.rowErrors.map (·.message) = readings.filterMap RowReading.fault?
  /-- There is one item for each code, and each of them was to be stored once. -/
  items : summary.items = (codesOf readings).dedup.length
  stored : ((upserts storing).map (·.1.code)).Perm (codesOf readings).dedup
  /-- Each item was inserted, updated or refused. -/
  outcomes : summary.items = summary.inserted + summary.updated + summary.failed
  failed : summary.errors.length = summary.failed
  errors : summary.errors = refusals (upserts storing)
  once : (summary.errors.map (·.code)).Nodup
  kept : ∀ code ∈ codesOf readings, code ∉ summary.errors.map (·.code) →
    ∃ i ∈ s'.items, i.key = ⟨c.id, location, code, c.currentVersion⟩

section Accounts

variable {rows : List Row} {readings : List RowReading}
  {us : List (Item × Except Error (Item × UpsertOutcome))}

theorem codes_refusals_sublist : ((refusals us).map (·.code)).Sublist (us.map (·.1.code)) := by
  induction us with
  | nil => exact .slnil
  | cons u us ih =>
    rcases u with ⟨i, e | stored⟩
    · exact ih.cons_cons _
    · exact ih.cons _

/-- What is not among the refused items was not refused. -/
theorem exists_ok_of_not_mem_refusals {u : Item × Except Error (Item × UpsertOutcome)} (hu : u ∈ us)
    (hnot : u.1.code ∉ (refusals us).map (·.code)) : ∃ stored, u.2 = .ok stored := by
  rcases u with ⟨i, e | stored⟩
  · have hrefused : (⟨i.code, e.message⟩ : ItemError) ∈ refusals us :=
      List.mem_filterMap.mpr ⟨_, hu, rfl⟩
    exact absurd (List.mem_map_of_mem hrefused) hnot
  · exact ⟨stored, rfl⟩

/-- When all records are stored, each merged record has become an item, and the summary tells of all
answers. -/
theorem ends_storeRecords (h : Ends (storeRecords c location summary records) past (.ok summary')) :
    ∃ merged, ItemRecord.dedupe records = .ok merged ∧
      List.Forall₂ (fun r u => MadeOf c location r u.1) merged (upserts past) ∧
      summary' = ({ summary with items := merged.length } : Summary).addAll (upserts past) ∧
      Ends (storeAll c location { summary with items := merged.length } merged) past
        (.ok summary') := by
  rcases reaches_storeRecords h with ⟨-, o, ⟨⟩⟩ | ⟨merged, hmerged, hstored⟩
  obtain ⟨stored, others, rfl, hmade, hend⟩ := reaches_storeAll hstored
  obtain ⟨rfl, heq⟩ := hend _ rfl
  rw [List.append_nil] at hmerged hstored heq
  exact ⟨stored, hmerged, hmade, Except.ok.inj heq, hstored⟩

/-- Where a summary tells of rows, and of nothing that was stored, and the records of the rows are
stored, all of them are accounted for. -/
theorem accounted_of_storeRecords
    (hrowsRead : summary.rowsRead = rows.length) (hreadings : readings.length = rows.length)
    (hdropped : summary.rowsDropped = readings.countP RowReading.isDropped)
    (herrors : summary.rowErrors.map (·.message) = readings.filterMap RowReading.fault?)
    (hnew : summary.inserted = 0 ∧ summary.updated = 0 ∧ summary.failed = 0 ∧ summary.errors = [])
    (hcodes : records.map (·.code) = codesOf readings)
    (h : Ends (storeRecords c location summary records) past (.ok summary'))
    (hpasses : Passes s drawn past s' drawn') (hs : s.Identified drawn) :
    Accounted rows readings c location past s' summary' ∧ summary'.source = summary.source ∧
      s.Grows s' := by
  obtain ⟨merged, hmerged, hmade, rfl, hstored⟩ := ends_storeRecords h
  obtain ⟨hgrows, hthere⟩ := grows_of_storeAll hstored hpasses hs
  obtain ⟨hinserted, hupdated, hfailed, hnone⟩ := hnew
  have hperm : ((upserts past).map (·.1.code)).Perm (codesOf readings).dedup := by
    rw [codes_of_madeOf hmade, ← hcodes]
    exact ItemRecord.codes_dedupe hmerged
  have hitems : merged.length = (codesOf readings).dedup.length := by
    rw [← hperm.length_eq, codes_of_madeOf hmade, List.length_map]
  have hfaults : summary.rowErrors.length = (readings.filterMap RowReading.fault?).length := by
    rw [← herrors, List.length_map]
  refine ⟨⟨hrowsRead, ?_, hdropped, herrors, hitems, hperm, ?_, ?_, ?_, ?_,
    fun code hcode hnot => ?_⟩, rfl, hgrows⟩
  · change summary.rowsRead = _ + summary.rowsDropped + summary.rowErrors.length
    rw [hrowsRead, ← hreadings, hdropped, hfaults]
    exact RowReading.length_eq readings
  · have hall : (upserts past).countP wasInserted + (upserts past).countP wasUpdated +
        (refusals (upserts past)).length = (upserts past).length := countP_add_length_refusals
    have hlength : merged.length = (upserts past).length := hmade.length_eq
    simp [Summary.addAll, hinserted, hupdated, hfailed, hlength, hall]
  · simp [Summary.addAll, hfailed, hnone]
  · simp [Summary.addAll, hnone]
  · have hnodup : ((upserts past).map (·.1.code)).Nodup := hperm.nodup_iff.mpr (List.nodup_dedup _)
    simpa [Summary.addAll, hnone] using hnodup.sublist codes_refusals_sublist
  · obtain ⟨u, hu, rfl⟩ := List.mem_map.mp (hperm.mem_iff.mpr (List.mem_dedup.mpr hcode))
    obtain ⟨i, hi, hikey⟩ := List.mem_map.mp <| hthere u hu <|
      exists_ok_of_not_mem_refusals hu (by simpa [Summary.addAll, hnone] using hnot)
    obtain ⟨r, -, id, time, hmade⟩ := exists_mem_of_forall₂ hmade hu
    refine ⟨i, hi, hikey.trans ?_⟩
    rw [hmade]
    rfl

end Accounts

section Intakes

/-- A way to take items into a count. -/
inductive Intake where
  | load (sources : Sources) (r : LoadRequest)
  | file (content : File.Content) (filename : String) (location mapping : Option Id)

namespace Intake

/-- Takes items into the current version of a count. -/
def run (tenant count : Id) : Intake → Action Summary
  | load sources r => loadItems sources tenant count r
  | file content filename location mapping =>
    return (← importItems tenant count content filename location mapping).load

/-- Where the items are. -/
def place (c : Count) : Intake → Id
  | load _ r => r.place c
  | file _ _ location _ => location.getD c.warehouse

/-- The rows that are taken in, and what each of them is read as: the rows that were answered to the
queries of the source that is used in the end, or the rows of a file. -/
inductive Takes (tenant : Id) (s : Store) :
    Intake → List Exchange → Source → List Row → List RowReading → Prop
  | load {sources r limit vain used f portions} (hlimit : rowLimit sources r.limit = .ok limit)
      (hfetches : Fetches sources tenant r limit vain used f)
      (hrows : rowsAnswered used = portions.flatMap (·.rows))
      (hbatch : (f.batch.getD {}).Accounts portions) :
      Takes tenant s (.load sources r) (used ++ vain) f.source (rowsAnswered used)
        (portions.flatMap Portion.readings)
  | file {content filename location mapping past fields table}
      (hfields : fieldsGiven? s tenant mapping = some fields)
      (htable : File.read content filename = .ok table) :
      Takes tenant s (.file content filename location mapping) past .file (table.rows.map (·.2))
        (table.readings fields)

end Intake

/-- What is gathered of the rows of a file is gathered of their readings. -/
theorem filterMap_readings {β : Type} {table : File.Table} {fields : List FieldMapping}
    {ofRow : Nat × Except String ItemRecord → Option β} {ofReading : RowReading → Option β}
    (h : ∀ number result, ofRow (number, result) = ofReading (result.map some)) :
    (table.rows.map fun row => (row.1, File.itemOfRow fields row.2)).filterMap ofRow =
      (table.readings fields).filterMap ofReading := by
  simp only [File.Table.readings, List.filterMap_map, Function.comp_def, h]

/-- The rows of a file are accounted for by its items. -/
theorem readings_of_readItems {content : File.Content} {filename : String}
    {fields : List FieldMapping} {items : File.Items}
    (h : File.readItems content filename fields = .ok items) :
    ∃ table, File.read content filename = .ok table ∧
      items.rowsRead = (table.rows.map (·.2)).length ∧
      items.records = (table.readings fields).filterMap RowReading.record? ∧
      items.rowErrors.map (·.message) = (table.readings fields).filterMap RowReading.fault? := by
  unfold File.readItems at h
  obtain ⟨table, htable, h⟩ := bind_eq_ok_iff.mp h
  dsimp only at h
  split at h
  · cases h
  · cases h
    refine ⟨table, htable, (List.length_map _).symm, filterMap_readings ?_, ?_⟩
    · rintro _ (e | record) <;> rfl
    · rw [List.map_filterMap]
      refine filterMap_readings ?_
      rintro _ (e | record) <;> rfl

/-- A row without a code is at fault in a file. -/
theorem countP_isDropped_readings {table : File.Table} {fields : List FieldMapping} :
    (table.readings fields).countP RowReading.isDropped = 0 := by
  rw [List.countP_eq_zero]
  intro reading hreading
  obtain ⟨row, -, rfl⟩ := List.mem_map.mp hreading
  cases File.itemOfRow fields row.2 <;> simp [Except.map, RowReading.isDropped]

/-- What is read leaves the store as it is, and the count is there. -/
theorem passes_after_reading {reading storing : List Exchange}
    (h : Passes s drawn (storing ++ reading ++ [lookup tenant count c]) s' drawn')
    (hreading : ∀ e ∈ reading, e.request.Reads) :
    s.count? tenant count = some c ∧ ∃ drawn₁ drawn₂, Passes s drawn₁ reading s drawn₂ ∧
      drawn ⊆ drawn₂ ∧ Passes s drawn₂ storing s' drawn' := by
  obtain ⟨s₁, drawn₁, hlookup, hrest⟩ := passes_append.mp h
  obtain ⟨s₂, drawn₂, hread, hstored⟩ := passes_append.mp hrest
  obtain ⟨hsub, supply, hanswer⟩ := hlookup.of_granted
  obtain ⟨hfound, rfl⟩ := Prod.mk.inj (Except.ok.inj hanswer)
  obtain ⟨rfl, hsub'⟩ := hread.of_reads hreading
  exact ⟨hfound, drawn₁, drawn₂, hread, fun _ hid => hsub' (hsub hid), hstored⟩

theorem passes_after_lookup {reading storing : List Exchange}
    (h : Passes s drawn (storing ++ reading ++ [lookup tenant count c]) s' drawn')
    (hreading : ∀ e ∈ reading, e.request.Reads) (hs : s.Identified drawn) :
    s.count? tenant count = some c ∧ ∃ drawn₁ drawn₂, Passes s drawn₁ reading s drawn₂ ∧
      s.Identified drawn₂ ∧ Passes s drawn₂ storing s' drawn' := by
  obtain ⟨hfound, drawn₁, drawn₂, hread, hsub, hstored⟩ := passes_after_reading h hreading
  exact ⟨hfound, drawn₁, drawn₂, hread, hs.mono hsub, hstored⟩

/-- The fields of a mapping that is named are those that the store has. -/
theorem fieldsGiven?_of_ends {mapping : Option Id} {found : Option Mapping}
    (h : Ends (Mapping.getGiven tenant mapping) past (.ok found))
    (hpasses : Passes s drawn past s' drawn') :
    fieldsGiven? s tenant mapping = some ((found.map (·.fields)).getD []) := by
  cases mapping with
  | none =>
    obtain ⟨-, heq⟩ := Action.ends_pure.mp h
    cases heq
    rfl
  | some id =>
    change Ends (Mapping.get tenant id >>= fun m => pure (some m)) past (.ok found) at h
    simp only [Mapping.get, Action.ends_ok_bind, Action.ends_pure] at h
    obtain ⟨m, _, _, rfl, ⟨stored, _, _, rfl, hfound, hrequired⟩, rfl, heq⟩ := h
    obtain rfl := Action.ends_mappings.mp hfound
    obtain ⟨rfl, rfl⟩ := Action.ends_require.mp hrequired
    cases heq
    obtain ⟨-, supply, hanswer⟩ := Passes.of_granted hpasses
    have hstored : s.mapping? tenant id = some m := congrArg Prod.fst (Except.ok.inj hanswer)
    rw [fieldsGiven?, hstored]
    rfl

/-- What was fetched is stored as the records of its batch, of which there are none if nothing was
read. -/
theorem Fetched.store_eq {f : Fetched} : f.store c location =
    storeRecords c location
      { source := f.source, version := c.currentVersion, rowsRead := (f.batch.getD {}).rowsRead
        rowsDropped := (f.batch.getD {}).rowsDropped, rowErrors := (f.batch.getD {}).rowErrors
        attempts := f.attempts } (f.batch.getD {}).records := by
  unfold Fetched.store
  cases f.batch <;> rfl

theorem length_readings {portions : List Portion} :
    (portions.flatMap Portion.readings).length = (portions.flatMap (·.rows)).length := by
  simp only [List.length_flatMap, Portion.readings, List.length_map]

/-- A load that succeeds has looked up its count, fetched something and stored it. -/
theorem ends_loadItems {sources : Sources} {r : LoadRequest}
    (h : Ends (loadItems sources tenant count r) past (.ok summary)) :
    ∃ c f reading storing, past = storing ++ reading ++ [lookup tenant count c] ∧
      Ends (fetch sources tenant r) reading (.ok f) ∧
      Ends (f.store c (r.place c)) storing (.ok summary) := by
  rw [loadItems_eq_bind] at h
  obtain ⟨c, _, _, rfl, hlookup, hrest⟩ := Action.ends_ok_bind.mp h
  obtain ⟨rfl, -⟩ := ends_editableCount.mp hlookup
  obtain ⟨f, reading, storing, rfl, hf, hstore⟩ := Action.ends_ok_bind.mp hrest
  exact ⟨c, f, reading, storing, rfl, hf, hstore⟩

/-- An import that succeeds has looked up its count and its mapping, and stored the items of the
file. -/
theorem ends_importItems {content : File.Content} {filename : String} {place mapping : Option Id}
    {result : ImportSummary}
    (h : Ends (importItems tenant count content filename place mapping) past (.ok result)) :
    ∃ c found items reading storing, past = storing ++ reading ++ [lookup tenant count c] ∧
      Ends (Mapping.getGiven tenant mapping) reading (.ok found) ∧
      File.readItems content filename ((found.map (·.fields)).getD []) = .ok items ∧
      Ends (storeRecords c (place.getD c.warehouse)
        { source := .file, version := c.currentVersion, rowsRead := items.rowsRead
          rowErrors := items.rowErrors } items.records) storing (.ok result.load) := by
  obtain ⟨c, _, _, rfl, hlookup, hrest⟩ := Action.ends_ok_bind.mp h
  obtain ⟨rfl, -⟩ := ends_editableCount.mp hlookup
  obtain ⟨found, reading, _, rfl, hgiven, hrest₁⟩ := Action.ends_ok_bind.mp hrest
  obtain ⟨items, _, _, rfl, hcheck, hrest₂⟩ := Action.ends_ok_bind.mp hrest₁
  obtain ⟨rfl, hread⟩ := Action.ends_check.mp hcheck
  obtain ⟨load, storing, _, rfl, hstore, hrest₃⟩ := Action.ends_ok_bind.mp hrest₂
  obtain ⟨rfl, heq⟩ := Action.ends_pure.mp hrest₃
  cases heq
  exact ⟨c, found, items, reading, storing, by simp, hgiven, Error.ofFile_eq_ok_iff.mp hread.symm,
    hstore⟩

/-- No row that is taken in is lost, if no other task comes between: a summary accounts for all rows
of the source that it tells, and for all items that are made of them. -/
theorem no_row_lost {x : Intake} (hs : s.Identified drawn)
    (hends : Ends (x.run tenant count) past (.ok summary))
    (hpasses : Passes s drawn past s' drawn') :
    ∃ c reading storing rows readings, past = storing ++ reading ++ [lookup tenant count c] ∧
      s.count? tenant count = some c ∧ s'.count? tenant count = some c ∧
      x.Takes tenant s reading summary.source rows readings ∧
      Accounted rows readings c (x.place c) storing s' summary := by
  cases x with
  | load sources r =>
    obtain ⟨c, f, _, storing, rfl, hf, hstore⟩ := ends_loadItems hends
    obtain ⟨limit, vain, used, hlimit, rfl, hfetches⟩ := ends_fetch hf
    obtain ⟨portions, hbatch, hrows⟩ := hfetches.accounts
    obtain ⟨hfound, _, _, -, hs₂, hstored⟩ :=
      passes_after_lookup hpasses (fetch_reads.of_reaches hf).2 hs
    rw [Fetched.store_eq] at hstore
    obtain ⟨haccounted, hsource, hgrows⟩ := accounted_of_storeRecords
      (hrows ▸ hbatch.rowsRead) (hrows ▸ length_readings) hbatch.rowsDropped hbatch.rowErrors
      ⟨rfl, rfl, rfl, rfl⟩ hbatch.codes hstore hstored hs₂
    refine ⟨c, used ++ vain, storing, rowsAnswered used, _, rfl, hfound, ?_, ?_, haccounted⟩
    · rwa [hgrows.count?_eq]
    · rw [hsource]
      exact .load hlimit hfetches hrows hbatch
  | file content filename location mapping =>
    obtain ⟨result, past, _, rfl, himport, hresult⟩ := Action.ends_ok_bind.mp hends
    obtain ⟨rfl, heq⟩ := Action.ends_pure.mp hresult
    cases heq
    obtain ⟨c, found, items, reading, storing, rfl, hgiven, hitems, hstore⟩ :=
      ends_importItems himport
    obtain ⟨hfound, _, _, hread, hs₂, hstored⟩ :=
      passes_after_lookup hpasses (Mapping.getGiven_reads.of_reaches hgiven).2 hs
    obtain ⟨table, htable, hrowsRead, hrecords, hrowErrors⟩ := readings_of_readItems hitems
    obtain ⟨haccounted, hsource, hgrows⟩ := accounted_of_storeRecords
      hrowsRead (by simp [File.Table.readings]) countP_isDropped_readings.symm hrowErrors
      ⟨rfl, rfl, rfl, rfl⟩ (congrArg _ hrecords) hstore hstored hs₂
    refine ⟨c, reading, storing, _, _, rfl, hfound, ?_, ?_, haccounted⟩
    · rwa [hgrows.count?_eq]
    · rw [hsource]
      exact .file (fieldsGiven?_of_ends hgiven hread) htable

end Intakes

section Replay

open Concurrent (Surroundings)

/-- Five rows of a file: two of an item that is there, one of a new item, one without a code and one
without a name. -/
def fiveRows : File.Content :=
  .ofBytes "code,name,qty\nA,Item A,3\nB,Item B,2\n,Item C,1\nD,,5\nA,other,4\n".toUTF8

/-- The rows are imported. -/
def fiveTaken : Intake := .file fiveRows "rows.csv" (some (.ofNat 5)) none

def fiveRun : Action Summary := fiveTaken.run (.ofNat 1) (.ofNat 1000)

theorem no_row_lost_sevenCounted : ∃ past s' drawn' summary c reading storing rows readings,
    sevenCounted.store.Identified sevenCounted.drawn ∧ Ends fiveRun past (.ok summary) ∧
      Passes sevenCounted.store sevenCounted.drawn past s' drawn' ∧
      (past = storing ++ reading ++ [lookup (.ofNat 1) (.ofNat 1000) c] ∧
        sevenCounted.store.count? (.ofNat 1) (.ofNat 1000) = some c ∧
        s'.count? (.ofNat 1) (.ofNat 1000) = some c ∧
        fiveTaken.Takes (.ofNat 1) sevenCounted.store reading summary.source rows readings ∧
        Accounted rows readings c (fiveTaken.place c) storing s' summary) ∧
      (summary.rowsRead, summary.items, summary.stored) = (5, 2, 1, 1) ∧
      summary.rowErrors.map (·.row) = [4, 5] := by
  have hfresh : (fromRound 30).FreshFor fiveRun.run sevenCounted.store sevenCounted.drawn 0 := by
    decide +kernel
  have hs : sevenCounted.store.Identified sevenCounted.drawn :=
    ⟨by decide +kernel, by decide +kernel⟩
  have htold : (((fromRound 30).perform fiveRun sevenCounted.store).1.toOption.bind
      Except.toOption).map (fun s => ((s.rowsRead, s.items, s.stored), s.rowErrors.map (·.row))) =
        some ((5, 2, 1, 1), [4, 5]) := by
    decide +kernel
  obtain ⟨summary, hsummary, htold⟩ := Option.map_eq_some_iff.mp htold
  obtain ⟨past, drawn', hends, hpasses⟩ := ends_perform hfresh hsummary
  obtain ⟨hcounts, hnumbers⟩ := Prod.mk.inj htold
  obtain ⟨c, reading, storing, rows, readings, h⟩ := no_row_lost hs hends hpasses
  exact ⟨past, _, drawn', summary, c, reading, storing, rows, readings, hs, hends, hpasses, h,
    hcounts, hnumbers⟩

end Replay

end Loading
end Recount
