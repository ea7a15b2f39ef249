import Recount.Proofs.Accounting
import Recount.Proofs.Failure
import Recount.Proofs.StockQuantities
import Recount.Proofs.Variances

/-!
# What a load replaces

A load for a mapping, or an import, stores one record for each code of its rows. An item for which
one was stored keeps its identity and what was counted of it, but all that was known of it is
replaced by what the rows of its code supply. Where they supply nothing, nothing is known from then
on: the quantity is zero, the name is the code, and every other field is empty.
-/

namespace Recount

open Concurrent (Exchange)
open Recount.Action (Ends)

section Passing

variable {s s' : Store} {drawn drawn' : List Id} {past : List Exchange}

/-- What was granted while a program only read is what the store has. -/
theorem Passes.granted_of_reads {call : StoreCall} {result : call.Result}
    (h : Passes s drawn past s' drawn') (hreads : ∀ e ∈ past, e.request.Reads)
    (he : ⟨.store call, .ok result⟩ ∈ past) :
    ∃ supply s'', s.answer supply call = .ok (result, s'') := by
  obtain ⟨later, earlier, rfl⟩ := List.append_of_mem he
  obtain ⟨-, hbefore⟩ := List.forall_mem_cons.mp (List.forall_mem_append.mp hreads).2
  obtain ⟨s₁, drawn₁, hcall, -⟩ := passes_append.mp h
  obtain ⟨s₂, drawn₂, hearlier, -, ⟨supply, result', heq, hanswer, -⟩ | ⟨-, hnot⟩⟩ :=
    hcall.of_call
  · obtain ⟨rfl, -⟩ := hearlier.of_reads hbefore
    cases heq
    exact ⟨supply, _, hanswer⟩
  · exact absurd rfl (hnot result)

end Passing

namespace Loading

open Concurrent (World Reachable nobody)
open ItemRecord (ofCode quantities AddsExactly)
open Store (Upserted)

variable {s s' : Store} {drawn drawn' : List Id} {tenant count location : Id} {c : Count}
  {past : List Exchange} {summary : Summary} {records merged : List ItemRecord}

/-! ### What the rows of a code supply -/

/-- What is known of the item with a code is what records of this code supply. -/
structure Supplied (records : List ItemRecord) (code : String) (known : Item.Known) : Prop where
  systemQty : AddsExactly records →
    known.systemQty.value = (quantities (ofCode code records)).sum
  unquantified : quantities (ofCode code records) = [] → known.systemQty = .zero
  name : known.name = ((ofCode code records).findSome? (·.name)).getD code
  uom : known.uom = (ofCode code records).findSome? (·.uom)
  packQty : known.packQty = (ofCode code records).findSome? (·.packQty)
  cost : known.cost = (ofCode code records).findSome? (·.cost)
  price : known.price = (ofCode code records).findSome? (·.price)
  barcodes : known.barcodes = (ofCode code records).findSome? (·.barcodes)
  category : known.category = (ofCode code records).findSome? (·.category)
  brand : known.brand = (ofCode code records).findSome? (·.brand)

theorem supplied_of_dedupe {m : ItemRecord} (h : ItemRecord.dedupe records = .ok merged)
    (hm : m ∈ merged) : Supplied records m.code m.known := by
  obtain ⟨hcontent, hnone⟩ := ItemRecord.content_of_dedupe h hm
  simp only [ItemRecord.content, ItemRecord.contentOf, ItemRecord.Content.mk.injEq] at hcontent
  obtain ⟨hname, -, huom, hpack, hcost, hprice, hbarcodes, hcategory, hbrand⟩ := hcontent
  refine ⟨fun hexact => ?_, fun hquantities => ?_, congrArg (Option.getD · m.code) hname, huom,
    hpack, hcost, hprice, hbarcodes, hcategory, hbrand⟩
  · obtain ⟨_, hsame, hgathered⟩ := hexact.exists_dedupe
    cases h.symm.trans hsame
    exact ItemRecord.value_getD_systemQty
      (congrArg ItemRecord.Content.systemQty (ItemRecord.of_mem_forall₂ hgathered hm))
  · exact congrArg (Option.getD · .zero) (hnone.mpr hquantities)

/-! ### Records that are stored -/

/-- An item was stored under the key. -/
def StoredUnder (past : List Exchange) (key : Item.Key) : Prop :=
  ∃ u ∈ upserts past, u.1.key = key ∧ ∃ result, u.2 = .ok result

section Storing

variable {key : Item.Key} {i : Item} {answer : Except Error (Item × UpsertOutcome)}
  {r : ItemRecord} {rest : Program Request Request.Answer (Except Error Summary)}
  {earlier later : List Exchange}

theorem storedUnder_append :
    StoredUnder (later ++ earlier) key ↔ StoredUnder earlier key ∨ StoredUnder later key := by
  simp only [StoredUnder, upserts_append, List.mem_append, or_and_right, exists_or]

theorem storedUnder_storing :
    StoredUnder (storing i answer) key ↔ i.key = key ∧ ∃ result, answer = .ok result := by
  simp [StoredUnder, storing, upsert?]

/-- A record is stored, or nothing changes. -/
theorem upserted_of_storing (hmade : MadeOf c location r i)
    (h : Passes s drawn (storing i answer) s' drawn') (hready : Ready c ⟨s, drawn, []⟩) :
    Ready c ⟨s', drawn', []⟩ ∧ ((∃ stored outcome, answer = .ok (stored, outcome) ∧
      Upserted s i stored outcome s') ∨ s' = s ∧ ∀ result, answer ≠ .ok result) := by
  obtain ⟨s₁, drawn₁, h, hsub, hcases⟩ := h.of_call
  obtain ⟨rfl, rfl, hnew⟩ := h.of_drawing
  rcases hcases with ⟨supply, ⟨j, outcome⟩, rfl, hanswer, hsupply, rfl⟩ | ⟨rfl, hnot⟩
  · obtain ⟨id, time, rfl⟩ := hmade
    obtain ⟨hupserted, hready'⟩ := hready.upserted hnew hsupply hanswer
    exact ⟨hready', .inl ⟨j, outcome, rfl, hupserted⟩⟩
  · refine ⟨⟨hready.sound, fun id hid => ?_, hready.stored, hready.acceptsItems⟩, .inr ⟨rfl, hnot⟩⟩
    exact hsub (List.mem_cons_of_mem _ (hready.drawn id hid))

/-- As long as no item is stored, storing records only reads. -/
theorem reads_of_upserts_eq_nil (h : (storeAll c location summary records).run.Reaches past rest)
    (hnone : upserts past = []) : ∀ e ∈ past, e.request.Reads := by
  intro e he
  obtain ⟨later, earlier, rfl⟩ := List.append_of_mem he
  rcases (Program.Reaches.keeps h (storeAll_follows [])).2 later e earlier rfl with
    hreads | ⟨i, hi⟩
  · exact hreads
  · rw [upserts_append, upserts_cons, List.append_eq_nil_iff, List.append_eq_nil_iff] at hnone
    obtain ⟨_, answer⟩ := e
    cases hi
    exact absurd hnone.1.2 (by simp [upsert?])

/-- Of records with codes of their own, some are stored, and these only. -/
theorem stored_of_storeAll (h : (storeAll c location summary records).run.Reaches past rest)
    (hpasses : Passes s drawn past s' drawn') (hready : Ready c ⟨s, drawn, []⟩)
    (hdistinct : records.Pairwise (·.code ≠ ·.code)) :
    ∃ stored, stored.Sublist records ∧ Stored c location stored s s' ∧ s'.Sound ∧
      ∀ key, StoredUnder past key ↔ ∃ r ∈ stored, keyOf c location r = key := by
  induction records generalizing s drawn summary past with
  | nil =>
    obtain ⟨rfl, -⟩ := h.of_done
    cases hpasses with
    | start => exact ⟨[], .slnil, .nil, hready.sound, by simp [StoredUnder]⟩
  | cons record records ih =>
    rcases reaches_storeAll_cons h with ⟨hnone, -⟩ | ⟨i, answer, later, hmade, rfl, hlater⟩
    · -- The first record has not been stored yet.
      obtain ⟨rfl, -⟩ := hpasses.of_reads (reads_of_upserts_eq_nil h hnone)
      exact ⟨[], List.nil_sublist _, .nil, hready.sound, by simp [StoredUnder, hnone]⟩
    obtain ⟨s₁, drawn₁, hfirst, hrest⟩ := passes_append.mp hpasses
    obtain ⟨hdiffers, hdistinct⟩ := List.pairwise_cons.mp hdistinct
    obtain ⟨hready₁, hcases⟩ := upserted_of_storing hmade hfirst hready
    obtain ⟨stored, hsub, hstored, hsound, hunder⟩ := ih hlater hrest hready₁ hdistinct
    have hkey : i.key = keyOf c location record := by
      obtain ⟨id, time, rfl⟩ := hmade
      rfl
    have hknown : i.known = record.known := by
      obtain ⟨id, time, rfl⟩ := hmade
      rfl
    rcases hcases with ⟨j, outcome, rfl, hupserted⟩ | ⟨rfl, hnot⟩
    · refine ⟨record :: stored, hsub.cons_cons _, .cons hupserted hkey hknown hstored hsound
        fun other hother => hdiffers other (hsub.subset hother), hsound, fun key => ?_⟩
      simp [storedUnder_append, storedUnder_storing, hunder, hkey]
    · refine ⟨stored, hsub.cons _, hstored, hsound, fun key => ?_⟩
      simp [storedUnder_append, storedUnder_storing, hunder, hnot]

end Storing

/-! ### What becomes of an item -/

/-- What an item has become of which a record was stored: it keeps its identity and what was counted
of it, and what is known of it is what the records of its code supply. Its variance and its report
are those of what is known and counted. -/
structure Replaced (records : List ItemRecord) (i j : Item) (s' : Store) : Prop where
  stored : j ∈ s'.items
  key : j.key = i.key
  tally : j.tally = i.tally
  known : Supplied records i.code j.known
  variance : j.StatesVariance
  current : s'.Current j

section Items

variable {i : Item} {code : String} {summary' : Summary}
  {rest : Program Request Request.Answer (Except Error Summary)}

/-- Storing records replaces what was known of the items for which one was stored, and leaves the
others as they are. -/
theorem item_after_storeRecords
    (h : (storeRecords c location summary records).run.Reaches past rest)
    (hpasses : Passes s drawn past s' drawn') (hready : Ready c ⟨s, drawn, []⟩) (hi : i ∈ s.items) :
    (¬ StoredUnder past i.key → i ∈ s'.items) ∧
      (StoredUnder past i.key → i.key = ⟨c.id, location, i.code, c.currentVersion⟩ ∧
        i.code ∈ records.map (·.code) ∧ ∃ j, Replaced records i j s') := by
  rcases reaches_storeRecords h with ⟨rfl, -⟩ | ⟨merged, hmerged, hall⟩
  · cases hpasses with
    | start => exact ⟨fun _ => hi, fun ⟨u, hu, _⟩ => absurd hu List.not_mem_nil⟩
  have hcodes := ItemRecord.codes_dedupe hmerged
  have hdistinct : merged.Pairwise (·.code ≠ ·.code) :=
    List.pairwise_map.mp (hcodes.nodup_iff.mpr (List.nodup_dedup _))
  obtain ⟨stored, hsub, hstored, hsound, hunder⟩ := stored_of_storeAll hall hpasses hready hdistinct
  constructor
  · intro hnot
    refine (hstored.items i fun r hr heq => hnot ?_).mpr hi
    exact (hunder i.key).mpr ⟨r, hr, heq.symm⟩
  · intro hkey
    obtain ⟨r, hr, hrkey⟩ := (hunder i.key).mp hkey
    have hcode : r.code = i.code := congrArg Item.Key.code hrkey
    have hmem : i.code ∈ records.map (·.code) := by
      refine List.mem_dedup.mp (hcodes.subset ?_)
      exact hcode ▸ List.mem_map_of_mem (hsub.subset hr)
    obtain ⟨j, honly, hknown, hcurrent, htally⟩ := hstored.carried r hr
    obtain ⟨hj, hjkey⟩ := (honly j).mpr rfl
    have hsame : j.key = i.key := hjkey.trans hrkey
    refine ⟨hcode ▸ hrkey.symm, hmem, j, hj, hsame, htally i hi hsame.symm, ?_,
      (hsound.consistent j hj).statesVariance, hcurrent⟩
    rw [hknown, ← hcode]
    exact supplied_of_dedupe hmerged (hsub.subset hr)

/-- When all records are stored, there is an item for each code that the summary does not list as
refused. -/
theorem storedUnder_of_ends
    (h : Ends (storeRecords c location summary records) past (.ok summary'))
    (hnone : summary.errors = []) (hcode : code ∈ records.map (·.code))
    (hnot : code ∉ summary'.errors.map (·.code)) :
    StoredUnder past ⟨c.id, location, code, c.currentVersion⟩ := by
  obtain ⟨merged, hmerged, hmade, rfl, -⟩ := ends_storeRecords h
  have hstored : code ∈ (upserts past).map (·.1.code) := by
    rw [codes_of_madeOf hmade]
    exact (ItemRecord.codes_dedupe hmerged).symm.subset (List.mem_dedup.mpr hcode)
  obtain ⟨u, hu, rfl⟩ := List.mem_map.mp hstored
  obtain ⟨r, -, id, time, hmade⟩ := exists_mem_of_forall₂ hmade hu
  refine ⟨u, hu, ?_, exists_ok_of_not_mem_refusals hu (by simpa [Summary.addAll, hnone] using hnot)⟩
  rw [hmade]
  rfl

end Items

/-! ### Records that are taken in -/

namespace Intake

/-- The intake is for a mapping that is named, or of a file. -/
def IsNamed : Intake → Prop
  | load _ r => r.mapping.isSome = true
  | file .. => True

/-- The records of the rows that are taken in: of those that were answered to the query of the
mapping that is named, or of those of a file. -/
inductive Supplies (tenant : Id) (s : Store) :
    Intake → List Exchange → List ItemRecord → Prop
  | load {sources r id limit past} {x : Reading} (hnamed : r.mapping = some id)
      (hfound : s.mapping? tenant id = some x.mapping)
      (hlimit : rowLimit sources r.limit = .ok limit)
      (hanswered : x.AnsweredIn past sources limit) (hrows : queryAnswers past = [.ok x.rows]) :
      Supplies tenant s (.load sources r) past x.usable
  | file {content filename location mapping past fields table}
      (hfields : fieldsGiven? s tenant mapping = some fields)
      (htable : File.read content filename = .ok table) :
      Supplies tenant s (.file content filename location mapping) past
        ((table.readings fields).filterMap RowReading.record?)

/-- What is read before anything is stored: the records, and the summary for the version of the
count. -/
def read (tenant : Id) : Intake → Action ((Int → Summary) × List ItemRecord)
  | load sources r => do
    let f ← fetch sources tenant r
    return (fun version =>
      { source := f.source, version, rowsRead := (f.batch.getD {}).rowsRead
        rowsDropped := (f.batch.getD {}).rowsDropped, rowErrors := (f.batch.getD {}).rowErrors
        attempts := f.attempts }, (f.batch.getD {}).records)
  | file content filename _ mapping => do
    let found ← Mapping.getGiven tenant mapping
    let items ← Action.check (Error.ofFile
      (File.readItems content filename ((found.map (·.fields)).getD [])))
    return (fun version =>
      { source := .file, version, rowsRead := items.rowsRead, rowErrors := items.rowErrors },
      items.records)

variable {x : Intake} {taken : (Int → Summary) × List ItemRecord}

theorem run_eq : x.run tenant count = Counting.editableCount tenant count >>= fun c =>
    x.read tenant >>= fun taken =>
      storeRecords c (x.place c) (taken.1 c.currentVersion) taken.2 := by
  cases x with
  | load sources r =>
    refine loadItems_eq_bind.trans (congrArg (_ >>= ·) (funext fun c => ?_))
    refine Eq.trans ?_ (Action.bind_assoc _ _ _).symm
    exact congrArg (_ >>= ·) (funext fun f => Fetched.store_eq)
  | file content filename location mapping =>
    unfold run read importItems
    simp only [Action.bind_assoc]
    refine congrArg (_ >>= ·) (funext fun c => congrArg (_ >>= ·) (funext fun found => ?_))
    exact congrArg (_ >>= ·) (funext fun items => Action.bind_pure _)

theorem read_reads : (x.read tenant).Reads := by
  cases x with
  | load sources r => exact fetch_reads.bind fun _ => Action.pure_reads
  | file content filename location mapping =>
    exact Mapping.getGiven_reads.bind fun _ => Action.check_reads.bind fun _ => Action.pure_reads

/-- What is fetched for a mapping that is named are the records of the rows of its query. -/
theorem supplies_of_ends_fetch {sources : Sources} {r : LoadRequest} {f : Fetched}
    (hnamed : r.mapping.isSome = true) (h : Ends (fetch sources tenant r) past (.ok f))
    (hpasses : Passes s drawn past s' drawn') :
    Supplies tenant s (.load sources r) past (f.batch.getD {}).records := by
  have hreads := (fetch_reads.of_reaches h).2
  obtain ⟨limit, vain, used, hlimit, rfl, hfetches⟩ := ends_fetch h
  cases hfetches with
  | @named id x _ _ hmapping hfound hanswered hqueries =>
    rw [List.append_nil] at hpasses hreads ⊢
    obtain ⟨supply, s'', hanswer⟩ := hpasses.granted_of_reads hreads hfound
    have hrecords : x.batch.records = x.usable := Batch.ofRows_records
    have hstored : s.mapping? tenant id = some x.mapping :=
      congrArg Prod.fst (Except.ok.inj hanswer)
    exact hrecords ▸ .load hmapping hstored hlimit hanswered hqueries
  | tried hmapping =>
    rw [hmapping] at hnamed
    cases hnamed

theorem supplies_of_ends_read (hnamed : x.IsNamed) (h : Ends (x.read tenant) past (.ok taken))
    (hpasses : Passes s drawn past s' drawn') :
    x.Supplies tenant s past taken.2 ∧ ∀ version, (taken.1 version).errors = [] := by
  cases x with
  | load sources r =>
    obtain ⟨f, _, past, rfl, hf, hrest⟩ := Action.ends_ok_bind.mp h
    obtain ⟨rfl, heq⟩ := Action.ends_pure.mp hrest
    cases heq
    exact ⟨supplies_of_ends_fetch hnamed hf hpasses, fun _ => rfl⟩
  | file content filename location mapping =>
    obtain ⟨found, past, _, rfl, hgiven, hrest⟩ := Action.ends_ok_bind.mp h
    obtain ⟨items, _, _, rfl, hcheck, hrest⟩ := Action.ends_ok_bind.mp hrest
    obtain ⟨rfl, heq⟩ := Action.ends_pure.mp hrest
    obtain ⟨rfl, hread⟩ := Action.ends_check.mp hcheck
    cases heq
    obtain ⟨table, htable, -, hrecords, -⟩ :=
      readings_of_readItems (Error.ofFile_eq_ok_iff.mp hread.symm)
    have hfields := fieldsGiven?_of_ends hgiven (by simpa using hpasses)
    exact ⟨hrecords ▸ .file hfields htable, fun _ => rfl⟩

end Intake

/-- A load for a mapping that is named, or an import, that no other task interrupts: as long as it
has not begun to store records, nothing has changed. From then on, an item for which no record was
stored is as it was. An item for which one was stored is one of the current version at the place of
the intake, with a code of the rows; it keeps its identity and what was counted of it, but what is
known of it is what the rows of its code supply, whatever was known before. If the intake succeeds,
an item of a code of the rows is of this kind, unless the summary tells that it was refused. -/
theorem load_replaces_known {sources : Sources} {w : World} {x : Intake}
    {rest : Program Request Request.Answer (Except Error Summary)}
    (hw : Reachable sources nobody w) (hnamed : x.IsNamed)
    (hpast : (x.run tenant count).run.Reaches past rest)
    (hpasses : Passes w.store w.drawn past s' drawn') :
    (s' = w.store ∧ ∀ summary, rest ≠ .done (.ok summary)) ∨
      ∃ c reading storing records, past = storing ++ reading ++ [lookup tenant count c] ∧
        w.store.count? tenant count = some c ∧ x.Supplies tenant w.store reading records ∧
        ∀ i ∈ w.store.items,
          (¬ StoredUnder storing i.key → i ∈ s'.items) ∧
          (StoredUnder storing i.key → i.key = ⟨c.id, x.place c, i.code, c.currentVersion⟩ ∧
            i.code ∈ records.map (·.code) ∧ ∃ j, Replaced records i j s') ∧
          ∀ summary, rest = .done (.ok summary) →
            i.key = ⟨c.id, x.place c, i.code, c.currentVersion⟩ →
            i.code ∈ records.map (·.code) → i.code ∉ summary.errors.map (·.code) →
            StoredUnder storing i.key := by
  rw [Intake.run_eq] at hpast
  rcases Action.reaches_bind hpast with ⟨_, hlooking, hnot, -⟩ | ⟨c, _, later, rfl, hlooked, hrest⟩
  · obtain ⟨rfl, -⟩ := hpasses.of_reads (Counting.editableCount_reads.of_reaches hlooking).2
    exact .inl ⟨rfl, hnot⟩
  obtain ⟨rfl, hopen⟩ := ends_editableCount.mp hlooked
  rcases Action.reaches_bind hrest with
    ⟨_, hreading, hnot, -⟩ | ⟨taken, reading, storing, rfl, hread, hstoring⟩
  · obtain ⟨_, _, hlooked, hread⟩ := passes_append.mp hpasses
    obtain ⟨-, _, hanswer⟩ := hlooked.of_granted
    obtain ⟨-, rfl⟩ := Prod.mk.inj (Except.ok.inj hanswer)
    obtain ⟨rfl, -⟩ := hread.of_reads (Intake.read_reads.of_reaches hreading).2
    exact .inl ⟨rfl, hnot⟩
  obtain ⟨hfound, _, drawn₂, hpread, hsub, hpstoring⟩ :=
    passes_after_reading hpasses (Intake.read_reads.of_reaches hread).2
  obtain ⟨hsupplies, herrors⟩ := Intake.supplies_of_ends_read hnamed hread hpread
  have hready : Ready c ⟨w.store, drawn₂, []⟩ :=
    { sound := hw.sound.store
      drawn := fun id hid => hsub (hw.sound.known id hid).1
      stored := (Store.count?_eq_some hfound).1
      acceptsItems := hopen }
  refine .inr ⟨c, reading, storing, taken.2, rfl, hfound, hsupplies, fun i hi => ?_⟩
  obtain ⟨hkept, hreplaced⟩ := item_after_storeRecords hstoring hpstoring hready hi
  refine ⟨hkept, hreplaced, fun summary hend hkey hcode hnot => ?_⟩
  rw [hkey]
  exact storedUnder_of_ends (hend ▸ hstoring) (herrors _) hcode hnot

section Replay

open Concurrent (Move Surroundings played played_reachable newCount noSources goIn goOn oneDigit)

/-- An item is added of which the system knows seven, and seven were counted. -/
def sevenKnown : World := played noSources
  (.begin newCount :: goIn 1 0 ::
    .begin (.addItem (.ofNat 1) (.ofNat 1000)
      ⟨.ofNat 5, "A", "Item A", none, none, oneDigit 7, some (oneDigit 7)⟩ (.ofNat 3)) ::
    goOn 2 1 8)

/-- A row of the item, in a file without quantities. -/
def namesOnly : File.Content := .ofBytes "code,name\nA,Item A\n".toUTF8

/-- The row is imported. -/
def namesTaken : Intake := .file namesOnly "names.csv" (some (.ofNat 5)) none

def namesRun : Action Summary := namesTaken.run (.ofNat 1) (.ofNat 1000)

/-- The store afterwards. -/
def namesImported : Store := ((fromRound 30).perform namesRun sevenKnown.store).2

theorem exists_namesRun : ∃ past summary drawn', Ends namesRun past (.ok summary) ∧
    Passes sevenKnown.store sevenKnown.drawn past namesImported drawn' := by
  have hfresh : (fromRound 30).FreshFor namesRun.run sevenKnown.store sevenKnown.drawn 0 := by
    decide +kernel
  obtain ⟨summary, hsummary⟩ := Option.isSome_iff_exists.mp (by decide +kernel :
    (((fromRound 30).perform namesRun sevenKnown.store).1.toOption.bind
      Except.toOption).isSome = true)
  obtain ⟨past, drawn', hends, hpasses⟩ := ends_perform hfresh hsummary
  exact ⟨past, summary, drawn', hends, hpasses⟩

/-- What the system knows and what was counted of an item, and whether they differ. -/
def quantitiesOf (i : Item) : Decimal × Option Decimal × Bool :=
  (i.systemQty, i.countedQty, i.hasVariance)

theorem load_replaces_known_sevenKnown : ∃ past s' drawn' summary,
    Ends namesRun past (.ok summary) ∧ Passes sevenKnown.store sevenKnown.drawn past s' drawn' ∧
      ∃ i ∈ sevenKnown.store.items, ∃ records j, Replaced records i j s' ∧
        quantitiesOf i = (oneDigit 7, some (oneDigit 7), false) ∧
        quantitiesOf j = (.zero, some (oneDigit 7), true) := by
  have hbefore : ∃ i ∈ sevenKnown.store.items,
      quantitiesOf i = (oneDigit 7, some (oneDigit 7), false) := by decide +kernel
  have hafter : ∀ j ∈ namesImported.items, quantitiesOf j = (.zero, some (oneDigit 7), true) := by
    decide +kernel
  obtain ⟨past, summary, drawn', hends, hpasses⟩ := exists_namesRun
  obtain ⟨i, hi, hknown⟩ := hbefore
  have hlost : i ∉ namesImported.items := fun hmem =>
    absurd (hknown.symm.trans (hafter i hmem)) (by decide +kernel)
  have hw : Reachable noSources nobody sevenKnown := played_reachable fun _ _ h => h
  have hnamed : namesTaken.IsNamed := trivial
  rcases load_replaces_known hw hnamed hends hpasses with ⟨-, hnot⟩ | ⟨c, _, _, records, -, -, -, h⟩
  · exact absurd rfl (hnot summary)
  · obtain ⟨hkept, hreplaced, -⟩ := h i hi
    obtain ⟨-, -, j, hj⟩ := hreplaced (by_contra fun hnot => hlost (hkept hnot))
    exact ⟨past, _, drawn', summary, hends, hpasses, i, hi, records, j, hj, hknown,
      hafter j hj.stored⟩

/-- Rows that supply no quantity do not leave the quantity of their item as it is, nor its
variance. -/
theorem not_load_keeps_known : Reachable noSources nobody sevenKnown ∧
    (∃ table, File.read namesOnly "names.csv" = .ok table ∧
      quantities (ofCode "A" ((table.readings []).filterMap RowReading.record?)) = []) ∧
    ∃ past summary s' drawn', Ends namesRun past (.ok summary) ∧
      Passes sevenKnown.store sevenKnown.drawn past s' drawn' ∧
      sevenKnown.store.items.map (fun i => (i.code, quantitiesOf i)) =
        [("A", oneDigit 7, some (oneDigit 7), false)] ∧
      s'.items.map (fun i => (i.code, quantitiesOf i)) =
        [("A", .zero, some (oneDigit 7), true)] := by
  obtain ⟨past, summary, drawn', hends, hpasses⟩ := exists_namesRun
  refine ⟨played_reachable fun _ _ h => h, ⟨_, rfl, by decide +kernel⟩, past, summary, _, drawn',
    hends, hpasses, by decide +kernel, by decide +kernel⟩

end Replay

end Loading
end Recount
