import Recount.Proofs.Concurrent.Replay
import Recount.Proofs.Loading.History
import Recount.Proofs.Tenant.Performing

/-!
# Falling back on the next source

The history of a load falls into parts: the lookup of the count, the sources that were tried in
vain, the source that could be read, and the records of that source being stored one by one. What
was read in vain is forgotten.
-/

namespace Recount

open Concurrent (Exchange)
open Recount.Action (Ends)

namespace Loading

section Tries

/-- A source, what is reported if it is not there, and how it is read. -/
abbrev Entry := Source × String × Action (Option Batch)

/-- Sources are tried in their order, the first ones in vain, until one can be read or none is left.
There is a history of what was tried in vain, and one of the source that could be read. -/
inductive Tries : List Entry → (vain used : List Exchange) → Fetched → Prop
  | read {source absent load others used batch} (h : Ends load used (.ok (some batch))) :
      Tries ((source, absent, load) :: others) [] used
        ⟨source, [attemptedOf source absent (.ok (some batch))], some batch⟩
  | passed {source absent load others past result vain used f} (h : Ends load past result)
      (hvain : ∀ batch, result ≠ .ok (some batch)) (hothers : Tries others vain used f) :
      Tries ((source, absent, load) :: others) (vain ++ past) used
        { f with attempts := attemptedOf source absent result :: f.attempts }
  | manual : Tries [] [] []
      ⟨.manualEntry, [⟨.manualEntry, true, "Items must be entered manually"⟩], none⟩

variable {entries : List Entry} {vain used past : List Exchange} {f : Fetched}
  {attempts : List Attempted} {result : Except Error Fetched}

/-- Trying sources ends with the first one that can be read, or with none of them, but not with an
error. -/
theorem ends_fetchFirst (h : Ends (fetchFirst attempts entries) past result) :
    ∃ vain used f, past = used ++ vain ∧ Tries entries vain used f ∧
      result = .ok { f with attempts := attempts ++ f.attempts } := by
  induction entries generalizing attempts past with
  | nil =>
    obtain ⟨rfl, rfl⟩ := Action.ends_pure.mp h
    exact ⟨[], [], _, rfl, .manual, rfl⟩
  | cons entry entries ih =>
    obtain ⟨source, absent, load⟩ := entry
    unfold fetchFirst at h
    rcases Action.ends_bind.mp h with ⟨tried, trying, rest, rfl, htried, hrest⟩ | ⟨e, -, htried⟩
    · obtain ⟨_, ⟨⟩, htried⟩ := Action.ends_attempt.mp htried
      by_cases hread : ∃ batch, tried = .ok (some batch)
      · obtain ⟨batch, rfl⟩ := hread
        obtain ⟨rfl, rfl⟩ := Action.ends_pure.mp hrest
        exact ⟨[], trying, _, by simp, .read htried, rfl⟩
      · have hvain : ∀ batch, tried ≠ .ok (some batch) := not_exists.mp hread
        have hnext : Ends (fetchFirst (attempts ++ [attemptedOf source absent tried]) entries) rest
            result := by
          rcases tried with e | _ | batch
          · exact hrest
          · exact hrest
          · exact absurd rfl (hvain batch)
        obtain ⟨vain, used, f, rfl, hf, rfl⟩ := ih hnext
        exact ⟨vain ++ trying, used, _, by simp, .passed htried hvain hf, by simp⟩
    · obtain ⟨_, ⟨⟩, _⟩ := Action.ends_attempt.mp htried

/-- The sources that were tried are the first ones, up to the one that could be read. -/
theorem Tries.sources_prefix (h : Tries entries vain used f) :
    f.attempts.map (·.source) <+: entries.map (·.1) ++ [.manualEntry] := by
  induction h with
  | read h => simp [attemptedOf]
  | @passed source absent _ _ _ result _ _ _ h hvain hothers ih =>
    have hsource : (attemptedOf source absent result).source = source := by
      rcases result with e | _ | batch <;> rfl
    exact List.cons_prefix_cons.mpr ⟨hsource, ih⟩
  | manual => simp

/-- All attempts but the last one failed, and that one was at the source that could be read. -/
theorem Tries.attempts_eq (h : Tries entries vain used f) :
    ∃ failed last, f.attempts = failed ++ [last] ∧ (∀ a ∈ failed, a.success = false) ∧
      last.success = true ∧ last.source = f.source := by
  induction h with
  | read h => exact ⟨[], _, rfl, List.forall_mem_nil _, rfl, rfl⟩
  | @passed _ _ _ _ _ result _ _ _ h hvain hothers ih =>
    obtain ⟨failed, last, heq, hfailed, hlast⟩ := ih
    refine ⟨_ :: failed, last, congrArg (_ :: ·) heq, List.forall_mem_cons.mpr ⟨?_, hfailed⟩, hlast⟩
    match result with
    | .ok (some batch) => exact absurd rfl (hvain batch)
    | .ok none => rfl
    | .error e => rfl
  | manual => exact ⟨[], _, rfl, List.forall_mem_nil _, rfl, rfl⟩

/-- The source that could be read is one of those that were to be tried, if any of them could. -/
theorem Tries.source_mem (h : Tries entries vain used f) :
    f.source ∈ entries.map (·.1) ++ [.manualEntry] := by
  obtain ⟨failed, last, hattempts, -, -, hlast⟩ := h.attempts_eq
  refine h.sources_prefix.subset ?_
  rw [hattempts, List.map_append, ← hlast]
  exact List.mem_append_right _ (List.mem_singleton_self _)

/-- What the first source was asked is what was used, or it was asked in vain. -/
theorem Tries.first {source : Source} {absent : String} {load : Action (Option Batch)}
    {result : Except Error (Option Batch)} {whole : List Exchange}
    (h : Tries ((source, absent, load) :: entries) vain used f) (hwhole : used ++ vain <:+ whole)
    (hends : Ends load past result) (hpast : past <:+ whole) :
    (∃ batch, past = used ∧ result = .ok (some batch)) ∨
      past <:+ vain ∧ f.source ∈ entries.map (·.1) ++ [.manualEntry] := by
  cases h with
  | read hread =>
    rw [List.append_nil] at hwhole
    obtain ⟨rfl, rfl⟩ := hread.eq_of_suffixes hends hwhole hpast
    exact .inl ⟨_, rfl, rfl⟩
  | @passed _ _ _ _ before _ later _ _ hbefore hvain hothers =>
    have hsuffix : before <:+ later ++ before := List.suffix_append later before
    obtain ⟨rfl, rfl⟩ := hbefore.eq_of_suffixes hends
      ((hsuffix.trans (List.suffix_append used _)).trans hwhole) hpast
    exact .inr ⟨hsuffix, hothers.source_mem⟩

/-- What was read is what the source gave in its own part of the history. -/
theorem Tries.ends (h : Tries entries vain used f) :
    (f.batch = none ∧ used = [] ∧ f.source = .manualEntry) ∨ ∃ batch, f.batch = some batch ∧
      ∃ entry ∈ entries, entry.1 = f.source ∧ Ends entry.2.2 used (.ok (some batch)) := by
  induction h with
  | read h => exact .inr ⟨_, rfl, _, List.mem_cons_self, rfl, h⟩
  | passed h hvain hothers ih =>
    refine ih.imp id fun ⟨batch, hbatch, entry, hentry, hends⟩ => ?_
    exact ⟨batch, hbatch, entry, List.mem_cons_of_mem _ hentry, hends⟩
  | manual => exact .inl ⟨rfl, rfl, rfl⟩

end Tries

section Fetches

variable {sources : Sources} {tenant : Id} {r : LoadRequest} {limit : Nat}
  {vain used past : List Exchange} {f : Fetched} {batch : Batch}

/-- What a load reads: what the named mapping gives, or the first source that can be read. -/
inductive Fetches (sources : Sources) (tenant : Id) (r : LoadRequest) (limit : Nat) :
    (vain used : List Exchange) → Fetched → Prop
  | named {id : Id} {x : Reading} {used : List Exchange} {attempted : Attempted}
      (hmapping : r.mapping = some id)
      (hfound : ⟨.store (.mappings (.get tenant id)), .ok (some x.mapping)⟩ ∈ used)
      (hanswered : x.AnsweredIn used sources limit) (hqueries : queryAnswers used = [.ok x.rows]) :
      Fetches sources tenant r limit [] used ⟨.mapping, [attempted], some x.batch⟩
  | tried {vain used : List Exchange} {f : Fetched} (hmapping : r.mapping = none)
      (h : Tries (sourcesInOrder sources tenant limit) vain used f) :
      Fetches sources tenant r limit vain used f

theorem ends_fetch (h : Ends (fetch sources tenant r) past (.ok f)) :
    ∃ limit vain used, rowLimit sources r.limit = .ok limit ∧ past = used ++ vain ∧
      Fetches sources tenant r limit vain used f := by
  unfold fetch at h
  obtain ⟨limit, _, rest, rfl, hcheck, hrest⟩ := Action.ends_ok_bind.mp h
  obtain ⟨rfl, hlimit⟩ := Action.ends_check.mp hcheck
  rw [List.append_nil]
  cases hmapping : r.mapping with
  | some id =>
    simp only [hmapping, Mapping.get, Action.ends_ok_bind, Action.ends_pure] at hrest
    obtain ⟨m, _, _, rfl, ⟨found, _, _, rfl, hfound, hm⟩, _, reading, _, rfl, hread, rfl, heq⟩ :=
      hrest
    obtain rfl := Action.ends_mappings.mp hfound
    obtain ⟨rfl, rfl⟩ := Action.ends_require.mp hm
    obtain ⟨x, rfl, hx, hanswers, rfl⟩ := ends_loadMapping hread
    cases heq
    refine ⟨limit, [], _, hlimit.symm, (List.append_nil _).symm, .named hmapping ?_ ?_ ?_⟩
    · simp
    · exact hx.mono fun e he => by simp [he]
    · simp [hanswers, queryAnswer?]
  | none =>
    rw [hmapping] at hrest
    obtain ⟨vain, used, f', rfl, hf, heq⟩ := ends_fetchFirst hrest
    cases heq
    exact ⟨limit, vain, used, hlimit.symm, rfl, .tried hmapping hf⟩

/-- Where no mapping is named, something is read or left to be entered by hand. -/
theorem not_ends_fetch_error {e : Error} (hmapping : r.mapping = none)
    (hlimit : rowLimit sources r.limit = .ok limit) :
    ¬ Ends (fetch sources tenant r) past (.error e) := by
  intro h
  unfold fetch at h
  rw [hlimit, hmapping] at h
  have htried : Ends (fetchFirst [] (sourcesInOrder sources tenant limit)) past (.error e) := h
  obtain ⟨_, _, _, -, -, heq⟩ := ends_fetchFirst htried
  cases heq

/-- The rows of a batch were answered to the queries of its source. -/
theorem Fetches.accounts (h : Fetches sources tenant r limit vain used f) :
    ∃ portions, (f.batch.getD {}).Accounts portions ∧
      rowsAnswered used = portions.flatMap (·.rows) := by
  cases h with
  | @named id x _ _ _ hfound hanswered hqueries =>
    exact ⟨[x.portion], x.batch_accounts,
      by simp [rowsAnswered, hqueries, Reading.portion, Except.toOption]⟩
  | tried hmapping h =>
    rcases h.ends with ⟨hnone, rfl, -⟩ | ⟨batch, hsome, entry, hentry, -, hends⟩
    · rw [hnone]
      exact ⟨[], Batch.empty_accounts, rfl⟩
    · rw [hsome]
      simp only [sourcesInOrder, List.mem_cons, List.not_mem_nil, or_false] at hentry
      rcases hentry with rfl | rfl
      · obtain ⟨reading, hread⟩ := ends_loadConfigured hends
        refine ⟨_, hread.accounts, ?_⟩
        rw [rowsAnswered, hread.queries, List.flatMap_map, List.flatMap_map]
        rfl
      · obtain ⟨rows, hanswers, rfl⟩ := ends_loadLegacy hends
        exact ⟨_, Batch.ofRows_accounts, by simp [rowsAnswered, hanswers, Except.toOption]⟩

end Fetches

section Storing

variable {c : Count} {location : Id} {s : Summary} {record : ItemRecord} {records : List ItemRecord}
  {past : List Exchange} {rest : Program Request Request.Answer (Except Error Summary)}

/-- The item is made of the record. -/
def MadeOf (c : Count) (location : Id) (r : ItemRecord) (i : Item) : Prop :=
  ∃ id time, i = itemOfRecord c location r id time

/-- The exchanges by which a record is stored, the latest first. -/
def storing (i : Item) (answer : Except Error (Item × UpsertOutcome)) : List Exchange :=
  [⟨.store (.counts (.upsertItem i)), answer⟩, ⟨.freshId, i.id⟩, ⟨.now, i.createdAt⟩]

/-- A record is stored before the others: either it is not asked for yet, or there is an answer with
which the others are stored. -/
theorem reaches_storeAll_cons
    (h : (storeAll c location s (record :: records)).run.Reaches past rest) :
    (upserts past = [] ∧ ∀ result, rest ≠ .done result) ∨ ∃ i answer later,
      MadeOf c location record i ∧ past = later ++ storing i answer ∧
      (storeAll c location (s.add record.code answer) records).run.Reaches later rest := by
  rcases h.of_ask with ⟨rfl, rfl⟩ | ⟨time, _, rfl, htold⟩
  · exact .inl ⟨rfl, by rintro _ ⟨⟩⟩
  rcases htold.of_ask with ⟨rfl, rfl⟩ | ⟨id, _, rfl, hdrawn⟩
  · exact .inl ⟨rfl, by rintro _ ⟨⟩⟩
  rcases hdrawn.of_ask with ⟨rfl, rfl⟩ | ⟨answer, later, rfl, hstored⟩
  · exact .inl ⟨rfl, by rintro _ ⟨⟩⟩
  exact .inr ⟨_, answer, later, ⟨id, time, rfl⟩, by simp [storing, itemOfRecord], hstored⟩

/-- Records are stored in their order, and each answer is added to the summary. -/
theorem reaches_storeAll (h : (storeAll c location s records).run.Reaches past rest) :
    ∃ stored others, records = stored ++ others ∧
      List.Forall₂ (fun r u => MadeOf c location r u.1) stored (upserts past) ∧
      ∀ result, rest = .done result → others = [] ∧ result = .ok (s.addAll (upserts past)) := by
  simp only [← foldl_add]
  induction records generalizing s past with
  | nil =>
    obtain ⟨rfl, rfl⟩ := h.of_done
    refine ⟨[], [], rfl, .nil, ?_⟩
    rintro _ ⟨⟩
    exact ⟨rfl, rfl⟩
  | cons record records ih =>
    rcases reaches_storeAll_cons h with ⟨hnone, hnot⟩ | ⟨i, answer, later, hi, rfl, hlater⟩
    · refine ⟨[], record :: records, rfl, ?_, fun result heq => absurd heq (hnot result)⟩
      rw [hnone]
      exact .nil
    · obtain ⟨stored, others, rfl, hstored, hend⟩ := ih hlater
      have hupserts : upserts (later ++ storing i answer) = (i, answer) :: upserts later := by
        simp [storing, upsert?]
      obtain ⟨id, time, rfl⟩ := hi
      rw [hupserts]
      exact ⟨record :: stored, others, rfl, .cons ⟨id, time, rfl⟩ hstored, hend⟩

theorem codes_of_madeOf {us : List (Item × Except Error (Item × UpsertOutcome))}
    (h : List.Forall₂ (fun r u => MadeOf c location r u.1) records us) :
    us.map (·.1.code) = records.map (·.code) := by
  induction h with
  | nil => rfl
  | cons hmade _ ih =>
    obtain ⟨id, time, hmade⟩ := hmade
    rw [List.map_cons, List.map_cons, ih, hmade]
    rfl

/-- Records are merged before the first one is stored. -/
theorem reaches_storeRecords (h : (storeRecords c location s records).run.Reaches past rest) :
    (past = [] ∧ ∃ o, rest = .stop o) ∨ ∃ merged, ItemRecord.dedupe records = .ok merged ∧
      (storeAll c location { s with items := merged.length } merged).run.Reaches past rest := by
  unfold storeRecords at h
  cases hmerged : ItemRecord.dedupe records with
  | error o =>
    rw [hmerged] at h
    obtain ⟨rfl, rfl⟩ := h.of_stop
    exact .inl ⟨rfl, o, rfl⟩
  | ok merged =>
    rw [hmerged] at h
    exact .inr ⟨merged, rfl, h⟩

/-- The request changes no store, or it is for an item to be stored. -/
def StoresItems (_ : List Exchange) (q : Request) : Prop :=
  q.Reads ∨ ∃ i, q = .store (.counts (.upsertItem i))

theorem storeAll_follows : Action.Follows StoresItems (storeAll c location s records) := by
  induction records generalizing s with
  | nil => exact Action.pure_follows
  | cons record records ih =>
    refine .bind (fun _ => Action.keeps_now.mpr ⟨.inl trivial, fun _ => trivial⟩) fun time => ?_
    refine .bind (fun _ => Action.keeps_freshId.mpr ⟨.inl trivial, fun _ => trivial⟩) fun id => ?_
    refine .bind (.attempt fun _ => Action.keeps_counts.mpr ⟨.inr ⟨_, rfl⟩, fun _ => trivial⟩) ?_
    exact fun _ => ih

end Storing

section Loads

variable {sources : Sources} {tenant count location : Id} {r : LoadRequest} {c : Count}
  {f : Fetched} {past : List Exchange}
  {rest : Program Request Request.Answer (Except Error Summary)}

/-- The exchange by which the count of a load or an import is looked up. -/
def lookup (tenant count : Id) (c : Count) : Exchange :=
  ⟨.store (.counts (.get tenant count)), .ok (some c)⟩

/-- A count that accepts items is looked up first. -/
theorem ends_editableCount : Ends (Counting.editableCount tenant count) past (.ok c) ↔
    past = [lookup tenant count c] ∧ c.status.acceptsItems = true := by
  have hcheck : Except.ok () = c.checkEditable ↔ c.status.acceptsItems = true := by
    unfold Count.checkEditable
    split <;> simp_all
  unfold Counting.editableCount Counting.getCount
  simp only [Action.ends_ok_bind, Action.ends_pure, Action.ends_check]
  constructor
  · rintro ⟨_, _, _, rfl, ⟨found, _, _, rfl, hfound, hrequired⟩, _, _, _, rfl, ⟨rfl, hopen⟩, rfl,
      heq⟩
    obtain rfl := Action.ends_counts.mp hfound
    obtain ⟨rfl, rfl⟩ := Action.ends_require.mp hrequired
    cases heq
    exact ⟨rfl, hcheck.mp hopen⟩
  · rintro ⟨rfl, hopen⟩
    exact ⟨c, _, [], rfl, ⟨some c, _, [], rfl, Action.ends_counts.mpr rfl,
      Action.ends_require.mpr ⟨rfl, rfl⟩⟩, (), [], [], rfl, ⟨rfl, hcheck.mpr hopen⟩, rfl, rfl⟩

theorem reaches_after_lookup {α : Type} {next : Count → Action α}
    {rest : Program Request Request.Answer (Except Error α)} (hopen : c.status.acceptsItems = true)
    (h : (Counting.editableCount tenant count >>= next).run.Reaches
      (past ++ [lookup tenant count c]) rest) : (next c).run.Reaches past rest :=
  (Program.Reaches.bind_left (ends_editableCount.mpr ⟨rfl, hopen⟩)).rest h

/-- A load goes on from its count, and stores what it fetches. -/
theorem loadItems_eq_bind : loadItems sources tenant count r =
    Counting.editableCount tenant count >>= fun c =>
      fetch sources tenant r >>= fun f => f.store c (r.place c) := by
  rw [loadItems_eq, prepare, Action.bind_assoc]
  refine congrArg (_ >>= ·) (funext fun c => ?_)
  rw [Action.bind_assoc]
  rfl

/-- What was fetched is stored as far as the load has come. -/
theorem Fetched.reaches_store (h : (f.store c location).run.Reaches past rest) :
    (∀ e ∈ past, StoresItems [] e.request) ∧
    (∀ u ∈ upserts past, ∃ batch ∈ f.batch, ∃ merged, ItemRecord.dedupe batch.records = .ok merged ∧
      ∃ record ∈ merged, MadeOf c location record u.1) ∧
    ∀ result, rest = .done result → ∃ s, result = .ok s ∧ s.source = f.source ∧
      s.attempts = f.attempts := by
  unfold Fetched.store at h
  split at h
  · next batch hbatch =>
    rcases reaches_storeRecords h with ⟨rfl, o, rfl⟩ | ⟨merged, hmerged, hstored⟩
    · exact ⟨List.forall_mem_nil _, List.forall_mem_nil _, by rintro _ ⟨⟩⟩
    obtain ⟨stored, others, rfl, hmade, hend⟩ := reaches_storeAll hstored
    refine ⟨fun e he => ?_, fun u hu => ?_, fun result heq => ?_⟩
    · obtain ⟨later, earlier, rfl⟩ := List.append_of_mem he
      exact (Program.Reaches.keeps hstored (storeAll_follows [])).2 later e earlier rfl
    · obtain ⟨record, hrecord, hmade⟩ := exists_mem_of_forall₂ hmade hu
      exact ⟨batch, hbatch, _, hmerged, record, List.mem_append_left _ hrecord, hmade⟩
    · obtain ⟨-, rfl⟩ := hend result heq
      exact ⟨_, rfl, rfl, rfl⟩
  · obtain ⟨rfl, rfl⟩ := h.of_done
    refine ⟨List.forall_mem_nil _, List.forall_mem_nil _, ?_⟩
    rintro _ ⟨⟩
    exact ⟨_, rfl, rfl, rfl⟩

/-- How a load has gone that stores what it could read: all of its history but the lookup is in
three parts, of what was asked in vain, of what was asked of the source that is used, and of what
was asked to store the items. -/
structure FellBack (sources : Sources) (tenant : Id) (limit : Nat) (c : Count) (location : Id)
    (past vain used storing : List Exchange)
    (rest : Program Request Request.Answer (Except Error Summary)) (f : Fetched) : Prop where
  parts : past = storing ++ used ++ vain
  tries : Tries (sourcesInOrder sources tenant limit) vain used f
  /-- The sources are tried in their order. -/
  order : f.attempts.map (·.source) <+: [.configuredMappings, .legacyTable, .manualEntry]
  /-- Only the last attempt succeeded. -/
  attempts : ∃ failed last, f.attempts = failed ++ [last] ∧ (∀ a ∈ failed, a.success = false) ∧
    last.success = true ∧ last.source = f.source
  reading : ∀ e ∈ used ++ vain, e.request.Reads
  /-- All that is written is items, each of them made of the merged records of the batch. -/
  writes : ∀ e ∈ storing, StoresItems [] e.request
  items : ∀ u ∈ upserts storing, ∃ batch ∈ f.batch, ∃ merged,
    ItemRecord.dedupe batch.records = .ok merged ∧ ∃ record ∈ merged, MadeOf c location record u.1
  /-- The batch is made of the rows that the used source was answered. -/
  rows : ∀ batch ∈ f.batch, ∃ portions, batch.Accounts portions ∧
    rowsAnswered used = portions.flatMap (·.rows)
  /-- Whatever the active mappings were asked, all of it was in vain if one query failed. -/
  failed : ∀ tried result, Ends (loadConfigured sources tenant limit) tried result →
    tried <:+ past → (∃ fault, .error fault ∈ queryAnswers tried) →
      tried <:+ vain ∧ f.source ≠ .configuredMappings
  /-- The load comes to no error, and it reports the source and the attempts. -/
  summary : ∀ result, rest = .done result → ∃ s, result = .ok s ∧ s.source = f.source ∧
    s.attempts = f.attempts

theorem not_failed_of_ends_loadConfigured {limit : Nat} {batch : Batch}
    (h : Ends (loadConfigured sources tenant limit) past (.ok (some batch))) {fault : ErpFault} :
    .error fault ∉ queryAnswers past := by
  obtain ⟨reading, hread⟩ := ends_loadConfigured h
  rw [hread.queries]
  simp

/-- A load for which no mapping is named, of a count that accepts items, is refused for its row
limit before anything is tried, or it is still reading, or it uses the first source that can be
read, and that one alone. -/
theorem load_uses_first_source (hmapping : r.mapping = none) (hopen : c.status.acceptsItems = true)
    (hpast : (loadItems sources tenant count r).run.Reaches (past ++ [lookup tenant count c])
      rest) :
    (∃ e, rowLimit sources r.limit = .error e ∧ past = [] ∧ rest = .done (.error e)) ∨
    ∃ limit, rowLimit sources r.limit = .ok limit ∧
      (((∀ e ∈ past, e.request.Reads) ∧ ∀ result, rest ≠ .done result) ∨
        ∃ vain used storing f,
          FellBack sources tenant limit c (r.place c) past vain used storing rest f) := by
  rw [loadItems_eq_bind] at hpast
  have hrest := reaches_after_lookup hopen hpast
  cases hlimit : rowLimit sources r.limit with
  | error e =>
    unfold fetch at hrest
    rw [hlimit] at hrest
    exact .inl ⟨e, rfl, hrest.of_done⟩
  | ok limit =>
    refine .inr ⟨limit, rfl, ?_⟩
    rcases Action.reaches_bind hrest with
      ⟨_, hreading, hnot, herror⟩ | ⟨f, reading, storing, rfl, hf, hstore⟩
    · refine .inl ⟨(fetch_reads.of_reaches hreading).2, fun result heq => ?_⟩
      cases result with
      | ok s => exact hnot s heq
      | error e =>
        cases herror e heq
        exact not_ends_fetch_error hmapping hlimit hreading
    · obtain ⟨limit', vain, used, hlimit', rfl, hfetches⟩ := ends_fetch hf
      cases hlimit.symm.trans hlimit'
      obtain ⟨hwrites, hitems, hsummary⟩ := Fetched.reaches_store hstore
      cases hfetches with
      | named hnamed => cases hmapping.symm.trans hnamed
      | tried _ htries =>
        refine .inr ⟨vain, used, storing, f, (List.append_assoc _ _ _).symm, htries, ?_, ?_, ?_,
          hwrites, hitems, ?_, ?_, hsummary⟩
        · exact htries.sources_prefix
        · exact htries.attempts_eq
        · exact (fetch_reads.of_reaches hf).2
        · intro batch hbatch
          obtain ⟨portions, haccounts, hrows⟩ := (Fetches.tried hmapping htries).accounts
          rw [Option.mem_def.mp hbatch] at haccounts
          exact ⟨portions, haccounts, hrows⟩
        · rintro tried result hends hsuffix ⟨fault, hfault⟩
          rcases htries.first (List.suffix_append storing _) hends hsuffix with
            ⟨batch, rfl, rfl⟩ | ⟨hvain, hsource⟩
          · exact absurd hfault (not_failed_of_ends_loadConfigured hends)
          · refine ⟨hvain, fun heq => ?_⟩
            rw [heq] at hsource
            exact absurd hsource (by simp)

end Loads

section Replay

open Concurrent (World Task Surroundings played newCount goIn goOn roundSupply calm)

/-- One connection, over which a table can be read without mapping as well. -/
def legacySources : Sources :=
  ⟨[(.ofNat 9, .postgres)],
    { connection := some ⟨.ofNat 9, "postgres://erp", .postgres⟩, legacyTable := some "old_items" }⟩

/-- An active mapping of a data set is created. -/
def newActiveMapping (dataset : Dataset) : Task :=
  .createMapping (.ofNat 1)
    { connection := .ofNat 9, dataset, name := "M", mainTable := "stock", joins := [],
      fields := [⟨"code", "item_code", .string, none⟩], filters := [], rawQuery := none,
      isActive := true }
    (.ofNat 3)

/-- A count is created, and a mapping of each data set that is loaded. -/
def allMapped : World := played legacySources
  (.begin newCount :: goIn 1 0 :: (datasets.zipIdx 1).flatMap fun (dataset, n) =>
    .begin (newActiveMapping dataset) :: goOn (3 * n) n 3)

/-- Items are loaded from the first source that can be read. -/
def unnamedLoad : Action Summary :=
  loadItems legacySources (.ofNat 1) (.ofNat 1000) ⟨none, none, none⟩

/-- The history of an action that is performed to its end. -/
theorem ends_perform {α : Type} {around : Surroundings} {x : Action α} {a : α} {s : Store}
    {drawn : List Id} (hfresh : around.FreshFor x.run s drawn 0)
    (ha : (around.perform x s).1.toOption.bind Except.toOption = some a) :
    ∃ past drawn', Ends x past (.ok a) ∧ Passes s drawn past (around.perform x s).2 drawn' := by
  obtain ⟨σ, hruns, hstore⟩ := Surroundings.exists_runs_perform hfresh
  generalize (around.perform x s).1 = result at hruns ha
  match result with
  | .error _ => cases ha
  | .ok (.error _) => cases ha
  | .ok (.ok _) =>
    cases ha
    obtain ⟨past, -, hends, hpasses⟩ := hruns.exists_history
    exact ⟨past, _, hends, hstore ▸ hpasses⟩

/-- The rows of the queries that are sent at these requests; other queries fail. -/
def answering (rows : List (Nat × List Row)) : Surroundings where
  draw k := ⟨(roundSupply (30 + k)).id, fun item => item, (roundSupply (30 + k)).time⟩
  erp k _
    | .query _ => ((rows.find? (·.1 = k)).map (·.2)).elim (.error .notOpen) .ok
    | call => calm call

/-- Items and stock were read when the query for costs fails. -/
def costFails : Surroundings :=
  answering [(4, [[("code", .str "A"), ("name", .str "Item A")]]),
    (7, [[("code", .str "A"), ("qty", .str "3")]]), (14, [[("code", .str "L"), ("qty", .str "2")]])]

theorem load_uses_first_source_costFails : ∃ c past vain used storing s f σ,
    unnamedLoad.Runs ⟨allMapped.store, allMapped.drawn, []⟩ (.success s) σ ∧
      σ.past = past ++ [lookup (.ofNat 1) (.ofNat 1000) c] ∧
      FellBack legacySources (.ofNat 1) 5000 c c.warehouse past vain used storing
        (.done (.ok s)) f ∧
      s.source = .legacyTable ∧ σ.store.items.map (·.code) = ["L"] := by
  have hfresh : costFails.FreshFor unnamedLoad.run allMapped.store allMapped.drawn 0 := by
    decide +kernel
  have hsource : ((costFails.perform unnamedLoad allMapped.store).1.toOption.bind
      Except.toOption).map (·.source) = some .legacyTable := by
    decide +kernel
  have hcodes : (costFails.perform unnamedLoad allMapped.store).2.items.map (·.code) = ["L"] := by
    decide +kernel
  obtain ⟨σ, hruns, hstore⟩ := Surroundings.exists_runs_perform hfresh
  rw [← hstore] at hcodes
  generalize (costFails.perform unnamedLoad allMapped.store).1 = result at hruns hsource
  match result with
  | .error _ => cases hsource
  | .ok (.error _) => cases hsource
  | .ok (.ok s) =>
    obtain ⟨_, hpast, hends, -⟩ := hruns.exists_history
    have hparts := hends
    unfold unnamedLoad at hparts
    rw [loadItems_eq_bind] at hparts
    obtain ⟨c, _, past, rfl, hlookup, -⟩ := Action.ends_ok_bind.mp hparts
    obtain ⟨rfl, hopen⟩ := ends_editableCount.mp hlookup
    rcases load_uses_first_source rfl hopen hends with ⟨e, -, -, heq⟩ | ⟨limit, hlimit, h⟩
    · cases heq
    · cases hlimit
      rcases h with ⟨-, hnot⟩ | ⟨vain, used, storing, f, h⟩
      · exact absurd rfl (hnot _)
      · exact ⟨c, past, vain, used, storing, s, f, σ, hruns, by rw [hpast, List.append_nil], h,
          Option.some.inj hsource, hcodes⟩

end Replay

end Loading
end Recount
