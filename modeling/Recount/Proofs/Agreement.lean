import Recount.Proofs.Database.Serving

/-!
# A database makes a transition as a store does

A transition that a store makes is made by a client of a database that has the same entries, too: what
its statements write is what the store puts, and where the store refuses the change of the count, the
client does so with the same error, and has written nothing.
-/

/-! ## A server with the entries of a store

Whatever entries a store has, some server answers as a database with these entries does. -/

namespace Recount.Database

open Columns

variable {α ρ : Type} {s : Store} {m : Meaning} {time : Time} {row rest : Row} {p : String × Json} {name : String}

/-- The cells that a statement gives. -/
def Meaning.given (m : Meaning) : Row := m.sets.map (Prod.map id Parameter.toCell)

/-- The rows that a statement selects among the entries of a store, or has written. -/
def rowsFor (s : Store) (m : Meaning) : List Row :=
  match m.verb, m.keys with
  | .select, [("id", .id count), ("tenant_id", .id tenant)] =>
    (s.count? tenant count).toList.map countColumns.row
  | .select, [("count_id", .id count), ("version", .int version)] =>
    (s.itemsOf count (some version)).map itemColumns.row
  | .update, [("id", .id item), ("count_id", .id count)] =>
    (s.item? count item).toList.map fun i => m.given ++ itemColumns.row i
  | .insert, _ | .upsert, _ => [m.given]
  | _, _ => []

/-- Answers with the entries of a store, at a time. -/
def answering (s : Store) (time : Time) : Server := fun _ call =>
  match call with
  | .start | .commit => .ok ()
  | .send statement => .ok ⟨statement.meaning?.elim [] (rowsFor s), 0⟩
  | .freshId => .nil
  | .now => time

section Rows

/-- A cell is found under its name. -/
theorem cell_of_mem (hrow : (row.map Prod.fst).Nodup) (hp : p ∈ row) : cell row p.1 = p.2 := by
  induction row with
  | nil => exact absurd hp List.not_mem_nil
  | cons q row ih =>
    rw [List.map_cons, List.nodup_cons] at hrow
    rcases List.mem_cons.mp hp with rfl | hp
    · simp [cell, Json.member?]
    · have hne : q.1 ≠ p.1 := fun heq => hrow.1 (heq ▸ List.mem_map_of_mem hp)
      rw [← ih hrow.2 hp]
      simp [cell, Json.member?, hne]

/-- A cell whose name occurs before other cells is found there. -/
theorem cell_append_of_mem (hname : name ∈ row.map Prod.fst) :
    cell (row ++ rest) name = cell row name := by
  obtain ⟨q, hq, rfl⟩ := List.mem_map.mp hname
  obtain ⟨found, hfound⟩ := Option.isSome_iff_exists.mp
    (List.find?_isSome.mpr ⟨q, hq, beq_self_eq_true q.1⟩ : (row.find? (·.1 == q.1)).isSome)
  rw [cell, cell, Json.member?, Json.member?, List.find?_append, hfound]
  rfl

/-- A cell whose name does not occur before is found after it. -/
theorem cell_append_of_not_mem (hname : name ∉ row.map Prod.fst) :
    cell (row ++ rest) name = cell rest name := by
  have hnone : row.find? (fun q => q.1 == name) = none := by
    rw [List.find?_eq_none]
    intro q hq heq
    exact hname (beq_iff_eq.mp heq ▸ List.mem_map_of_mem hq)
  rw [cell, cell, Json.member?, Json.member?, List.find?_append, hnone]
  rfl

theorem fst_row {columns : Columns ρ α} {valid : ρ → Prop} {kept : ρ → α} {r : ρ}
    (h : columns.Keep valid kept) : (columns.row r).map Prod.fst = columns.names :=
  List.map_fst_zip (by rw [List.length_map, h.length r])

/-- The row that a record fills holds the record. -/
theorem holds_row {columns : Columns ρ α} {valid : ρ → Prop} {kept : ρ → α} {r : ρ}
    (h : columns.Keep valid kept) (hnames : columns.names.Nodup) : columns.Holds (columns.row r) r :=
  fun _ hp => cell_of_mem (fst_row h ▸ hnames) hp

theorem fst_given : m.given.map Prod.fst = m.sets.map Prod.fst := by
  rw [Meaning.given, List.map_map]
  rfl

theorem cell_given (hm : m.IsProper) {set : String × Parameter} (hset : set ∈ m.sets) :
    cell m.given set.1 = set.2.toCell :=
  cell_of_mem (p := (set.1, set.2.toCell)) (fst_given ▸ hm) (List.mem_map_of_mem hset)

end Rows

/-- The rows for a statement answer it. -/
theorem rowsFor_answered (hids : (s.items.map Item.id).Nodup) (hs : s.InBounds) (hm : m.IsProper) :
    Answered s m ⟨rowsFor s m, 0⟩ where
  count tenant id hmeaning := by
    subst hmeaning
    change List.Forall₂ _ ((s.count? tenant id).toList.map countColumns.row) _
    rw [List.forall₂_map_left_iff]
    exact List.forall₂_same.mpr fun c _ => holds_row keep_count areNames_countColumns.nodup
  items count version hmeaning := by
    subst hmeaning
    refine ⟨s.itemsOf count (some version), .refl _, ?_⟩
    change List.Forall₂ _ ((s.itemsOf count (some version)).map itemColumns.row) _
    rw [List.forall₂_map_left_iff]
    exact List.forall₂_same.mpr fun i _ => holds_row keep_item areNames_itemColumns.nodup
  inserted hverb := by
    refine ⟨m.given, ?_, fun set hset => cell_given hm hset⟩
    simp [rowsFor, hverb]
  updated i hi hverb _ hkeys := by
    have hfound : s.item? i.count i.id = some i := by
      rw [Store.item?, (find?_id_eq_some_iff hids).mpr ⟨hi, rfl⟩]
      simp
    refine ⟨m.given ++ itemColumns.row i, i.updatedAt, ?_, (hs.items i hi).updatedAt,
      fun set hset => ?_, fun p hp hnot => ?_⟩
    · simp [rowsFor, hverb, hkeys, hfound]
    · rw [cell_append_of_mem (fst_given ▸ List.mem_map_of_mem hset), cell_given hm hset]
    · rw [cell_append_of_not_mem (fst_given ▸ hnot)]
      exact holds_row keep_item areNames_itemColumns.nodup p hp
  upserted hverb _ := by
    refine ⟨m.given, default, [], ?_, ⟨by decide, fun _ ht => (nomatch ht), Time.inBounds_default,
      Time.inBounds_default⟩, fun set hset _ => cell_given hm hset,
      fun _ _ hnot => absurd hnot List.not_mem_nil⟩
    simp [rowsFor, hverb]

/-- There is a server with the entries of a store. -/
theorem answering_serves (hids : (s.items.map Item.id).Nodup) (hs : s.InBounds) :
    Serves s time (answering s time) where
  start _ := rfl
  commit _ := rfl
  now _ := rfl
  send past statement m hmeaning hm := by
    refine ⟨_, rfl, ?_⟩
    rw [hmeaning]
    exact rowsFor_answered hids hs hm

end Recount.Database

/-! ## Transitions -/

namespace Recount.Database

open Store (written)

variable {s : Store} {supply : Supply} {server : Server} {time : Time} {tenant count : Id}
  {t : Transition} {c : Count} {items : List Item} {reports : List Report}

/-- A statement writes nothing. -/
def Reads (statement : Statement) : Prop :=
  ∃ m, statement.meaning? = some m ∧ m.verb = .select

/-- The items that a client settles, with their reports, are those of the store, but for their order,
for what a view leaves out and for the identifiers of the reports. -/
structure SettledAlike (s : Store) (now time : Time) (items : List Item) (reports : List Report)
    (items' : List Item) (reports' : List Report) : Prop where
  stored : ∀ j ∈ items', j.InBounds ∧ ∃ i ∈ s.items, j.id = i.id ∧ j.count = i.count
  reports_inBounds : ∀ r ∈ reports', r.InBounds
  items_perm : ∀ view, Coarse view → view now = view time →
    (items'.map (Item.seen view)).Perm (items.map (Item.seen view))
  reports_perm : ∀ view, Coarse view → view now = view time →
    (reports'.map (Report.statement view)).Perm (reports.map (Report.statement view))

/-- A client settles the items that are there as the store does. -/
theorem Serves.settled_succeeds (h : Serves s time server) (hs : s.InBounds) (htime : time.InBounds)
    (hsettled : s.settled c t supply = .ok (items, reports)) :
    Succeeds server (settled (c.seen storedTime) t time) fun result statements =>
      SettledAlike s (supply.time 0) time items reports result.1 result.2 ∧
        ∀ statement ∈ statements, Reads statement := by
  unfold Store.settled at hsettled
  unfold settled
  split at hsettled
  · next hsettles =>
    rw [if_pos hsettles]
    refine Succeeds.bind (h.lockItems_succeeds hs.items) ?_
    rintro entries _ ⟨⟨kept, hperm, hentries⟩, statement, rfl, hmeaning⟩
    obtain ⟨items', reports', hsettled', hshown⟩ : ∃ items' reports',
        Item.settleAll t.change.actor time entries = .ok (items', reports') ∧ _ := by
      refine settleAll_kept (hperm.trans (.of_eq ?_)) hentries hsettled
      rw [List.map_map]
      exact (List.zipIdx_map_fst 0 _).symm
    have hstored : ∀ entry ∈ entries, ∃ i ∈ s.items, entry.1 = i.seen storedTime := by
      intro entry hentry
      obtain ⟨i, hi, heq⟩ := List.mem_map.mp (hentries ▸ List.mem_map_of_mem hentry)
      exact ⟨i, (Store.mem_itemsOf.mp (hperm.subset hi)).1, heq.symm⟩
    have hbounds := Item.settleAll_inBounds (fun entry hentry => by
      obtain ⟨i, hi, heq⟩ := hstored entry hentry
      rw [heq]
      exact inBounds_keptItem (hs.items i hi)) htime hsettled'
    dsimp only
    rw [hsettled']
    refine arithmetic_succeeds ⟨⟨fun j hj => ⟨hbounds.1 j hj, ?_⟩, hbounds.2, fun view hview hnow =>
      (hshown view hview hnow).1, fun view hview hnow => (hshown view hview hnow).2⟩, ?_⟩
    · obtain ⟨entry, hentry, hsettle⟩ := Item.settleAll_mem_items hsettled' hj
      obtain ⟨hid, hkey, -⟩ := Item.settle_eq_ok hsettle
      obtain ⟨i, hi, heq⟩ := hstored entry hentry
      refine ⟨i, hi, ?_, ?_⟩
      · rw [hid, heq]
        rfl
      · have hcount : j.count = entry.1.count := congrArg Item.Key.count hkey
        rw [hcount, heq]
        rfl
    · intro q hq
      rw [List.append_nil, List.mem_singleton] at hq
      exact hq ▸ ⟨_, hmeaning, rfl⟩
  · next hsettles =>
    rw [if_neg hsettles]
    cases hsettled
    exact pure_succeeds ⟨⟨fun _ hj => absurd hj List.not_mem_nil, fun _ hr => absurd hr List.not_mem_nil,
      fun _ _ _ => .refl _, fun _ _ _ => .refl _⟩, fun _ hq => absurd hq List.not_mem_nil⟩

/-- Statements mean the writes of a transition, one for each row. -/
structure Writes (changed : Count) (items newItems : List Item) (reports : List Report)
    (stage : Statement) (updates insertions upserts : List Statement) : Prop where
  stage : stage.meaning? = some (stageOf changed)
  updates : updates.map Statement.meaning? = items.map fun i => some (countedOf i)
  insertions : insertions.map Statement.meaning? = newItems.map fun i => some (insertionOf i)
  upserts : upserts.map Statement.meaning? = reports.map fun r => some (upsertOf r)

/-- A client that settles as the store does changes the count that it has locked, and writes all that
belongs to the transition. -/
theorem Serves.change_succeeds (h : Serves s time server) (hs : s.InBounds) (ht : t.InBounds)
    (htime : time.InBounds) (hc : s.count? tenant count = some c) (hcheck : t.change.check c = .ok ())
    (hsettled : s.settled c t supply = .ok (items, reports)) :
    Succeeds server (Database.change tenant count t) fun changed statements =>
      changed = t.change.apply (c.seen storedTime) time ∧
        ∃ items' reports' reads stage updates insertions upserts,
          SettledAlike s (supply.time 0) time items reports items' reports' ∧
          statements = reads ++ stage :: (updates ++ insertions ++ upserts) ∧
          (∀ q ∈ reads, Reads q) ∧
          Writes changed items' t.newItems (t.reports ++ reports') stage updates insertions upserts := by
  refine h.transaction_ends ?_
  refine Succeeds.bind (h.lockCount_succeeds hc (hs.counts c (Store.count?_eq_some hc).1)) ?_
  rintro _ _ ⟨rfl, lock, rfl, hlock⟩
  have hcheck' : Succeeds server (Action.check (t.change.check (c.seen storedTime)))
      fun _ statements => statements = [] := by
    rw [check_seen, hcheck]
    exact check_succeeds rfl
  refine Succeeds.bind hcheck' ?_
  rintro _ _ rfl
  refine Succeeds.bind h.now_succeeds ?_
  rintro _ _ ⟨rfl, rfl⟩
  refine Succeeds.bind (h.settled_succeeds hs htime hsettled) ?_
  rintro ⟨items', reports'⟩ reads ⟨halike, hreads⟩
  refine Succeeds.bind h.updateStage_succeeds ?_
  rintro _ _ ⟨stage, rfl, hstage⟩
  have hupdates : ∀ j ∈ items', Succeeds server (do let _ ← updateCounted j) fun _ statements =>
      ∃ q, statements = [q] ∧ q.meaning? = some (countedOf j) := by
    intro j hj
    obtain ⟨hbounds, i, hi, hid, hcount⟩ := halike.stored j hj
    exact (h.updateCounted_succeeds hi (hs.items i hi) hbounds hid hcount).discard
  refine Succeeds.bind (forM_succeeds hupdates) ?_
  rintro _ updates hupdates
  refine Succeeds.bind (forM_succeeds fun i hi => (h.insertRow_succeeds (ht.newItems i hi)).discard) ?_
  rintro _ insertions hinsertions
  refine Succeeds.bind (forM_succeeds fun r hr => h.upsertReport_succeeds ?_) ?_
  · exact (List.mem_append.mp hr).elim (ht.reports r) (halike.reports_inBounds r)
  rintro _ upserts hupserts
  refine pure_succeeds ⟨rfl, items', reports', lock :: reads, stage, updates, insertions, upserts,
    halike, ?_, ?_, hstage, hupdates, hinsertions, hupserts⟩
  · simp only [List.nil_append, List.append_nil, List.cons_append, List.append_assoc]
  · rintro q (_ | ⟨_, hq⟩)
    · exact ⟨_, hlock, rfl⟩
    · exact hreads q hq

/-- But for what a view leaves out, the order of rows, the times of change of new items and the
identifiers of reports, statements mean the writes of a transition, one for each row. -/
structure WritesSeen (view : Time → Time) (changed : Count) (items newItems : List Item)
    (reports : List Report) (stage : Statement) (updates insertions upserts : List Statement) :
    Prop where
  stage : stage.meaning?.map (Meaning.seen view) = some ((stageOf changed).seen view)
  updates : (updates.map fun q => q.meaning?.map (Meaning.seen view)).Perm
    (items.map fun i => some ((countedOf i).seen view))
  insertions : insertions.map (fun q => q.meaning?.map (Meaning.without "updated_at")) =
    newItems.map fun i => some ((insertionOf i).without "updated_at")
  upserts : (upserts.map fun q => q.meaning?.map fun m => (m.seen view).without "id").Perm
    (reports.map fun r => some (((upsertOf r).seen view).without "id"))

/-- Writes that are shown alike mean the same but for what is not shown. -/
theorem Writes.seen {view : Time → Time} {changed changed' : Count} {items' newItems : List Item}
    {reports' : List Report} {stage : Statement} {updates insertions upserts : List Statement}
    {now : Time} (h : Writes changed' items' newItems reports' stage updates insertions upserts)
    (hcount : changed'.seen view = changed.seen view)
    (hitems : (items'.map (Item.seen view)).Perm (items.map (Item.seen view)))
    (hreports : (reports'.map (Report.statement view)).Perm (reports.map (Report.statement view))) :
    WritesSeen view changed items (written newItems now) reports stage updates insertions upserts where
  stage := by rw [h.stage, Option.map_some, ← stageOf_seen, hcount, stageOf_seen]
  updates := by
    have hmeaning : ∀ l : List Item,
        (l.map fun i => some (countedOf i)).map (Option.map (Meaning.seen view)) =
          (l.map (Item.seen view)).map fun i => some (countedOf i) := by
      intro l
      rw [List.map_map, List.map_map]
      exact List.map_congr_left fun i _ => congrArg some countedOf_seen.symm
    have hperm := hitems.map fun i => some (countedOf i)
    rw [← hmeaning, ← hmeaning, ← h.updates, List.map_map, List.map_map] at hperm
    exact hperm
  insertions := by
    have hmap := congrArg (List.map (Option.map (Meaning.without "updated_at"))) h.insertions
    rw [List.map_map, List.map_map] at hmap
    rw [written, List.map_map]
    exact hmap.trans (List.map_congr_left fun i _ => congrArg some insertionOf_changed.symm)
  upserts := by
    have hmeaning : ∀ l : List Report,
        (l.map fun r => some (upsertOf r)).map (Option.map fun m => (m.seen view).without "id") =
          (l.map (Report.statement view)).map fun r => some ((upsertOf r).without "id") := by
      intro l
      rw [List.map_map, List.map_map]
      exact List.map_congr_left fun r _ => congrArg some upsertOf_statement.symm
    have hperm := hreports.map fun r => some ((upsertOf r).without "id")
    rw [← hmeaning, ← hmeaning, ← h.upserts, List.map_map, List.map_map] at hperm
    exact hperm

/-- The columns of a count, and of the items that are settled, are as they were but for those that a
transition writes. -/
structure LeavesOthers (before after : Count) (stored settled : List Item) : Prop where
  count : (countFields after).filter (·.1 ∉ stageColumns) =
    (countFields before).filter (·.1 ∉ stageColumns)
  items : ∀ j ∈ settled, ∃ i ∈ stored,
    (itemFields j).filter (·.1 ∉ countedColumns) = (itemFields i).filter (·.1 ∉ countedColumns)

/-- A transition of a store leaves the other columns as they were. -/
theorem leavesOthers_of_settled (hsettled : s.settled c t supply = .ok (items, reports)) :
    LeavesOthers c (t.change.apply c (supply.time 0)) (s.itemsOf c.id (some c.currentVersion)) items where
  count := fields_apply
  items j hj := by
    unfold Store.settled at hsettled
    split at hsettled
    · obtain ⟨entry, hentry, hsettle⟩ := Item.settleAll_mem_items hsettled hj
      obtain ⟨p, hp, rfl⟩ := List.mem_map.mp hentry
      exact ⟨p.1, List.fst_mem_of_mem_zipIdx hp, fields_settle hsettle⟩
    · cases hsettled
      exact absurd hj List.not_mem_nil

/-- A change of stage that is refused ends the call with its error, before anything is written. -/
theorem Serves.change_refused {e : Error} (h : Serves s time server) (hs : s.InBounds)
    (hc : s.count? tenant count = some c) (hcheck : t.change.check c = .error e) :
    Ends server (Database.change tenant count t) fun result statements =>
      result = .error e ∧ ∀ q ∈ statements, Reads q := by
  refine h.transaction_ends ?_
  refine Succeeds.bind (h.lockCount_succeeds hc (hs.counts c (Store.count?_eq_some hc).1)) ?_
  rintro _ _ ⟨rfl, lock, rfl, hlock⟩
  rw [check_seen, hcheck]
  refine Ends.bind (check_ends ⟨rfl, fun q hq => ?_⟩)
  rw [List.append_nil, List.mem_singleton] at hq
  exact hq ▸ ⟨_, hlock, rfl⟩

/-- A store and a database with the same entries make the same transition. Where the store makes it, the
client of the database succeeds with the same count, and the statements that it sends after it has read
write, row by row, the stage of the count, what was counted of the items that are settled, the new items
and the reports, which are just the entries that the store puts; their other columns stay as they were.
Where the change of the count is refused, both refuse it with the same error, and the client sends
nothing that writes.

Points in time are compared in every view that does not look below what a database keeps, and in which
the clocks of the two show the same. A zero is the same quantity in whatever scale. -/
theorem change_agrees (hs : s.InBounds) (ht : t.InBounds) (htime : time.InBounds)
    (h : Serves s time server) :
    (∀ c' s', s.change tenant count t supply = .ok (c', s') →
      ∃ c items reports, s.count? tenant count = some c ∧
        s.settled c t supply = .ok (items, reports) ∧
        s' = ((s.putCount c').putItems (written (items ++ t.newItems) (supply.time 0))).putReports
          (t.reports ++ reports) ∧
        LeavesOthers c c' (s.itemsOf c.id (some c.currentVersion)) items ∧
        ∃ past changed reads stage updates insertions upserts,
          (Database.change tenant count t).run.against server [] = (past, .ok (.ok changed)) ∧
          sent past = reads ++ stage :: (updates ++ insertions ++ upserts) ∧ (∀ q ∈ reads, Reads q) ∧
          ∀ view, Coarse view → view (supply.time 0) = view time →
            changed.seen view = c'.seen view ∧
            WritesSeen view c' items (written t.newItems (supply.time 0)) (t.reports ++ reports)
              stage updates insertions upserts) ∧
    ∀ c e, s.count? tenant count = some c → t.change.check c = .error e →
      s.change tenant count t supply = .error (.refused e) ∧
      ∃ past, (Database.change tenant count t).run.against server [] = (past, .ok (.error e)) ∧
        ∀ q ∈ sent past, Reads q := by
  constructor
  · intro c' s' hchange
    obtain ⟨c, items, reports, hchecks, hsettled, rfl, rfl⟩ := Store.change_eq_ok_iff.mp hchange
    obtain ⟨hc, hcheck, -, -⟩ := Store.checkTransition_eq_ok hchecks
    obtain ⟨past, _, statements, hrun, hsent, changed, rfl, rfl, items', reports', reads, stage, updates,
      insertions, upserts, halike, rfl, hreads, hwrites⟩ :=
      h.change_succeeds hs ht htime hc hcheck hsettled []
    refine ⟨c, items, reports, hc, hsettled, rfl, leavesOthers_of_settled hsettled, past, _, reads, stage,
      updates, insertions, upserts, hrun, hsent, hreads, fun view hview hnow => ?_⟩
    have hcount : (t.change.apply (c.seen storedTime) time).seen view =
        (t.change.apply c (supply.time 0)).seen view := by
      rw [apply_seen, apply_seen, hview.count, hnow]
    refine ⟨hcount, hwrites.seen hcount (halike.items_perm view hview hnow) ?_⟩
    rw [List.map_append, List.map_append]
    exact (halike.reports_perm view hview hnow).append_left _
  · intro c e hc hcheck
    constructor
    · have hchecks : s.checkTransition tenant count t = .error e := by
        unfold Store.checkTransition Store.findCount
        rw [hc]
        change (t.change.check c >>= _) = _
        rw [hcheck]
        rfl
      unfold Store.change
      rw [hchecks]
      rfl
    · obtain ⟨past, _, statements, hrun, hsent, rfl, hreads⟩ := h.change_refused hs hc hcheck []
      refine ⟨past, hrun, fun q hq => hreads q ?_⟩
      rw [hsent] at hq
      exact hq

/-- A count with an item that was not counted and one that was. -/
def stock : Store where
  counts := [{ (default : Count) with
    id := .ofNat 1, tenant := .ofNat 2, status := .active, currentVersion := 1, totalVersions := 1 }]
  items := [{ (default : Item) with
      id := .ofNat 3, count := .ofNat 1, code := "A", systemQty := .hundred, version := 1 },
    { (default : Item) with
      id := .ofNat 4, count := .ofNat 1, code := "B", countedQty := some .zero, version := 1 }]

/-- Completes the count, with an item of the next version and a report. -/
def completion (expected : List Status) : Transition where
  change := {
    expected, expectedVersion := 1, target := .completed, actor := .ofNat 5
    milestone := some .completed }
  newItems := [{ (default : Item) with id := .ofNat 6, count := .ofNat 1, code := "A", version := 2 }]
  reports := [{ (default : Report) with id := .ofNat 7, count := .ofNat 1, item := .ofNat 6 }]
  settles := true

/-- Identifiers from ten on, and a clock that stands still. -/
def stillSupply : Supply := ⟨fun n => .ofNat (n + 10), fun _ => default⟩

theorem change_agrees_completion :
    (∃ past changed reads stage updates insertions upserts,
      (Database.change (.ofNat 2) (.ofNat 1) (completion [.active])).run.against
          (answering stock default) [] = (past, .ok (.ok changed)) ∧
        changed.status = .completed ∧ sent past = reads ++ stage :: (updates ++ insertions ++ upserts) ∧
        updates.length = 2 ∧ insertions.length = 1 ∧ upserts.length = 2) ∧
      ∃ past, (Database.change (.ofNat 2) (.ofNat 1) (completion [.submitted])).run.against
          (answering stock default) [] = (past, .ok (.error (.wrongState "SUBMITTED" "ACTIVE"))) ∧
        ∀ q ∈ sent past, Reads q := by
  have htime : (default : Time).InBounds := Time.inBounds_default
  have hitem : ∀ i : Item, IsInt32 i.version → i.countedAt = none → i.createdAt = default →
      i.updatedAt = default → i.InBounds := fun i hversion hcounted hcreated hupdated =>
    ⟨hversion, fun t ht => (by rw [hcounted] at ht; cases ht), hcreated ▸ htime, hupdated ▸ htime⟩
  have hs : stock.InBounds := by
    refine ⟨fun c hc => ?_, fun i hi => ?_⟩
    · obtain rfl := List.mem_singleton.mp hc
      refine ⟨by decide, by decide, by decide, htime, fun m hm t ht => ?_, htime⟩
      fin_cases hm <;> cases ht
    · fin_cases hi
      · exact hitem _ (by decide) rfl rfl rfl
      · exact hitem _ (by decide) rfl rfl rfl
  have ht : ∀ expected, (completion expected).InBounds := fun expected =>
    ⟨fun i hi => List.mem_singleton.mp hi ▸ hitem _ (by decide) rfl rfl rfl, fun r hr =>
      List.mem_singleton.mp hr ▸ ⟨by decide, fun _ ht => (nomatch ht), htime, htime⟩⟩
  have hserver : Serves stock default (answering stock default) := answering_serves (by decide) hs
  constructor
  · obtain ⟨⟨c', s'⟩, hchange⟩ : ∃ made,
        stock.change (.ofNat 2) (.ofNat 1) (completion [.active]) stillSupply = .ok made :=
      isOk_iff.mp (by decide +kernel)
    have hstatus : c'.status = .completed := by
      obtain ⟨_, _, _, _, _, rfl, _⟩ := Store.change_eq_ok_iff.mp hchange
      rfl
    obtain ⟨c, items, reports, hc, hsettled, -, -, past, changed, reads, stage, updates, insertions, upserts,
      hrun, hsent, -, hshown⟩ := (change_agrees hs (ht _) htime hserver).1 c' s' hchange
    obtain ⟨hcount, hwrites⟩ := hshown (fun _ => default) (fun _ => rfl) rfl
    have hlengths : (stock.count? (.ofNat 2) (.ofNat 1)).map (fun c =>
        (stock.settled c (completion [.active]) stillSupply).toOption.map fun result =>
          (result.1.length, result.2.length)) = some (some (2, 1)) := by decide +kernel
    rw [hc, Option.map_some, hsettled] at hlengths
    obtain ⟨hitems, hreports⟩ := Prod.mk.inj (Option.some.inj (Option.some.inj hlengths))
    refine ⟨past, changed, reads, stage, updates, insertions, upserts, hrun, ?_, hsent, ?_, ?_, ?_⟩
    · exact (congrArg Count.status hcount).trans hstatus
    · have hlength := hwrites.updates.length_eq
      rw [List.length_map, List.length_map] at hlength
      exact hlength.trans hitems
    · have hlength := congrArg List.length hwrites.insertions
      rw [List.length_map, List.length_map] at hlength
      exact hlength
    · have hlength := hwrites.upserts.length_eq
      rw [List.length_map, List.length_map, List.length_append, hreports] at hlength
      exact hlength
  · exact ((@change_agrees stock stillSupply _ _ _ _ _ hs (ht _) htime hserver).2 _ _ rfl rfl).2

end Recount.Database
