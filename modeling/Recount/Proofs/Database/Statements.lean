import Recount.Proofs.Database.Columns
import Recount.Proofs.Database.Reading

/-!
# What the statements of a transition say

Each statement that a transition sends says what is to be selected or written by the names of the
columns, with the parameters that a record fills these columns with.
-/

namespace Recount.Database

/-- What selects the count of a tenant. -/
def countOf (tenant count : Id) : Meaning :=
  ⟨.select, "inventory_counts", [], [("id", .id count), ("tenant_id", .id tenant)]⟩

/-- What selects the items of a version. -/
def itemsOf (count : Id) (version : Int) : Meaning :=
  ⟨.select, "count_items", [], [("count_id", .id count), ("version", .int version)]⟩

/-- The columns of a count with the values of its fields. -/
def countFields (c : Count) : List (String × Parameter) :=
  [("id", .id c.id), ("tenant_id", .id c.tenant), ("warehouse_id", .id c.warehouse),
    ("sequence_number", .int c.sequence), ("name", optional .text c.name),
    ("notes", optional .text c.notes), ("status", .text c.status.name),
    ("current_version", .int c.currentVersion), ("total_versions", .int c.totalVersions),
    ("created_by", .id c.createdBy), ("created_at", .time c.createdAt),
    ("started_by", optional .id c.started.actor), ("started_at", optional .time c.started.time),
    ("completed_by", optional .id c.completed.actor), ("completed_at", optional .time c.completed.time),
    ("approved_by", optional .id c.approved.actor), ("approved_at", optional .time c.approved.time),
    ("closed_by", optional .id c.closed.actor), ("closed_at", optional .time c.closed.time),
    ("cancelled_by", optional .id c.cancelled.actor),
    ("cancelled_at", optional .time c.cancelled.time), ("updated_at", .time c.updatedAt)]

/-- The columns of an item with the values of its fields. -/
def itemFields (i : Item) : List (String × Parameter) :=
  [("id", .id i.id), ("count_id", .id i.count), ("location_id", .id i.location),
    ("item_code", .text i.code), ("item_name", .text i.name), ("uom", optional .text i.uom),
    ("pack_qty", optional .quantity i.packQty), ("system_qty", .quantity i.systemQty),
    ("counted_qty", optional .quantity i.countedQty),
    ("previous_counted_qty", optional .quantity i.previousQty), ("version", .int i.version),
    ("status", .text (ItemStatus.naming.name i.status)), ("has_variance", .bool i.hasVariance),
    ("difference", optional .quantity i.difference),
    ("variance_percent", optional .quantity i.variancePercent), ("cost", optional .quantity i.cost),
    ("price", optional .quantity i.price), ("barcodes", optional .text i.barcodes),
    ("category", optional .text i.category), ("brand", optional .text i.brand),
    ("counted_by", optional .id i.countedBy), ("counted_at", optional .time i.countedAt),
    ("created_at", .time i.createdAt), ("updated_at", .time i.updatedAt)]

/-- The columns of a report with the values of its fields. -/
def reportFields (r : Report) : List (String × Parameter) :=
  [("id", .id r.id), ("count_id", .id r.count), ("count_item_id", .id r.item),
    ("version", .int r.version), ("item_code", .text r.code), ("system_qty", .quantity r.systemQty),
    ("counted_qty", .quantity r.countedQty), ("difference", .quantity r.difference),
    ("variance_percent", .quantity r.variancePercent),
    ("status", .text (ReportStatus.naming.name r.status)), ("resolution", optional .text r.resolution),
    ("resolved_by", optional .id r.resolvedBy), ("resolved_at", optional .time r.resolvedAt),
    ("created_at", .time r.createdAt), ("updated_at", .time r.updatedAt)]

/-- What changes the stage of a count. -/
def stageOf (c : Count) : Meaning :=
  ⟨.update, "inventory_counts", (countFields c).filter (·.1 ∈ stageColumns), [("id", .id c.id)]⟩

/-- What enters a quantity of an item. -/
def countedOf (i : Item) : Meaning :=
  ⟨.update, "count_items", (itemFields i).filter (·.1 ∈ countedColumns),
    [("id", .id i.id), ("count_id", .id i.count)]⟩

/-- What inserts an item. -/
def insertionOf (i : Item) : Meaning := ⟨.insert, "count_items", itemFields i, []⟩

/-- What inserts a report, or puts it in the place of the one that is there. -/
def upsertOf (r : Report) : Meaning := ⟨.upsert, "variance_reports", reportFields r, []⟩

section Fields

variable {c : Count} {i : Item} {r : Report}

/-- The columns of counts are filled with the fields of the same names. -/
theorem named_count : countColumns.named c = countFields c := by
  delta countColumns markColumns
  simp only [Columns.named, names_map, names_seq, names_column, parameters_map, parameters_seq,
    parameters_column, List.cons_append, List.nil_append, List.zip_cons_cons, List.zip_nil_left]
  rfl

theorem named_item : itemColumns.named i = itemFields i := by
  delta itemColumns
  simp only [Columns.named, names_map, names_seq, names_column, parameters_map, parameters_seq,
    parameters_column, List.cons_append, List.nil_append, List.zip_cons_cons, List.zip_nil_left]
  rfl

theorem named_report : reportColumns.named r = reportFields r := by
  delta reportColumns
  simp only [Columns.named, names_map, names_seq, names_column, parameters_map, parameters_seq,
    parameters_column, List.cons_append, List.nil_append, List.zip_cons_cons, List.zip_nil_left]
  rfl

theorem sets_stageOf :
    (stageOf c).sets = (countColumns.named c).filter (·.1 ∈ stageColumns) := by
  rw [stageOf, named_count]

theorem sets_countedOf :
    (countedOf i).sets = (itemColumns.named i).filter (·.1 ∈ countedColumns) := by
  rw [countedOf, named_item]

theorem sets_insertionOf : (insertionOf i).sets = itemColumns.named i := by
  rw [insertionOf, named_item]

theorem sets_upsertOf : (upsertOf r).sets = reportColumns.named r := by
  rw [upsertOf, named_report]

/-- A change of stage changes no other column. -/
theorem fields_apply {change : StatusChange} {now : Time} :
    (countFields (change.apply c now)).filter (·.1 ∉ stageColumns) =
      (countFields c).filter (·.1 ∉ stageColumns) := by
  unfold StatusChange.apply
  cases change.milestone with
  | none => simp [countFields, stageColumns]
  | some milestone => cases milestone <;> simp [countFields, stageColumns, Count.mark]

/-- To settle an item changes no column but those of what was counted. -/
theorem fields_settle {j : Item} {actor : Id} {now : Time} (h : i.settle actor now = .ok j) :
    (itemFields j).filter (·.1 ∉ countedColumns) = (itemFields i).filter (·.1 ∉ countedColumns) := by
  have hcounted : ∀ {k l : Item} {counted : Decimal}, k.withCounted counted = .ok l →
      (itemFields l.judged).filter (·.1 ∉ countedColumns) =
        (itemFields k).filter (·.1 ∉ countedColumns) := by
    intro k l counted hl
    obtain ⟨_, _, _, _, rfl⟩ := Item.withCounted_eq_ok hl
    simp [itemFields, countedColumns, Item.judged]
  cases hquantity : i.countedQty with
  | none =>
    rw [Item.settle_of_uncounted hquantity] at h
    obtain ⟨k, hk, h⟩ := bind_eq_ok_iff.mp h
    cases h
    refine (hcounted hk).trans ?_
    simp [itemFields, countedColumns, Item.unseen]
  | some counted =>
    rw [Item.settle_of_counted hquantity] at h
    obtain ⟨k, hk, h⟩ := bind_eq_ok_iff.mp h
    cases h
    exact hcounted hk

end Fields

section Texts

theorem areNames_stageColumns : AreNames stageColumns := by decide

theorem areNames_countedColumns : AreNames countedColumns := by decide

theorem areNames_countColumns : AreNames countColumns.names := by decide

theorem areNames_itemColumns : AreNames itemColumns.names := by decide

theorem areNames_reportColumns : AreNames reportColumns.names := by decide

variable {c : Count} {i : Item} {r : Report}

/-- The columns of a record are named in their order. -/
theorem fst_named {ρ α : Type} {columns : Columns ρ α} {valid : ρ → Prop} {kept : ρ → α} {record : ρ}
    (h : columns.Keep valid kept) : (columns.named record).map Prod.fst = columns.names :=
  List.map_fst_zip (Nat.le_of_eq (h.length record))

theorem proper_countOf {tenant count : Id} : (countOf tenant count).IsProper := List.nodup_nil

theorem proper_itemsOf {count : Id} {version : Int} : (itemsOf count version).IsProper := List.nodup_nil

theorem proper_stageOf : (stageOf c).IsProper := by
  rw [Meaning.IsProper, sets_stageOf]
  exact nodup_map_filter _ (fst_named keep_count ▸ areNames_countColumns.nodup)

theorem proper_countedOf : (countedOf i).IsProper := by
  rw [Meaning.IsProper, sets_countedOf]
  exact nodup_map_filter _ (fst_named keep_item ▸ areNames_itemColumns.nodup)

theorem proper_insertionOf : (insertionOf i).IsProper := by
  rw [Meaning.IsProper, sets_insertionOf, fst_named keep_item]
  exact areNames_itemColumns.nodup

theorem proper_upsertOf : (upsertOf r).IsProper := by
  rw [Meaning.IsProper, sets_upsertOf, fst_named keep_report]
  exact areNames_reportColumns.nodup

/-- A count is locked by its identifiers. -/
theorem meaning?_lockCount {tenant count : Id} :
    (Statement.mk (selection countColumns "inventory_counts" (ofTenant ++ " FOR UPDATE"))
      [.id count, .id tenant]).meaning? = some (countOf tenant count) := by
  have hkeys : equations (wordsOf (ofTenant ++ " FOR UPDATE")) = [("id", 1), ("tenant_id", 2)] := by
    decide
  rw [Statement.meaning?, outlineOf_selection areNames_countColumns (by decide) (by decide), hkeys]
  rfl

/-- The items of a version are locked. -/
theorem meaning?_lockItems {count : Id} {version : Int} :
    (Statement.mk (selection itemColumns "count_items" "count_id = $1 AND version = $2 FOR UPDATE")
      [.id count, .int version]).meaning? = some (itemsOf count version) := by
  have hkeys : equations (wordsOf "count_id = $1 AND version = $2 FOR UPDATE") =
      [("count_id", 1), ("version", 2)] := by decide
  rw [Statement.meaning?, outlineOf_selection areNames_itemColumns (by decide) (by decide), hkeys]
  rfl

/-- The stage of a count is written. -/
theorem exists_updateStage (c : Count) : ∃ text parameters,
    updateStage c = (do let _ ← Client.orClash .busyWarehouse (Client.send text parameters)) ∧
      (Statement.mk text parameters).meaning? = some (stageOf c) := by
  refine ⟨_, _, rfl, ?_⟩
  have hlead : "UPDATE inventory_counts SET " =
      "UPDATE" ++ " " ++ "inventory_counts" ++ " " ++ "SET" ++ " " := by decide
  have hcondition : " WHERE id = $15" = " " ++ "WHERE" ++ " " ++ "id = $15" := by decide
  have hkeys : equations (wordsOf "id = $15") = [("id", 15)] := by decide
  have hwords : wordsOf ("UPDATE inventory_counts SET " ++ assignments stageColumns ++
      " WHERE id = $15") = "UPDATE" :: "inventory_counts" :: "SET" ::
        (wordsOf (assignments stageColumns) ++ [] ++ "WHERE" :: wordsOf "id = $15") := by
    simp only [-String.reduceAppend, hlead, hcondition, ← String.append_assoc, wordsOf_blank,
      (by decide : IsWord "UPDATE").wordsOf_eq, (by decide : IsWord "inventory_counts").wordsOf_eq,
      (by decide : IsWord "SET").wordsOf_eq, (by decide : IsWord "WHERE").wordsOf_eq]
    simp only [List.append_assoc, List.cons_append, List.nil_append]
  rw [Statement.meaning?, hwords, outlineOf_assignments areNames_stageColumns (by simp) rfl, hkeys,
    Option.map_some, stageOf, countFields]
  refine congrArg some (congrArg₂ (Meaning.mk _ _) ?_ rfl)
  simp [stageColumns]
  rfl

/-- What was counted of an item is written. -/
theorem exists_updateCounted (i : Item) : ∃ text parameters,
    updateCounted i = Client.first? itemColumns text parameters >>= Action.require (.item i.id) ∧
      (Statement.mk text parameters).meaning? = some (countedOf i) := by
  refine ⟨_, _, rfl, ?_⟩
  have hlead : "UPDATE count_items SET " = "UPDATE" ++ " " ++ "count_items" ++ " " ++ "SET" ++ " " := by
    decide
  have hcondition : ", updated_at = NOW() WHERE id = $9 AND count_id = $10" =
      ", " ++ "updated_at = NOW()" ++ " " ++ "WHERE" ++ " " ++ "id = $9 AND count_id = $10" := by
    decide
  have hwords : wordsOf ("UPDATE count_items SET " ++ assignments countedColumns ++
      ", updated_at = NOW() WHERE id = $9 AND count_id = $10" ++ returning itemColumns) =
      "UPDATE" :: "count_items" :: "SET" ::
        (wordsOf (assignments countedColumns) ++ wordsOf "updated_at = NOW()" ++
          "WHERE" :: (wordsOf "id = $9 AND count_id = $10" ++ "RETURNING" :: itemColumns.names)) := by
    rw [append_returning, wordsOf_blank, wordsOf_returned areNames_itemColumns]
    simp only [-String.reduceAppend, hlead, hcondition, ← String.append_assoc, wordsOf_blank,
      wordsOf_comma, (by decide : IsWord "UPDATE").wordsOf_eq,
      (by decide : IsWord "count_items").wordsOf_eq, (by decide : IsWord "SET").wordsOf_eq,
      (by decide : IsWord "WHERE").wordsOf_eq]
    simp only [List.append_assoc, List.cons_append, List.nil_append]
  have hkeys : equations (wordsOf "id = $9 AND count_id = $10" ++ "RETURNING" :: itemColumns.names) =
      [("id", 9), ("count_id", 10)] := by
    have hsplit : wordsOf "id = $9 AND count_id = $10" =
        ["id", "=", "$9", "AND", "count_id", "=", "$10"] := by decide
    have hnine : index? "$9" = some 9 ∧ index? "$10" = some 10 := by decide
    have hnone : equations ("RETURNING" :: itemColumns.names) = [] :=
      equations_of_not_mem fun hmem => (List.mem_cons.mp hmem).elim (by decide)
        areNames_itemColumns.noEquals
    rw [hsplit]
    change (index? "$9").toList.map ("id", ·) ++
      ((index? "$10").toList.map ("count_id", ·) ++ equations ("RETURNING" :: itemColumns.names)) = _
    rw [hnine.1, hnine.2, hnone]
    rfl
  rw [Statement.meaning?, hwords, outlineOf_assignments areNames_countedColumns (by decide)
    (by decide), hkeys, Option.map_some, countedOf, itemFields]
  refine congrArg some (congrArg₂ (Meaning.mk _ _) ?_ rfl)
  simp [countedColumns]
  rfl

/-- A row is inserted with what an item fills its columns with. -/
theorem exists_insertRow (i : Item) : ∃ text parameters,
    insertRow i = Client.orClash (.existingItemAtLocation i.code i.version)
        (Client.firstRow text parameters) >>= (fun row => Action.check (itemColumns.read row)) ∧
      (Statement.mk text parameters).meaning? = some (insertionOf i) := by
  refine ⟨_, _, rfl, ?_⟩
  have hconflict : "CONFLICT" ∉ "RETURNING" :: itemColumns.names := by decide
  rw [Statement.meaning?, append_returning, outlineOf_insertion areNames_itemColumns (by decide),
    wordsOf_returned areNames_itemColumns, if_neg hconflict, Option.map_some, insertionOf]
  exact congrArg some (congrArg₂ (Meaning.mk _ _) ((fill_inOrder (keep_item.length i)).trans named_item) rfl)

/-- A row is inserted with what a report fills its columns with, or takes the place of another. -/
theorem exists_upsertReport (r : Report) : ∃ text parameters,
    upsertReport r = (do let _ ← Client.first reportColumns text parameters) ∧
      (Statement.mk text parameters).meaning? = some (upsertOf r) := by
  refine ⟨_, _, rfl, ?_⟩
  have hsome : ∀ rest : String, "CONFLICT" ∈ wordsOf
      ("ON CONFLICT (count_item_id, version) DO UPDATE SET" ++ (" " ++ rest)) := by
    intro rest
    rw [← String.append_assoc, wordsOf_blank]
    exact List.mem_append_left _ (by decide)
  have hlead : " ON CONFLICT (count_item_id, version) DO UPDATE SET " =
      " " ++ ("ON CONFLICT (count_item_id, version) DO UPDATE SET" ++ " ") := by decide
  rw [Statement.meaning?, hlead]
  simp only [-String.reduceAppend, String.append_assoc]
  rw [← String.append_assoc, outlineOf_insertion areNames_reportColumns (by decide), if_pos (hsome _),
    Option.map_some, upsertOf]
  exact congrArg some (congrArg₂ (Meaning.mk _ _) ((fill_inOrder (keep_report.length r)).trans named_report) rfl)

end Texts

section Shown

variable {view : Time → Time} {ρ α : Type} {c : Count} {i : Item} {r : Report}

/-- What a statement means, with its parameters as they are shown. -/
def Meaning.seen (view : Time → Time) (m : Meaning) : Meaning :=
  { m with
    sets := m.sets.map (Prod.map id (Parameter.seen view))
    keys := m.keys.map (Prod.map id (Parameter.seen view)) }

/-- What a statement means but for what it sets one of the columns to. -/
def Meaning.without (name : String) (m : Meaning) : Meaning :=
  { m with sets := m.sets.filter (·.1 ≠ name) }

theorem named_seen {columns : Columns ρ α} {a b : ρ}
    (h : columns.parameters b = (columns.parameters a).map (Parameter.seen view)) :
    columns.named b = (columns.named a).map (Prod.map id (Parameter.seen view)) := by
  rw [Columns.named, h, List.zip_map_right]
  rfl

/-- The same columns are picked, however they are shown. -/
theorem filter_seen {names : List String} {sets : List (String × Parameter)} :
    (sets.map (Prod.map id (Parameter.seen view))).filter (·.1 ∈ names) =
      (sets.filter (·.1 ∈ names)).map (Prod.map id (Parameter.seen view)) := by
  rw [List.filter_map]
  rfl

theorem stageOf_seen : stageOf (c.seen view) = (stageOf c).seen view := by
  rw [stageOf, stageOf, ← named_count, ← named_count, named_seen parameters_count_seen, filter_seen]
  simp only [Meaning.seen]
  rfl

theorem countedOf_seen : countedOf (i.seen view) = (countedOf i).seen view := by
  rw [countedOf, countedOf, ← named_item, ← named_item, named_seen parameters_item_seen, filter_seen]
  simp only [Meaning.seen]
  rfl

theorem upsertOf_seen : upsertOf (r.seen view) = (upsertOf r).seen view := by
  rw [upsertOf, upsertOf, ← named_report, ← named_report, named_seen parameters_report_seen]
  rfl

/-- But for its time of change, an item is inserted as it was before it. -/
theorem insertionOf_changed {time : Time} :
    (insertionOf { i with updatedAt := time }).without "updated_at" =
      (insertionOf i).without "updated_at" := by
  rw [insertionOf, insertionOf]
  simp [Meaning.without, itemFields]

/-- But for the identifier, a report says what it states. -/
theorem upsertOf_statement :
    (upsertOf (r.statement view)).without "id" = ((upsertOf r).seen view).without "id" := by
  rw [← upsertOf_seen, upsertOf, upsertOf]
  simp [Meaning.without, reportFields, Report.statement]

end Shown

end Recount.Database
