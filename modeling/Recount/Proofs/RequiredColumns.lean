import Recount.Proofs.File.Table
import Recount.Proofs.Load.Applying

/-!
# Columns that a file must have

A file is refused if no header supplies the code or the name of an item. Field mappings are known to
that check by their targets and bare sources only, while the rows are read by whole sources too, and
a mapping also reads what an earlier one has written. So a file can be refused whose rows name
items.
-/

/-! ## Where values come from

A value that a row has after its field mappings stands in a column, or a mapping wrote it. That
mapping read a column in its turn, or what one before it had written. The columns of a row are
headers of its table, whatever kind of file the table was read from. -/

namespace Recount

namespace Transform

variable {columns : List String} {fields mapped : List FieldMapping} {m : FieldMapping} {row : Row}
  {values : KeyedValues} {key text : String} {value : Json} {f : ItemField}

/-- Some column, or the target of some field mapping, has a key. -/
def HasKey (columns : List String) (mapped : List FieldMapping) (key : String) : Prop :=
  (∃ column ∈ columns, columnKey column = key) ∨ ∃ m ∈ mapped, columnKey m.target = key

/-- A field mapping writes under a key what it finds under its source, bare or whole. -/
def Writes (columns : List String) (fields : List FieldMapping) (key : String) : Prop :=
  ∃ before m after, fields = before ++ m :: after ∧ columnKey m.target = key ∧
    ∃ name ∈ [bareColumn m.source, m.source], HasKey columns before (columnKey name)

theorem Writes.append (h : Writes columns fields key) (later : List FieldMapping) :
    Writes columns (fields ++ later) key := by
  obtain ⟨before, m, after, rfl, hm⟩ := h
  exact ⟨before, m, after ++ later, by rw [List.append_assoc, List.cons_append], hm⟩

theorem Writes.hasKey (h : Writes columns fields key) : HasKey columns fields key := by
  obtain ⟨before, m, after, rfl, hkey, -⟩ := h
  exact .inr ⟨m, List.mem_append_right _ List.mem_cons_self, hkey⟩

/-- A value of a row after its field mappings stands in a column or was written by a mapping. -/
theorem column_or_writes (h : fields.foldlM applyMapping (.ofRow row) = .ok values)
    (hget : values.get? key = some value) :
    (∃ column ∈ row.map Prod.fst, columnKey column = key) ∨
      Writes (row.map Prod.fst) fields key := by
  induction fields using List.reverseRecOn generalizing values key value with
  | nil =>
    cases h
    exact .inl (KeyedValues.exists_column_of_get? hget)
  | append_singleton fields m ih =>
    obtain ⟨before, hbefore, hafter⟩ := foldlM_concat_eq_ok_iff.mp h
    have hhas : ∀ {key value}, before.get? key = some value →
        HasKey (row.map Prod.fst) fields key := fun hget =>
      (ih hbefore hget).elim .inl Writes.hasKey
    have hkept : ∀ {value}, before.get? key = some value →
        (∃ column ∈ row.map Prod.fst, columnKey column = key) ∨
          Writes (row.map Prod.fst) (fields ++ [m]) key := fun hget =>
      (ih hbefore hget).imp_right (·.append [m])
    rcases get?_of_applyMapping hafter hget with ⟨value', hvalue'⟩ | ⟨hkey, name, hname, raw, hraw⟩
    · exact hkept hvalue'
    · rcases List.mem_cons.mp hname with rfl | hname
      · exact hkept (hkey ▸ hraw)
      · exact .inr ⟨fields, m, [], rfl, hkey, name, hname, hhas hraw⟩

/-- A field of a row stands in a column that holds it or was written by a mapping onto it. -/
theorem column_or_writes_field (h : fields.foldlM applyMapping (.ofRow row) = .ok values)
    (htext : text? values f = some text) :
    (∃ column ∈ row.map Prod.fst, ItemField.ofColumn? column = some f) ∨
      ∃ before m after, fields = before ++ m :: after ∧ ItemField.ofColumn? m.target = some f ∧
        ∃ name ∈ [bareColumn m.source, m.source],
          HasKey (row.map Prod.fst) before (columnKey name) := by
  simp only [ItemField.ofColumn?_eq_some_iff]
  obtain ⟨key, hspelling, hvalue⟩ := List.exists_of_findSome?_eq_some htext
  obtain ⟨value, hget, -⟩ := Option.bind_eq_some_iff.mp hvalue
  rcases column_or_writes h hget with ⟨column, hcolumn, rfl⟩ | ⟨before, m, after, heq, rfl, hread⟩
  · exact .inl ⟨column, hcolumn, hspelling⟩
  · exact .inr ⟨before, m, after, heq, hspelling, hread⟩

/-- The code and the name of a record are fields of its row. -/
theorem exists_text?_of_ofRow {record : ItemRecord} (h : ofRow fields row = .ok (some record))
    (hname : record.name.isSome = true) :
    ∃ values, fields.foldlM applyMapping (.ofRow row) = .ok values ∧
      ∀ f ∈ File.requiredFields, ∃ text, text? values f = some text := by
  obtain ⟨values, hvalues, h⟩ := bind_eq_ok_iff.mp h
  refine ⟨values, hvalues, ?_⟩
  split at h
  · cases h
  · next code hcode =>
    simp only [bind_eq_ok_iff] at h
    obtain ⟨_, -, _, -, _, -, _, -, h⟩ := h
    cases h
    simp only [File.requiredFields, List.forall_mem_cons, List.not_mem_nil, false_imp_iff,
      implies_true, and_true]
    exact ⟨⟨code, hcode⟩, Option.isSome_iff_exists.mp hname⟩

end Transform

namespace File

variable {content : Content} {filename : String} {table : Table} {headers cells names : List String}
  {fields : List FieldMapping} {row : Row} {column : String} {f : ItemField}

/-- What an object is made of has the names of its members. -/
theorem fst_mem_of_mem_insertMember {members : List (String × Json)} {entry : String × Json}
    {key : String} {value : Json} (h : entry ∈ Json.insertMember key value members) :
    entry.1 = key ∨ entry ∈ members := by
  induction members with
  | nil => exact .inl (congrArg Prod.fst (List.mem_singleton.mp h))
  | cons member members ih =>
    unfold Json.insertMember at h
    split at h
    · exact (List.mem_cons.mp h).imp_left (congrArg Prod.fst)
    · split at h
      · exact (List.mem_cons.mp h).imp (congrArg Prod.fst) (List.mem_cons_of_mem member)
      · rcases List.mem_cons.mp h with rfl | h
        · exact .inr List.mem_cons_self
        · exact (ih h).imp_right (List.mem_cons_of_mem member)

/-- The columns of a row of cells are headers. -/
theorem mem_headers_of_rowOf (h : column ∈ (rowOf headers cells).map Prod.fst) :
    column ∈ headers := by
  have hinto : ∀ (members start : List (String × Json)), (∀ entry ∈ members, entry.1 ∈ headers) →
      (∀ entry ∈ start, entry.1 ∈ headers) →
      ∀ entry ∈ members.foldl (fun sorted named => Json.insertMember named.1 named.2 sorted) start,
        entry.1 ∈ headers := by
    intro members
    induction members with
    | nil => exact fun start _ hstart => hstart
    | cons member members ih =>
      intro start hmembers hstart
      obtain ⟨hmember, hmembers⟩ := List.forall_mem_cons.mp hmembers
      refine ih _ hmembers fun entry hentry => ?_
      rcases fst_mem_of_mem_insertMember hentry with heq | hentry
      · exact heq ▸ hmember
      · exact hstart entry hentry
  obtain ⟨entry, hentry, rfl⟩ := List.mem_map.mp h
  refine hinto _ [] (fun member hmember => ?_) (fun _ hnone => absurd hnone List.not_mem_nil)
    entry hentry
  obtain ⟨named, hnamed, rfl⟩ := List.mem_map.mp hmember
  exact (List.of_mem_zip (List.mem_of_mem_filter hnamed)).1

theorem subset_addNames : names ⊆ addNames names row := by
  unfold addNames
  induction row generalizing names with
  | nil => exact List.Subset.refl _
  | cons entry row ih =>
    refine List.Subset.trans ?_ ih
    change names ⊆ if names.contains entry.1 then names else names ++ [entry.1]
    split
    · exact List.Subset.refl _
    · exact List.subset_append_left _ _

theorem columns_subset_addNames : row.map Prod.fst ⊆ addNames names row := by
  induction row generalizing names with
  | nil => exact List.nil_subset _
  | cons entry row ih =>
    have hnamed : entry.1 ∈ if names.contains entry.1 then names else names ++ [entry.1] := by
      split
      · next hknown => exact List.contains_iff_mem.mp hknown
      · exact List.mem_append_right _ List.mem_cons_self
    have hrest : (if names.contains entry.1 then names else names ++ [entry.1]) ⊆
        addNames _ row := subset_addNames
    exact List.cons_subset.mpr ⟨hrest hnamed, ih⟩

/-- The columns of an object are headers of its table. -/
theorem columns_subset_of_ofItems {items : List (Nat × Json)} {number : Nat}
    (hrow : (number, row) ∈ (ofItems items).rows) : row.map Prod.fst ⊆ (ofItems items).headers := by
  obtain ⟨⟨number', item⟩, hitem, hobject⟩ := List.mem_filterMap.mp hrow
  have hobject : item = .obj row := by
    cases item <;> simp_all
  subst hobject
  have hmono : ∀ (f : List String → Nat × Json → List String),
      (∀ names item, names ⊆ f names item) →
      ∀ (items : List (Nat × Json)) (names : List String), names ⊆ items.foldl f names := by
    intro f hf items
    induction items with
    | nil => exact fun names => List.Subset.refl _
    | cons item items ih => exact fun names => List.Subset.trans (hf names item) (ih _)
  obtain ⟨before, after, rfl⟩ := List.append_of_mem hitem
  unfold ofItems
  rw [List.foldl_append, List.foldl_cons]
  refine List.Subset.trans columns_subset_addNames (hmono _ (fun names item => ?_) after _)
  split
  · exact subset_addNames
  · exact List.Subset.refl _

theorem columns_subset_of_rowsOf {records : List (List String)} {number : Nat}
    (hrow : (number, row) ∈ rowsOf headers records) : row.map Prod.fst ⊆ headers := by
  obtain ⟨⟨number', cells⟩, -, hkept⟩ := List.mem_filterMap.mp hrow
  cases hempty : cells.all String.isEmpty with
  | true => simp [hempty] at hkept
  | false =>
    obtain ⟨-, rfl⟩ : number' = number ∧ rowOf headers cells = row := by simpa [hempty] using hkept
    exact fun column hcolumn => mem_headers_of_rowOf hcolumn

/-- The columns of a row are headers of its table, whatever kind of file it was read from. -/
theorem columns_subset_headers {number : Nat} (hread : read content filename = .ok table)
    (hrow : (number, row) ∈ table.rows) : row.map Prod.fst ⊆ table.headers := by
  have htable := ofKind_of_read hread
  cases hkind : table.kind with
  | csv =>
    rw [hkind] at htable
    change ofCsv content.bytes = _ at htable
    unfold ofCsv at htable
    split at htable
    · cases htable
    · cases htable
      exact columns_subset_of_rowsOf hrow
  | excel =>
    rw [hkind] at htable
    change ofWorkbook content.workbook = _ at htable
    unfold ofWorkbook at htable
    split at htable
    · cases htable
    · cases htable
    · split at htable
      · cases htable
      · cases htable
        exact columns_subset_of_rowsOf hrow
  | json =>
    rw [hkind] at htable
    change ofJson content.bytes = _ at htable
    unfold ofJson at htable
    split at htable
    · cases htable
    · cases htable
      exact columns_subset_of_ofItems hrow
    · cases htable
      exact columns_subset_of_ofItems hrow
    · cases htable

end File

/-! ## What the check overlooks

A required field is overlooked where it comes to the rows only through a mapping that reads a whole
source, or what an earlier mapping wrote. Apart from these fields, the check agrees with the rows:
if some row is a record with a name, no required column is missing. -/

namespace File

variable {content : Content} {filename : String} {table : Table} {headers : List String}
  {fields : List FieldMapping} {f : ItemField}

/-- A header supplies a field if it holds it, or if a mapping onto the field has it as its bare
source. -/
theorem supplies_iff : supplies headers fields f = true ↔
    (∃ header ∈ headers, ItemField.ofColumn? header = some f) ∨
      ∃ m ∈ fields, ItemField.ofColumn? m.target = some f ∧
        ∃ header ∈ headers, columnKey header = columnKey (bareColumn m.source) := by
  unfold supplies suppliesDirectly suppliesMapped
  simp only [List.any_eq_true, Bool.or_eq_true, Bool.and_eq_true, beq_iff_eq]
  constructor
  · rintro ⟨header, hheader, hdirect | ⟨m, hm, hkey, htarget⟩⟩
    · exact .inl ⟨header, hheader, hdirect⟩
    · rcases hkey with hkey | hkey
      · exact .inr ⟨m, hm, htarget, header, hheader, hkey.symm⟩
      · refine .inl ⟨header, hheader, ?_⟩
        rw [ItemField.ofColumn?_eq_some_iff] at htarget ⊢
        exact hkey ▸ htarget
  · rintro (⟨header, hheader, hdirect⟩ | ⟨m, hm, htarget, header, hheader, hkey⟩)
    · exact ⟨header, hheader, .inl hdirect⟩
    · exact ⟨header, hheader, .inr ⟨m, hm, .inl hkey.symm, htarget⟩⟩

/-- A file lacks columns just if no header supplies one of the required fields. -/
theorem exists_missingColumns_iff (hread : read content filename = .ok table) :
    (∃ titles, readItems content filename fields = .error (.missingColumns titles)) ↔
      ∃ f ∈ requiredFields, supplies table.headers fields f = false := by
  have hmissing :
      (requiredFields.filter fun f => !supplies table.headers fields f).isEmpty = false ↔
        ∃ f ∈ requiredFields, supplies table.headers fields f = false := by
    rw [List.isEmpty_eq_false_iff_exists_mem]
    simp only [List.mem_filter, Bool.not_eq_true']
  rw [← hmissing]
  unfold readItems
  rw [hread]
  dsimp only [bind, Except.bind]
  cases (requiredFields.filter fun f => !supplies table.headers fields f).isEmpty <;> simp

/-- Rows may have a field that no header supplies, as far as the check sees: no header holds it and
none is the bare source of a mapping onto it, but a mapping onto it reads a header by its whole
source, or what an earlier mapping wrote under its source. -/
structure Overlooked (headers : List String) (fields : List FieldMapping) (f : ItemField) :
    Prop where
  unheld : ∀ header ∈ headers, ItemField.ofColumn? header ≠ some f
  unmapped : ∀ m ∈ fields, ItemField.ofColumn? m.target = some f →
    ∀ header ∈ headers, columnKey header ≠ columnKey (bareColumn m.source)
  mapped : ∃ before m after, fields = before ++ m :: after ∧ ItemField.ofColumn? m.target = some f ∧
    ((∃ header ∈ headers, columnKey header = columnKey m.source) ∨ ∃ earlier ∈ before,
      columnKey earlier.target = columnKey (bareColumn m.source) ∨
        columnKey earlier.target = columnKey m.source)

/-- A row is a record with a name. -/
def IsNamed (fields : List FieldMapping) (row : Row) : Prop :=
  ∃ record, Transform.ofRow fields row = .ok (some record) ∧ record.name.isSome = true

instance (fields : List FieldMapping) (row : Row) : Decidable (IsNamed fields row) :=
  decidable_of_iff ((Transform.ofRow fields row).toOption.join.any (·.name.isSome) = true) (by
    unfold IsNamed
    cases Transform.ofRow fields row with
    | error defect => simp [Except.toOption]
    | ok record => cases record <;> simp [Except.toOption])

/-- A field that rows have and no header supplies is overlooked. -/
theorem overlooked_of_named {row : Row} (hnamed : IsNamed fields row)
    (hcolumns : row.map Prod.fst ⊆ headers) (hf : f ∈ requiredFields)
    (hunsupplied : supplies headers fields f = false) : Overlooked headers fields f := by
  rw [← Bool.not_eq_true, supplies_iff, not_or] at hunsupplied
  obtain ⟨hunheld, hunmapped⟩ := hunsupplied
  refine ⟨fun header hheader hheld => hunheld ⟨header, hheader, hheld⟩,
    fun m hm htarget header hheader hkey => hunmapped ⟨m, hm, htarget, header, hheader, hkey⟩, ?_⟩
  obtain ⟨record, hrecord, hname⟩ := hnamed
  obtain ⟨values, hvalues, htexts⟩ := Transform.exists_text?_of_ofRow hrecord hname
  obtain ⟨text, htext⟩ := htexts f hf
  rcases Transform.column_or_writes_field hvalues htext with
    ⟨column, hcolumn, hheld⟩ | ⟨before, m, after, rfl, htarget, name, hname, hkey⟩
  · exact absurd ⟨column, hcolumns hcolumn, hheld⟩ hunheld
  · refine ⟨before, m, after, rfl, htarget, ?_⟩
    rcases hkey with ⟨column, hcolumn, hkey⟩ | ⟨earlier, hearlier, hkey⟩
    · rcases List.mem_cons.mp hname with rfl | hname
      · exact absurd ⟨m, List.mem_append_right _ List.mem_cons_self, htarget, column,
          hcolumns hcolumn, hkey⟩ hunmapped
      · cases List.mem_singleton.mp hname
        exact .inl ⟨column, hcolumns hcolumn, hkey⟩
    · refine .inr ⟨earlier, hearlier, ?_⟩
      rcases List.mem_cons.mp hname with rfl | hname
      · exact .inl hkey
      · cases List.mem_singleton.mp hname
        exact .inr hkey

/-- Of a file with a row that is a record with a name, columns are said to be missing just if a
required field is overlooked. -/
theorem columns_missing_iff (hread : read content filename = .ok table)
    (hnamed : ∃ row ∈ table.rows, IsNamed fields row.2) :
    (∃ titles, readItems content filename fields = .error (.missingColumns titles)) ↔
      ∃ f ∈ requiredFields, Overlooked table.headers fields f := by
  rw [exists_missingColumns_iff hread]
  obtain ⟨⟨number, row⟩, hrow, hnamed⟩ := hnamed
  constructor
  · rintro ⟨f, hf, hunsupplied⟩
    exact ⟨f, hf, overlooked_of_named hnamed (columns_subset_headers hread hrow) hf hunsupplied⟩
  · rintro ⟨f, hf, hoverlooked⟩
    refine ⟨f, hf, ?_⟩
    rw [← Bool.not_eq_true, supplies_iff]
    rintro (⟨header, hheader, hheld⟩ | ⟨m, hm, htarget, header, hheader, hkey⟩)
    · exact hoverlooked.unheld header hheader hheld
    · exact hoverlooked.unmapped m hm htarget header hheader hkey

/-- A file with references as its headers. -/
def referenceFile : Content := .ofBytes "T0.Code,T0.Name\nA,Apple\n".toUTF8

/-- Its table. -/
def referenceTable : Table where
  kind := .csv
  headers := ["T0.Code", "T0.Name"]
  rows := [(2, [("T0.Code", .str "A"), ("T0.Name", .str "Apple")])]
  warnings := []

/-- Mappings with these references as their sources. -/
def referenceFields : List FieldMapping :=
  [⟨"T0.Code", "itemCode", .string, none⟩, ⟨"T0.Name", "itemName", .string, none⟩]

theorem columns_missing_iff_references :
    read referenceFile "items.csv" = .ok referenceTable ∧
      (∃ row ∈ referenceTable.rows, IsNamed referenceFields row.2) ∧
      Overlooked referenceTable.headers referenceFields .code ∧
      ∃ titles, readItems referenceFile "items.csv" referenceFields =
        .error (.missingColumns titles) := by
  have hoverlooked : Overlooked referenceTable.headers referenceFields .code :=
    { unheld := by decide
      unmapped := by decide
      mapped := ⟨[], _, _, rfl, by decide, .inl ⟨"T0.Code", List.mem_cons_self, rfl⟩⟩ }
  exact ⟨rfl, by decide +kernel, hoverlooked,
    (columns_missing_iff rfl (by decide +kernel)).mpr ⟨.code, List.mem_cons_self, hoverlooked⟩⟩

/-- Columns are said to be missing that rows are read from. -/
theorem not_columns_present : ¬ ∀ (content : Content) (filename : String)
    (fields : List FieldMapping) (table : Table), read content filename = .ok table →
      (∃ row ∈ table.rows, IsNamed fields row.2) →
      ∀ titles, readItems content filename fields ≠ .error (.missingColumns titles) :=
  fun h => h referenceFile "items.csv" referenceFields referenceTable rfl (by decide +kernel)
    ["itemCode", "itemName"] rfl

end File
end Recount
