import Recount.File.Export
import Recount.Proofs.Decimal.Numeral
import Recount.Proofs.File.Rows
import Recount.Proofs.File.Table

/-!
# What is exported can be imported

An export begins with a line of titles that no text of an item has a part in, so its separator is
found, and under each title the field is found that was written there. Each item comes back with
its code, its name, its unit and its quantities: quotes keep the texts apart whatever is in them,
trimming leaves those alone that have no blanks at their ends, and a numeral is read as the number
that it was written for.
-/

namespace Recount

variable {i : Item} {column : File.ExportColumn} {f : ItemField} {d : Decimal} {s : String}

namespace Transform

theorem textOf?_str (htrimmed : Text.IsTrimmed s) :
    textOf? (.str s) = if s = "" then none else some s := by
  simp only [textOf?, htrimmed.trim_eq, String.isEmpty_iff]

/-- A row with a code is read if its quantities are. -/
theorem ofRow_eq_ok {row : Row} {code : String} {systemQty packQty cost price : Option Decimal}
    (hcode : text? (.ofRow row) .code = some code)
    (hsystem : number? (.ofRow row) .systemQty = .ok systemQty)
    (hpack : number? (.ofRow row) .packQty = .ok packQty)
    (hcost : number? (.ofRow row) .cost = .ok cost)
    (hprice : number? (.ofRow row) .price = .ok price) :
    ofRow [] row = .ok (some ⟨code, text? (.ofRow row) .name, systemQty, text? (.ofRow row) .uom,
      packQty, cost, price, text? (.ofRow row) .barcodes, text? (.ofRow row) .category,
      text? (.ofRow row) .brand⟩) := by
  simp only [ofRow, List.foldlM_nil, pure, Except.pure, bind, Except.bind, hcode, hsystem, hpack,
    hcost, hprice]

/-- A numeral has no blanks and no commas. -/
theorem isTrimmed_toNumeral : Text.IsTrimmed d.toNumeral := by
  refine Text.isTrimmed_of_forall fun c hc => ?_
  rcases Decimal.of_mem_toNumeral hc with hdigit | rfl | rfl
  · exact Text.isBlank_of_isDigit hdigit
  · decide
  · decide

/-- A numeral is read as a quantity of its number. -/
theorem exists_quantity?_toNumeral (d : Decimal) :
    ∃ e, quantity? d.toNumeral = some e ∧ e.value = d.value := by
  have hcomma : d.toNumeral.toList.filter (· != ',') = d.toNumeral.toList := by
    refine List.filter_eq_self.mpr fun c hc => ?_
    rcases Decimal.of_mem_toNumeral hc with hdigit | rfl | rfl
    · refine bne_iff_ne.mpr ?_
      rintro rfl
      cases hdigit
    · decide
    · decide
  obtain ⟨e, he, hvalue⟩ := Decimal.exists_ofNumeral?_toNumeral d
  refine ⟨e, ?_, hvalue⟩
  rw [quantity?, hcomma, String.ofList_toList, Decimal.ofText?, he, Option.some_or]

end Transform

/-- An item whose texts are there and have no blanks at their ends. -/
structure Item.Trimmed (i : Item) : Prop where
  code_ne : i.code ≠ ""
  code : Text.IsTrimmed i.code
  name_ne : i.name ≠ ""
  name : Text.IsTrimmed i.name
  uom : ∀ uom, i.uom = some uom → uom ≠ "" ∧ Text.IsTrimmed uom

/-- A record says of an item what an export tells of it. -/
structure Item.Told (i : Item) (record : ItemRecord) : Prop where
  code : record.code = i.code
  name : record.name = some i.name
  uom : record.uom = i.uom
  packQty : record.packQty.map Decimal.value = i.packQty.map Decimal.value
  systemQty : record.systemQty.map Decimal.value = some i.systemQty.value

namespace File

/-- The titles of an export that is made without a mapping. -/
def exportTitles : List String := exportColumns.map ExportColumn.title

/-- The cells of an item as they are read. -/
def exportedCells (i : Item) : List String :=
  (exportColumns.map (·.value i)).map Text.trim

/-- The row of an exported item. -/
def exportedRow (i : Item) : Row := rowOf exportTitles (exportedCells i)

section Row

theorem exportedRow_perm :
    (exportedRow i).Perm (exportColumns.map fun c => (c.title, .str (Text.trim (c.value i)))) := by
  have hperm : (rowOf exportTitles (exportedCells i)).Perm _ :=
    rowOf_perm (by decide) (by simp [exportTitles, exportedCells]) (by decide)
  have hzip : exportTitles.zip (exportedCells i) =
      exportColumns.map fun c => (c.title, Text.trim (c.value i)) := by
    rw [exportTitles, exportedCells, List.map_map, List.zip_map']
    rfl
  rwa [hzip, List.map_map] at hperm

/-- The entries of the row stand under the titles. -/
theorem mem_exportTitles_of_mem {entry : String × Json} (h : entry ∈ exportedRow i) :
    entry.1 ∈ exportTitles := by
  obtain ⟨c, hc, rfl⟩ := List.mem_map.mp (exportedRow_perm.mem_iff.mp h)
  exact List.mem_map_of_mem hc

theorem exportedRow_keys : ((exportedRow i).map fun entry => columnKey entry.1).Nodup := by
  rw [(exportedRow_perm.map _).nodup_iff, List.map_map]
  exact (by decide : (exportColumns.map fun c => columnKey c.title).Nodup)

/-- A title under which a field is looked for is the name of the field. -/
theorem eq_title_of_ofColumn? : ∀ title ∈ exportTitles,
    ∀ f ∈ ItemField.ofColumn? title, title = f.title := by
  decide

/-- The text of a field is the one that was exported under its name. -/
theorem text?_exportedRow {value : Item → String} (hcolumn : ⟨f.title, value⟩ ∈ exportColumns) :
    Transform.text? (.ofRow (exportedRow i)) f =
      Transform.textOf? (.str (Text.trim (value i))) := by
  have hmem : (f.title, Json.str (Text.trim (value i))) ∈ exportedRow i :=
    exportedRow_perm.mem_iff.mpr (List.mem_map.mpr ⟨_, hcolumn, rfl⟩)
  refine Transform.text?_ofRow_of_mem exportedRow_keys hmem (ItemField.ofColumn?_title f) ?_
  intro entry hentry hfield
  exact eq_title_of_ofColumn? entry.1 (mem_exportTitles_of_mem hentry) f hfield

/-- A field without a column is not exported. -/
theorem text?_exportedRow_eq_none (h : f.title ∉ exportTitles) :
    Transform.text? (.ofRow (exportedRow i)) f = none := by
  refine Transform.text?_ofRow_eq_none fun entry hentry hfield => h ?_
  have hmem := mem_exportTitles_of_mem hentry
  rwa [eq_title_of_ofColumn? entry.1 hmem f hfield] at hmem

/-- An exported text that is there is read as it is. -/
theorem text?_exportedRow_of_trimmed {value : Item → String}
    (hcolumn : ⟨f.title, value⟩ ∈ exportColumns) (hne : value i ≠ "")
    (htrimmed : Text.IsTrimmed (value i)) :
    Transform.text? (.ofRow (exportedRow i)) f = some (value i) := by
  rw [text?_exportedRow hcolumn, htrimmed.trim_eq, Transform.textOf?_str htrimmed, if_neg hne]

/-- An exported quantity is read as one of its number. -/
theorem exists_number?_exportedRow {q : Item → Option Decimal}
    (hcolumn : ⟨f.title, fun i => quantityText (q i)⟩ ∈ exportColumns) :
    ∃ read, Transform.number? (.ofRow (exportedRow i)) f = .ok read ∧
      read.map Decimal.value = (q i).map Decimal.value := by
  unfold Transform.number?
  rw [text?_exportedRow hcolumn]
  cases q i with
  | none => exact ⟨none, rfl, rfl⟩
  | some d =>
    obtain ⟨e, he, hvalue⟩ := Transform.exists_quantity?_toNumeral d.normalize
    have hnumeral : quantityText (some d) = d.normalize.toNumeral := rfl
    rw [hnumeral, Transform.isTrimmed_toNumeral.trim_eq,
      Transform.textOf?_str Transform.isTrimmed_toNumeral, if_neg Decimal.toNumeral_ne_empty]
    exact ⟨some e, by simp only [he], by simp [hvalue, Decimal.normalize_value]⟩

theorem number?_exportedRow_eq_none (h : f.title ∉ exportTitles) :
    Transform.number? (.ofRow (exportedRow i)) f = .ok none := by
  rw [Transform.number?, text?_exportedRow_eq_none h]

/-- The row of an exported item is read as what was told of the item. -/
theorem exists_itemOfRow_exportedRow (hi : i.Trimmed) :
    ∃ record, itemOfRow [] (exportedRow i) = .ok record ∧ i.Told record := by
  have hcode : Transform.text? (.ofRow (exportedRow i)) .code = some i.code :=
    text?_exportedRow_of_trimmed (.head _) hi.code_ne hi.code
  have hname : Transform.text? (.ofRow (exportedRow i)) .name = some i.name :=
    text?_exportedRow_of_trimmed (.tail _ (.head _)) hi.name_ne hi.name
  have huom : Transform.text? (.ofRow (exportedRow i)) .uom = i.uom := by
    have hread := text?_exportedRow (i := i) (f := .uom) (.tail _ (.tail _ (.head _)))
    cases hgiven : i.uom with
    | none =>
      rw [hread, hgiven]
      rfl
    | some uom =>
      obtain ⟨hne, htrimmed⟩ := hi.uom uom hgiven
      rw [hread, hgiven, Option.getD_some, htrimmed.trim_eq, Transform.textOf?_str htrimmed,
        if_neg hne]
  obtain ⟨packQty, hpack, hpackValue⟩ := exists_number?_exportedRow (i := i) (f := .packQty)
    (.tail _ (.tail _ (.tail _ (.head _))))
  obtain ⟨systemQty, hsystem, hsystemValue⟩ := exists_number?_exportedRow (i := i) (f := .systemQty)
    (q := fun i => some i.systemQty) (.tail _ (.tail _ (.tail _ (.tail _ (.head _)))))
  have hcost : Transform.number? (.ofRow (exportedRow i)) .cost = .ok none :=
    number?_exportedRow_eq_none (by decide)
  have hprice : Transform.number? (.ofRow (exportedRow i)) .price = .ok none :=
    number?_exportedRow_eq_none (by decide)
  refine ⟨⟨i.code, some i.name, systemQty, i.uom, packQty, none, none, none, none, none⟩, ?_,
    ⟨rfl, rfl, rfl, hpackValue, hsystemValue⟩⟩
  have hrow := Transform.ofRow_eq_ok hcode hsystem hpack hcost hprice
  rw [hname, huom, text?_exportedRow_eq_none (by decide), text?_exportedRow_eq_none (by decide),
    text?_exportedRow_eq_none (by decide)] at hrow
  rw [itemOfRow, hrow]
  rfl

/-- The rows of exported items are read as what was told of them, one after the other. -/
theorem exists_forall₂_itemOfRow {items : List Item} (hitems : ∀ i ∈ items, i.Trimmed) :
    ∃ records, List.Forall₂ (fun row record => itemOfRow [] row = .ok record)
        (items.map exportedRow) records ∧ List.Forall₂ Item.Told items records := by
  induction items with
  | nil => exact ⟨[], .nil, .nil⟩
  | cons i items ih =>
    obtain ⟨record, hrow, htold⟩ := exists_itemOfRow_exportedRow (hitems i List.mem_cons_self)
    obtain ⟨records, hrows, htolds⟩ := ih fun i hi => hitems i (List.mem_cons_of_mem _ hi)
    exact ⟨record :: records, .cons hrow hrows, .cons htold htolds⟩

end Row

section Header

/-- The line of titles. -/
def exportLine : List Char := [','].intercalate (exportTitles.map Csv.writeField)

theorem exportItems_eq_write (items : List Item) : exportItems items none =
    Csv.write (exportTitles :: items.map fun i => exportColumns.map (·.value i)) :=
  rfl

/-- An export begins with the line of titles. -/
theorem exists_toList_exportItems (items : List Item) :
    ∃ rest, (exportItems items none).toList = exportLine ++ '\n' :: rest := by
  have htitles : Csv.writeRecord exportTitles = exportLine ++ ['\n'] := by decide
  refine ⟨(items.map fun i => exportColumns.map (·.value i)).flatMap Csv.writeRecord, ?_⟩
  rw [exportItems_eq_write, Csv.write, String.toList_ofList, List.flatMap_cons, htitles,
    List.append_assoc, List.singleton_append]

/-- An export is read as the table of its titles and of the rows of its items. -/
theorem exists_ofCsv_exportItems {items : List Item} (hitems : ∀ i ∈ items, i.Trimmed) :
    ∃ rows, ofCsv (exportItems items none).toUTF8 = .ok ⟨.csv, exportTitles, rows, []⟩ ∧
      rows.map Prod.snd = items.map exportedRow := by
  obtain ⟨rest, hbegins⟩ := exists_toList_exportItems items
  have hseparator : Csv.separatorOf (exportItems items none).toList = ',' := by
    rw [hbegins, Csv.separatorOf_line (by decide)]
    decide
  have hmark : (exportItems items none).toList.head? ≠ some '\ufeff' := by
    rw [hbegins, List.head?_append_of_ne_nil _ (by decide)]
    decide
  have hfields : ∀ fields ∈ exportTitles :: items.map fun i => exportColumns.map (·.value i),
      fields ≠ [] := by
    intro fields hmem
    rcases List.mem_cons.mp hmem with rfl | hmem
    · decide
    · obtain ⟨i, -, rfl⟩ := List.mem_map.mp hmem
      exact List.cons_ne_nil _ _
  have htitles : exportTitles.map Text.trim = exportTitles := by decide
  have hcells : (items.map fun i => exportColumns.map (·.value i)).map (·.map Text.trim) =
      items.map exportedCells := List.map_map
  have hwidth : widthWarnings exportTitles.length (items.map exportedCells) = [] := by
    refine widthWarnings_eq_nil fun cells hmem => ?_
    obtain ⟨i, -, rfl⟩ := List.mem_map.mp hmem
    simp [exportedCells, exportTitles]
  have hrows : (rowsOf exportTitles (items.map exportedCells)).map Prod.snd =
      items.map exportedRow := by
    have hsome : ∀ cells ∈ items.map exportedCells, ∃ cell ∈ cells, cell ≠ "" := by
      intro cells hmem
      obtain ⟨i, hi, rfl⟩ := List.mem_map.mp hmem
      refine ⟨Text.trim i.code, List.mem_cons_self, ?_⟩
      rw [(hitems i hi).code.trim_eq]
      exact (hitems i hi).code_ne
    rw [map_snd_rowsOf hsome, List.map_map]
    refine List.map_congr_left fun i _ => ?_
    rw [Function.comp_apply, exportedRow]
  rw [exportItems_eq_write] at hseparator hmark ⊢
  have hread := ofCsv_write hseparator hmark hfields
  rw [htitles, hcells, hwidth] at hread
  exact ⟨_, hread, hrows⟩

end Header

/-- What is exported is imported again: every row is read without a complaint, and the records say
of the items, in their order, what the export told of them. -/
theorem readItems_exportItems {items : List Item} {filename : String} (hitems : items ≠ [])
    (htrimmed : ∀ i ∈ items, i.Trimmed) (hname : Text.endsWith filename ".csv" = true) :
    ∃ result, readItems (.ofBytes (exportItems items none).toUTF8) filename [] = .ok result ∧
      result.rowErrors = [] ∧ result.warnings = [] ∧
      List.Forall₂ Item.Told items result.records := by
  obtain ⟨rows, htable, hrows⟩ := exists_ofCsv_exportItems htrimmed
  obtain ⟨records, hread, htold⟩ := exists_forall₂_itemOfRow htrimmed
  rw [← hrows, List.forall₂_map_left_iff] at hread
  have hsome : rows ≠ [] := by
    rintro rfl
    exact hitems (List.map_eq_nil_iff.mp hrows.symm)
  have hheader : ∃ header ∈ exportTitles, Text.isBlankText header = false :=
    ⟨"itemCode", List.mem_cons_self, by decide⟩
  have hsupplies : ∀ f ∈ requiredFields, supplies exportTitles [] f = true := by decide
  have hfile : read (.ofBytes (exportItems items none).toUTF8) filename = .ok _ :=
    read_eq_ok (kindOfName?_of_endsWith hname) htable hheader hsome
  exact ⟨_, readItems_eq_ok hfile hsupplies hread, rfl, rfl, htold⟩

/-- An item whose texts hold separators, quotes and line breaks, and one without a unit. -/
def awkwardItems : List Item :=
  [{ (default : Item) with
      code := "\ufeff1,2;3\t4|5", name := "the \"long\" one,\r\n\"cut\"", uom := some "m\u00b2,"
      packQty := some ⟨false, 1200, 2, by decide, by decide⟩
      systemQty := ⟨true, 2500, 3, by decide, by decide⟩ },
    { (default : Item) with code := "\"", name := "," }]

theorem awkwardItems_trimmed : ∀ i ∈ awkwardItems, i.Trimmed := by
  simp only [awkwardItems, List.forall_mem_cons, List.not_mem_nil, false_imp_iff, implies_true,
    and_true]
  refine ⟨⟨by decide, ⟨by decide, by decide⟩, by decide, ⟨by decide, by decide⟩, ?_⟩,
    ⟨by decide, ⟨by decide, by decide⟩, by decide, ⟨by decide, by decide⟩, ?_⟩⟩
  · rintro uom ⟨⟩
    exact ⟨by decide, by decide, by decide⟩
  · rintro uom ⟨⟩

theorem readItems_exportItems_awkward :
    awkwardItems ≠ [] ∧ (∀ i ∈ awkwardItems, i.Trimmed) ∧
      Text.endsWith "\u039f\u03a3.csv" ".csv" = true ∧
      ∃ result, readItems (.ofBytes (exportItems awkwardItems none).toUTF8)
          "\u039f\u03a3.csv" [] = .ok result ∧
        result.rowErrors = [] ∧ result.warnings = [] ∧
        List.Forall₂ Item.Told awkwardItems result.records :=
  ⟨List.cons_ne_nil _ _, awkwardItems_trimmed, by decide,
    readItems_exportItems (List.cons_ne_nil _ _) awkwardItems_trimmed (by decide)⟩

end File
end Recount
