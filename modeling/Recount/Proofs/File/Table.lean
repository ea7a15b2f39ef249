import Recount.File.Csv
import Recount.File.Items
import Recount.Proofs.Result
import Recount.Proofs.Text.Trim

/-!
# What a file of separated values holds

The name of a file tells its kind by its ending, whatever else is in it. A text that was written as
records is a table of these records, and its rows are items if each of them is one.
-/

/-! ## Written records are read back

Whatever stands in their fields, records that are written one after the other are read back as
they were: a field that holds a separator, a quote or a line break is told apart by its quotes,
and no other field is ended early. Only a record without fields leaves nothing but its line break. -/

namespace Recount.Csv

variable {r : Reading} {field : String} {fields : List String} {records : List (List String)}
  {cs : List Char}

/-- A character that can stand in a field without quotes. -/
def isBare (c : Char) : Bool := !(c == ',' || c == '"' || isBreak c)

theorem ne_of_isBare {c : Char} (h : isBare c = true) :
    (c == ',') = false ∧ (c == '"') = false ∧ isBreak c = false := by
  rw [isBare, Bool.not_eq_true', Bool.or_eq_false_iff, Bool.or_eq_false_iff] at h
  exact ⟨h.1.1, h.1.2, h.2⟩

theorem isBare_of_not_needsQuotes (h : needsQuotes field = false) :
    ∀ c ∈ field.toList, isBare c = true := by
  intro c hc
  rw [needsQuotes, List.any_eq_false] at h
  rw [isBare, Bool.not_eq_true', ← Bool.not_eq_true]
  exact h c hc

section Field

/-- The reader is before a field that it has read nothing of. -/
structure Reading.Opens (r : Reading) : Prop where
  place : r.place = .record ∨ r.place = .field
  chars : r.chars = []

/-- Characters without a meaning are taken one after the other. -/
theorem foldl_step_bare (hplace : r.place = .plain) (hbare : ∀ c ∈ cs, isBare c = true) :
    cs.foldl (Reading.step ',') r = { r with chars := cs.reverse ++ r.chars } := by
  induction cs generalizing r with
  | nil => rfl
  | cons c cs ih =>
    obtain ⟨hcomma, -, hbreak⟩ := ne_of_isBare (hbare c List.mem_cons_self)
    have hstep : r.step ',' c = { r with chars := c :: r.chars } := by
      simp [Reading.step, Reading.unquoted, Reading.take, hplace, hcomma, hbreak]
    rw [List.foldl_cons, hstep, ih (r := { r with chars := c :: r.chars }) hplace
      fun c hc => hbare c (List.mem_cons_of_mem _ hc)]
    simp

/-- Inside of quotes every character is taken, and of two quotes one. -/
theorem foldl_step_doubled (hplace : r.place = .quoted) :
    (cs.flatMap fun c => if c == '"' then [c, c] else [c]).foldl (Reading.step ',') r =
      { r with chars := cs.reverse ++ r.chars } := by
  induction cs generalizing r with
  | nil => rfl
  | cons c cs ih =>
    have hstep : (if c == '"' then [c, c] else [c]).foldl (Reading.step ',') r =
        { r with chars := c :: r.chars } := by
      cases hquote : c == '"' with
      | true => simp [Reading.step, Reading.take, hplace, hquote]
      | false => simp [Reading.step, Reading.take, hplace, hquote]
    rw [List.flatMap_cons, List.foldl_append, hstep,
      ih (r := { r with chars := c :: r.chars }) hplace]
    simp

/-- After a written field its characters are read. It is open only if it is empty. -/
theorem foldl_step_writeField (field : String) (hopens : r.Opens) :
    ∃ place, (writeField field).foldl (Reading.step ',') r =
        { r with place, chars := field.toList.reverse } ∧
      (place = .plain ∨ place = .quote ∨ place = r.place ∧ field = "") := by
  unfold writeField
  split
  · have hopen : r.step ',' '"' = { r with place := .quoted } := by
      rcases hopens.place with hplace | hplace <;> simp [Reading.step, hplace, isBreak]
    refine ⟨.quote, ?_, .inr (.inl rfl)⟩
    rw [quoted, List.cons_append, List.foldl_cons, hopen, List.foldl_append,
      foldl_step_doubled rfl, hopens.chars]
    simp [Reading.step]
  · next hbare =>
    have hall := isBare_of_not_needsQuotes (Bool.not_eq_true _ ▸ hbare)
    cases hcs : field.toList with
    | nil =>
      have hempty : field = "" := String.toList_eq_nil_iff.mp hcs
      refine ⟨r.place, ?_, .inr (.inr ⟨rfl, hempty⟩)⟩
      rw [List.foldl_nil, List.reverse_nil, ← hopens.chars]
    | cons c cs =>
      rw [hcs] at hall
      obtain ⟨hcomma, hquote, hbreak⟩ := ne_of_isBare (hall c List.mem_cons_self)
      have hfirst : r.step ',' c = { r with place := .plain, chars := [c] } := by
        rcases hopens.place with hplace | hplace <;>
          simp [Reading.step, Reading.unquoted, Reading.take, hplace, hcomma, hquote, hbreak,
            hopens.chars]
      refine ⟨.plain, ?_, .inl rfl⟩
      rw [List.foldl_cons, hfirst,
        foldl_step_bare rfl fun c hc => hall c (List.mem_cons_of_mem _ hc)]
      simp

end Field

section Record

/-- A separator ends a field wherever the field is not in quotes. -/
theorem step_separator (hplace : r.place ≠ .quoted) : r.step ',' ',' = r.endField := by
  unfold Reading.step
  cases hat : r.place with
  | quoted => exact absurd hat hplace
  | record | field | plain | quote => simp [Reading.unquoted, isBreak]

/-- A line break ends the record that a field belongs to. -/
theorem step_break (hplace : r.place ≠ .quoted) (hrecord : r.place ≠ .record) :
    r.step ',' '\n' = r.endRecord := by
  unfold Reading.step
  cases hat : r.place with
  | quoted => exact absurd hat hplace
  | record => exact absurd hat hrecord
  | field | plain | quote => simp [Reading.unquoted, isBreak]

/-- The fields of a record are read to its end. A single empty field does not begin a record. -/
theorem foldl_step_fields (hopens : r.Opens) (hfields : fields ≠ [])
    (hbegins : r.place = .record → fields ≠ [""]) :
    ([','].intercalate (fields.map writeField) ++ ['\n']).foldl (Reading.step ',') r =
      ⟨.record, (r.fields.reverse ++ fields) :: r.records, [], []⟩ := by
  induction fields generalizing r with
  | nil => exact absurd rfl hfields
  | cons field rest ih =>
    obtain ⟨place, hread, hplace⟩ := foldl_step_writeField field hopens
    have hquoted : place ≠ .quoted := by
      rcases hplace with rfl | rfl | ⟨rfl, -⟩
      · decide
      · decide
      · rcases hopens.place with h | h <;> rw [h] <;> decide
    cases rest with
    | nil =>
      have hrecord : place ≠ .record := by
        rcases hplace with rfl | rfl | ⟨rfl, rfl⟩
        · decide
        · decide
        · exact fun h => hbegins h rfl
      rw [List.map_singleton, List.intercalate_singleton, List.foldl_append, hread]
      rw [List.foldl_cons, step_break hquoted hrecord]
      simp [Reading.endRecord, Reading.endField]
    | cons next rest =>
      have hrest := ih (r := { r with place, chars := field.toList.reverse }.endField)
        ⟨.inr rfl, rfl⟩ (List.cons_ne_nil _ _)
        fun hplace => by simp [Reading.endField] at hplace
      rw [List.map_cons, List.map_cons, List.intercalate_cons_cons, List.append_assoc,
        List.append_assoc, List.foldl_append, hread, List.foldl_append, List.foldl_cons,
        step_separator hquoted, List.foldl_nil, ← List.map_cons, hrest]
      simp [Reading.endField]

/-- A record is read from its line. -/
theorem foldl_step_writeRecord (hfields : fields ≠ []) :
    (writeRecord fields).foldl (Reading.step ',') ⟨.record, records, [], []⟩ =
      ⟨.record, fields :: records, [], []⟩ := by
  unfold writeRecord
  by_cases hsingle : fields = [""]
  · subst hsingle
    rfl
  · have hne : (fields == [""]) = false := beq_eq_false_iff_ne.mpr hsingle
    rw [hne]
    exact foldl_step_fields ⟨.inl rfl, rfl⟩ hfields fun _ => hsingle

end Record

/-- Records that are written are read back. -/
theorem read_write (hrecords : ∀ fields ∈ records, fields ≠ []) :
    read ',' (write records).toList = records := by
  have hlines : ∀ done, (records.flatMap writeRecord).foldl (Reading.step ',')
      ⟨.record, done, [], []⟩ = ⟨.record, records.reverse ++ done, [], []⟩ := by
    induction records with
    | nil => exact fun done => rfl
    | cons fields records ih =>
      intro done
      rw [List.flatMap_cons, List.foldl_append,
        foldl_step_writeRecord (hrecords fields List.mem_cons_self),
        ih fun fields h => hrecords fields (List.mem_cons_of_mem _ h)]
      simp
  rw [read, write, String.toList_ofList, hlines []]
  simp [Reading.finish]

end Recount.Csv

/-! ## Tables -/

namespace Recount

namespace Text

variable {cs ending : List Char}

/-- An ending that is in lower case is kept as it is. -/
theorem suffix_lowerAfter (hsigma : ∀ c ∈ ending, c.toNat ≠ 0x3A3)
    (hlower : ∀ c ∈ ending, lowerChar c = [c]) (hcs : ending <:+ cs) (before : List Char) :
    ending <:+ lowerAfter before cs := by
  obtain ⟨start, rfl⟩ := hcs
  induction start generalizing before with
  | nil =>
    suffices h : lowerAfter before ending = ending by
      rw [List.nil_append, h]
    induction ending generalizing before with
    | nil => rfl
    | cons c ending ih =>
      rw [lowerAfter, if_neg (hsigma c List.mem_cons_self), hlower c List.mem_cons_self,
        ih (fun c h => hsigma c (List.mem_cons_of_mem _ h))
          (fun c h => hlower c (List.mem_cons_of_mem _ h))]
      rfl
  | cons c start ih =>
    rw [List.cons_append, lowerAfter]
    split
    · exact (ih _).trans (List.suffix_cons _ _)
    · exact (ih _).trans (List.suffix_append _ _)

theorem endsWith_iff {s t : String} : endsWith s t = true ↔ t.toList <:+ s.toList := by
  rw [endsWith, isSome_afterStart?_iff, List.reverse_prefix]

end Text

theorem Utf8.decode_toUTF8 (s : String) : decode s.toUTF8 = .ok s := by
  have hread : String.fromUTF8? s.toUTF8 = some s := dif_pos s.isValidUTF8
  rw [decode, hread]

namespace Csv

variable {line rest : List Char}

/-- Only the first line decides about the separator. -/
theorem separatorOf_line (hline : '\n' ∉ line) :
    separatorOf (line ++ '\n' :: rest) = separatorOf line := by
  have hfirst : ∀ c, countInFirstLine (line ++ '\n' :: rest) c = countInFirstLine line c := by
    intro c
    have hall : ∀ d ∈ line, (d != '\n') = true := fun d hd =>
      bne_iff_ne.mpr fun h => hline (h ▸ hd)
    unfold countInFirstLine
    rw [List.takeWhile_append_of_pos hall, List.takeWhile_cons_of_neg (by decide),
      List.append_nil, List.takeWhile_eq_self_iff.mpr hall]
  simp only [separatorOf, hfirst]

end Csv

namespace File

variable {filename : String} {headers : List String} {records : List (List String)} {width : Nat}

/-- A name that ends like those of files of separated values is taken for one of them. -/
theorem kindOfName?_of_endsWith (hname : Text.endsWith filename ".csv" = true) :
    kindOfName? filename = some .csv := by
  have hsigma : ∀ c ∈ ".csv".toList, c.toNat ≠ 0x3A3 := by simp
  have hsmall : ∀ c ∈ ".csv".toList, Text.lowerChar c = [c] := by simp [Text.lowerChar]
  have hlower : Text.endsWith (Text.lower filename) ".csv" = true := by
    have hkept := Text.suffix_lowerAfter hsigma hsmall (Text.endsWith_iff.mp hname) []
    rw [← String.toList_ofList (l := Text.lowerAfter [] _)] at hkept
    exact Text.endsWith_iff.mpr hkept
  simp [kindOfName?, hlower]

/-- Written records are read as a table whose cells are trimmed. -/
theorem ofCsv_write (hseparator : Csv.separatorOf (Csv.write (headers :: records)).toList = ',')
    (hmark : (Csv.write (headers :: records)).toList.head? ≠ some '\ufeff')
    (hfields : ∀ fields ∈ headers :: records, fields ≠ []) :
    ofCsv (Csv.write (headers :: records)).toUTF8 =
      .ok ⟨.csv, headers.map Text.trim,
        rowsOf (headers.map Text.trim) (records.map (·.map Text.trim)),
        widthWarnings headers.length (records.map (·.map Text.trim))⟩ := by
  have hcs : (Csv.write (headers :: records)).toList.dropWhile (· == '\ufeff') =
      (Csv.write (headers :: records)).toList := by
    cases hlist : (Csv.write (headers :: records)).toList with
    | nil => rfl
    | cons c cs =>
      rw [hlist, List.head?_cons, ne_eq, Option.some_inj] at hmark
      exact List.dropWhile_cons_of_neg (by simpa using hmark)
  unfold ofCsv
  rw [Utf8.decode_toUTF8]
  dsimp only
  rw [hcs, hseparator, Csv.read_write hfields]
  simp

/-- Records that are not empty are rows, in their order. -/
theorem map_snd_rowsOf (hrecords : ∀ cells ∈ records, ∃ cell ∈ cells, cell ≠ "") :
    (rowsOf headers records).map Prod.snd = records.map (rowOf headers) := by
  have hrows : rowsOf headers records =
      (numbered records).map fun record => (record.1, rowOf headers record.2) := by
    refine List.filterMap_eq_map_iff_forall_eq_some.mpr fun entry hentry => ?_
    obtain ⟨⟨cells, index⟩, hmem, rfl⟩ := List.mem_map.mp hentry
    obtain ⟨cell, hcell, hne⟩ := hrecords cells (List.fst_mem_of_mem_zipIdx hmem)
    have hsome : cells.all String.isEmpty = false :=
      List.all_eq_false.mpr ⟨cell, hcell, by simpa using hne⟩
    simp [hsome]
  have hsnd : (numbered records).map Prod.snd = records := by
    rw [numbered, List.map_map]
    exact List.zipIdx_map_fst 0 records
  rw [hrows, List.map_map]
  conv_rhs => rw [← hsnd, List.map_map]
  rfl

/-- Nothing is said about records that are as long as the headers. -/
theorem widthWarnings_eq_nil (hrecords : ∀ cells ∈ records, cells.length = width) :
    widthWarnings width records = [] := by
  refine List.filterMap_eq_nil_iff.mpr fun entry hentry => ?_
  obtain ⟨⟨cells, index⟩, hmem, rfl⟩ := List.mem_map.mp hentry
  simp [hrecords cells (List.fst_mem_of_mem_zipIdx hmem)]

/-- A table with a header that is not blank and a row is read as it is. -/
theorem read_eq_ok {content : Content} {kind : Kind} {table : Table}
    (hkind : kindOfName? filename = some kind) (htable : ofKind content kind = .ok table)
    (hheaders : ∃ header ∈ table.headers, Text.isBlankText header = false)
    (hrows : table.rows ≠ []) : read content filename = .ok table := by
  obtain ⟨header, hmem, hblank⟩ := hheaders
  have hnot : table.headers.all Text.isBlankText = false :=
    List.all_eq_false.mpr ⟨header, hmem, by simp [hblank]⟩
  have hsome : table.rows.isEmpty = false := by simpa using hrows
  delta read
  rw [hkind, Option.some_or]
  change (ofKind content kind >>= _) = _
  rw [htable]
  simp [bind, Except.bind, hnot, hsome]

/-- What is read of a file is a table of its kind. -/
theorem ofKind_of_read {content : Content} {table : Table}
    (hread : read content filename = .ok table) : ofKind content table.kind = .ok table := by
  have hkind : ∀ kind, ofKind content kind = .ok table → kind = table.kind := by
    intro kind h
    cases kind with
    | csv =>
      change ofCsv content.bytes = _ at h
      unfold ofCsv at h
      split at h <;> cases h
      rfl
    | excel =>
      change ofWorkbook content.workbook = _ at h
      unfold ofWorkbook at h
      split at h
      · cases h
      · cases h
      · split at h <;> cases h
        rfl
    | json =>
      change ofJson content.bytes = _ at h
      unfold ofJson at h
      split at h <;> cases h <;> rfl
  unfold read at hread
  split at hread
  · next kind _ =>
    obtain ⟨table', htable, hread⟩ := bind_eq_ok_iff.mp hread
    split at hread
    · cases hread
    · split at hread
      · cases hread
      · cases hread
        exact hkind kind htable ▸ htable
  · cases hread

section Items

variable {fields : List FieldMapping} {rows : List (Nat × Row)} {items : List ItemRecord}

/-- Rows that are all items have these as their results. -/
theorem items_of_rows
    (hrows : List.Forall₂ (fun row item => itemOfRow fields row.2 = .ok item) rows items) :
    ((rows.map fun row => (row.1, itemOfRow fields row.2)).filterMap
      fun result => result.2.toOption) = items := by
  induction hrows with
  | nil => rfl
  | cons hrow _ ih => rw [List.map_cons, List.filterMap_cons_some (by rw [hrow]; rfl), ih]

/-- Rows that are all items have no errors, however errors are told. -/
theorem errors_of_rows
    (hrows : List.Forall₂ (fun row item => itemOfRow fields row.2 = .ok item) rows items)
    {error? : Nat × Except String ItemRecord → Option RowError}
    (hok : ∀ number item, error? (number, .ok item) = none) :
    (rows.map fun row => (row.1, itemOfRow fields row.2)).filterMap error? = [] := by
  induction hrows with
  | nil => rfl
  | cons hrow _ ih => rw [List.map_cons, List.filterMap_cons_none (by rw [hrow, hok]), ih]

/-- A table whose rows are all items is read as these items. -/
theorem readItems_eq_ok {content : Content} {table : Table} (hread : read content filename = .ok table)
    (hsupplies : ∀ f ∈ requiredFields, supplies table.headers fields f = true)
    (hrows : List.Forall₂ (fun row item => itemOfRow fields row.2 = .ok item) table.rows items) :
    readItems content filename fields =
      .ok ⟨table.kind, content.hash, table.rows.length, items, [], table.warnings⟩ := by
  have hmissing : (requiredFields.filter fun f => !supplies table.headers fields f) = [] :=
    List.filter_eq_nil_iff.mpr fun f hf => by simp [hsupplies f hf]
  unfold readItems
  rw [hread]
  dsimp only [bind, Except.bind]
  rw [hmissing, if_neg (by decide), items_of_rows hrows]
  exact congrArg (fun errors => Except.ok
      (Items.mk table.kind content.hash table.rows.length items errors table.warnings))
    (errors_of_rows hrows fun _ _ => rfl)

end Items

end File
end Recount
