import Mathlib.Data.List.Induction
import Recount.Proofs.File.Rows
import Recount.Proofs.Result

/-!
# What field mappings take and write

A field mapping puts what it finds under the key of its target and leaves all other keys alone. So
what the mappings of a list leave behind is known as soon as each of them finds what the row has.
-/

namespace Recount

variable {columns : List String} {fields order : List FieldMapping} {m : FieldMapping} {row : Row}
  {values values' : KeyedValues} {key other : String} {value : Json} {f : ItemField}

namespace KeyedValues

theorem get?_set_self : (values.set key value).get? key = some value := by
  simp [get?, set]

theorem get?_set_of_ne (h : key ≠ other) :
    (values.set key value).get? other = values.get? other := by
  simp [get?, set, h]

/-- A row has values just under the keys of its columns. -/
theorem get?_ofRow_eq_none_iff :
    (ofRow row).get? key = none ↔ ∀ column ∈ row.map Prod.fst, columnKey column ≠ key := by
  constructor
  · rintro hnone column hcolumn rfl
    obtain ⟨entry, hentry, rfl⟩ := List.mem_map.mp hcolumn
    unfold get? at hnone
    rw [ofRow_eq_reverse, Option.map_eq_none_iff, List.find?_eq_none] at hnone
    exact hnone (columnKey entry.1, entry.2)
      (List.mem_reverse.mpr (List.mem_map.mpr ⟨entry, hentry, rfl⟩)) (beq_self_eq_true _)
  · exact fun h => get?_ofRow_eq_none fun _ hentry => h _ (List.mem_map_of_mem hentry)

/-- A row has values under the keys of its columns. -/
theorem exists_column_of_get? (h : (ofRow row).get? key = some value) :
    ∃ column ∈ row.map Prod.fst, columnKey column = key := by
  by_contra hnone
  rw [get?_ofRow_eq_none_iff.mpr fun column hcolumn hkey => hnone ⟨column, hcolumn, hkey⟩] at h
  cases h

end KeyedValues

namespace Transform

/-! ## One mapping -/

/-- The target comes first, then the bare source. -/
theorem rawValue?_eq : rawValue? values m = (values.get? (columnKey m.target)).or
    ((values.get? (columnKey (bareColumn m.source))).or (values.get? (columnKey m.source))) := by
  unfold rawValue?
  simp only [List.findSome?_cons, List.findSome?_nil]
  cases values.get? (columnKey m.target) with
  | some value => rfl
  | none =>
    cases values.get? (columnKey (bareColumn m.source)) with
    | some value => rfl
    | none => cases values.get? (columnKey m.source) <;> rfl

/-- What a field mapping writes, if it finds a value. -/
def written? (values : KeyedValues) (m : FieldMapping) : Except RowDefect (Option Json) :=
  match rawValue? values m with
  | some raw => (coerce m.type m.target (change m.transform raw)).map some
  | none => .ok none

theorem written?_congr (h : rawValue? values m = rawValue? values' m) :
    written? values m = written? values' m := by
  rw [written?, written?, h]

/-- A field mapping that finds nothing has no value under its target. -/
theorem get?_target_of_rawValue?_eq_none (h : rawValue? values m = none) :
    values.get? (columnKey m.target) = none :=
  List.findSome?_eq_none_iff.mp h m.target List.mem_cons_self

/-- What a field mapping writes stands under its target, and all other keys are left alone. -/
theorem applyMapping_eq_ok (h : applyMapping values m = .ok values') :
    written? values m = .ok (values'.get? (columnKey m.target)) ∧
      ∀ key, columnKey m.target ≠ key → values'.get? key = values.get? key := by
  unfold applyMapping at h
  unfold written?
  cases hraw : rawValue? values m with
  | none =>
    rw [hraw] at h
    cases h
    rw [get?_target_of_rawValue?_eq_none hraw]
    exact ⟨rfl, fun _ _ => rfl⟩
  | some raw =>
    rw [hraw] at h
    obtain ⟨value, hvalue, rfl⟩ := map_eq_ok_iff.mp h
    rw [KeyedValues.get?_set_self]
    exact ⟨map_eq_ok_iff.mpr ⟨value, hvalue, rfl⟩, fun key hkey => KeyedValues.get?_set_of_ne hkey⟩

/-- A field mapping succeeds if what it finds fits its type. -/
theorem exists_applyMapping {value? : Option Json} (h : written? values m = .ok value?) :
    ∃ values', applyMapping values m = .ok values' := by
  unfold written? at h
  unfold applyMapping
  cases hraw : rawValue? values m with
  | none => exact ⟨values, rfl⟩
  | some raw =>
    rw [hraw] at h
    obtain ⟨value, hvalue, -⟩ := map_eq_ok_iff.mp h
    exact ⟨_, map_eq_ok_iff.mpr ⟨value, hvalue, rfl⟩⟩

/-- After a field mapping there is a value under its target just if it found one. -/
theorem isSome_get?_target (h : applyMapping values m = .ok values') :
    (values'.get? (columnKey m.target)).isSome = (rawValue? values m).isSome := by
  have hwritten := (applyMapping_eq_ok h).1
  unfold written? at hwritten
  cases hraw : rawValue? values m with
  | none =>
    rw [hraw] at hwritten
    rw [← Except.ok.inj hwritten]
  | some raw =>
    rw [hraw] at hwritten
    obtain ⟨value, -, hvalue⟩ := map_eq_ok_iff.mp hwritten
    rw [← hvalue, Option.isSome_some, Option.isSome_some]

/-- A field mapping that finds nothing changes nothing. -/
theorem applyMapping_of_rawValue?_eq_none (h : rawValue? values m = none) :
    applyMapping values m = .ok values := by
  rw [applyMapping, h]

/-- A field mapping finds what is there under one of its names. -/
theorem isSome_rawValue? {name : String} (hname : name ∈ [m.target, bareColumn m.source, m.source])
    (h : (values.get? (columnKey name)).isSome = true) : (rawValue? values m).isSome = true :=
  List.findSome?_isSome_iff.mpr ⟨name, hname, h⟩

/-- What a field mapping leaves under a key was there before, or the mapping found it under one of
its names. -/
theorem get?_of_applyMapping (h : applyMapping values m = .ok values')
    (hget : values'.get? key = some value) :
    (∃ before, values.get? key = some before) ∨ columnKey m.target = key ∧
      ∃ name ∈ [m.target, bareColumn m.source, m.source], ∃ raw,
        values.get? (columnKey name) = some raw := by
  by_cases hkey : columnKey m.target = key
  · subst hkey
    have hfound := isSome_get?_target h
    rw [hget, Option.isSome_some, eq_comm, Option.isSome_iff_exists] at hfound
    obtain ⟨raw, hraw⟩ := hfound
    obtain ⟨name, hname, hfound⟩ := List.exists_of_findSome?_eq_some hraw
    exact .inr ⟨rfl, name, hname, raw, hfound⟩
  · rw [(applyMapping_eq_ok h).2 key hkey] at hget
    exact .inl ⟨value, hget⟩

/-- No value is taken away. -/
theorem isSome_get?_applyMapping (h : applyMapping values m = .ok values')
    (hkey : (values.get? key).isSome = true) : (values'.get? key).isSome = true := by
  by_cases htarget : columnKey m.target = key
  · subst htarget
    rw [isSome_get?_target h]
    exact isSome_rawValue? List.mem_cons_self hkey
  · rwa [(applyMapping_eq_ok h).2 key htarget]

/-! ## All mappings of a list -/

/-- Field mappings succeed one after the other. -/
theorem foldlM_concat_eq_ok_iff :
    (fields ++ [m]).foldlM applyMapping values = .ok values' ↔
      ∃ before, fields.foldlM applyMapping values = .ok before ∧
        applyMapping before m = .ok values' := by
  rw [List.foldlM_append, bind_eq_ok_iff]
  simp [List.foldlM_cons, List.foldlM_nil]

theorem get?_foldlM_of_ne (h : fields.foldlM applyMapping values = .ok values')
    (hkey : ∀ m ∈ fields, columnKey m.target ≠ key) : values'.get? key = values.get? key := by
  induction fields generalizing values with
  | nil =>
    cases h
    rfl
  | cons m fields ih =>
    obtain ⟨hm, hfields⟩ := List.forall_mem_cons.mp hkey
    rw [List.foldlM_cons] at h
    obtain ⟨after, hafter, hrest⟩ := bind_eq_ok_iff.mp h
    rw [ih hrest hfields, (applyMapping_eq_ok hafter).2 key hm]

theorem isSome_get?_foldlM (h : fields.foldlM applyMapping values = .ok values')
    (hkey : (values.get? key).isSome = true) : (values'.get? key).isSome = true := by
  induction fields generalizing values with
  | nil =>
    cases h
    exact hkey
  | cons m fields ih =>
    rw [List.foldlM_cons] at h
    obtain ⟨after, hafter, hrest⟩ := bind_eq_ok_iff.mp h
    exact ih hrest (isSome_get?_applyMapping hafter hkey)

/-- Each field mapping finds what the row has, though others were applied before it. -/
def ReadsRow (order : List FieldMapping) (row : Row) : Prop :=
  ∀ before m after values, order = before ++ m :: after →
    before.foldlM applyMapping (.ofRow row) = .ok values →
      rawValue? values m = rawValue? (.ofRow row) m

theorem ReadsRow.init (h : ReadsRow (order ++ [m]) row) : ReadsRow order row := by
  rintro before m' after values rfl
  exact h before m' (after ++ [m]) values (by rw [List.append_assoc, List.cons_append])

theorem ReadsRow.last (h : ReadsRow (order ++ [m]) row)
    (hvalues : order.foldlM applyMapping (.ofRow row) = .ok values) :
    written? values m = written? (.ofRow row) m :=
  written?_congr (h order m [] values rfl hvalues)

/-- The values under the targets are made of what the row has, and the others are the row's. -/
structure MadeOf (row : Row) (fields : List FieldMapping) (values : KeyedValues) : Prop where
  mapped : ∀ m ∈ fields, written? (.ofRow row) m = .ok (values.get? (columnKey m.target))
  kept : ∀ key, (∀ m ∈ fields, columnKey m.target ≠ key) →
    values.get? key = (KeyedValues.ofRow row).get? key

theorem MadeOf.perm (h : MadeOf row fields values) (hperm : order.Perm fields) :
    MadeOf row order values :=
  ⟨fun m hm => h.mapped m (hperm.mem_iff.mp hm),
    fun key hkey => h.kept key fun m hm => hkey m (hperm.mem_iff.mpr hm)⟩

/-- What is made of a row is determined. -/
theorem MadeOf.get?_eq (h : MadeOf row fields values) (h' : MadeOf row fields values')
    (key : String) : values.get? key = values'.get? key := by
  by_cases hkey : ∃ m ∈ fields, columnKey m.target = key
  · obtain ⟨m, hm, rfl⟩ := hkey
    exact Except.ok.inj ((h.mapped m hm).symm.trans (h'.mapped m hm))
  · have hkey : ∀ m ∈ fields, columnKey m.target ≠ key := fun m hm heq => hkey ⟨m, hm, heq⟩
    rw [h.kept key hkey, h'.kept key hkey]

/-- Field mappings that find what the row has leave behind what is made of it. -/
theorem ReadsRow.madeOf (h : ReadsRow order row)
    (hdistinct : (order.map fun m => columnKey m.target).Nodup)
    (hvalues : order.foldlM applyMapping (.ofRow row) = .ok values) : MadeOf row order values := by
  induction order using List.reverseRecOn generalizing values with
  | nil =>
    cases hvalues
    exact ⟨List.forall_mem_nil _, fun _ _ => rfl⟩
  | append_singleton order m ih =>
    obtain ⟨before, hbefore, hlast⟩ := foldlM_concat_eq_ok_iff.mp hvalues
    rw [List.map_append, List.nodup_append] at hdistinct
    obtain ⟨horder, -, hne⟩ := hdistinct
    have hmade := ih h.init horder hbefore
    obtain ⟨hwritten, hkept⟩ := applyMapping_eq_ok hlast
    refine ⟨fun m' hm' => ?_, fun key hkey => ?_⟩
    · rcases List.mem_append.mp hm' with hm' | hm'
      · have hother := hne _ (List.mem_map_of_mem hm') _ List.mem_cons_self
        rw [hkept _ hother.symm, hmade.mapped m' hm']
      · cases List.mem_singleton.mp hm'
        rw [← h.last hbefore, hwritten]
    · rw [hkept key (hkey m (List.mem_append_right order List.mem_cons_self)),
        hmade.kept key fun m' hm' => hkey m' (List.mem_append_left [m] hm')]

/-- Field mappings that find what the row has succeed if each of them does by itself. -/
theorem ReadsRow.exists_values (h : ReadsRow order row)
    (hwritten : ∀ m ∈ order, ∃ value?, written? (.ofRow row) m = .ok value?) :
    ∃ values, order.foldlM applyMapping (.ofRow row) = .ok values := by
  induction order using List.reverseRecOn with
  | nil => exact ⟨_, rfl⟩
  | append_singleton order m ih =>
    obtain ⟨before, hbefore⟩ := ih h.init fun m' hm' => hwritten m' (List.mem_append_left [m] hm')
    obtain ⟨value?, hvalue⟩ := hwritten m (List.mem_append_right order List.mem_cons_self)
    rw [← h.last hbefore] at hvalue
    obtain ⟨values, hvalues⟩ := exists_applyMapping hvalue
    exact ⟨values, foldlM_concat_eq_ok_iff.mpr ⟨before, hbefore, hvalues⟩⟩

/-! ## Records -/

/-- The fields of a record are found by their keys. -/
theorem text?_congr (h : ∀ key, values.get? key = values'.get? key) :
    text? values = text? values' := by
  funext f
  unfold text?
  simp only [h]

theorem number?_congr (h : ∀ key, values.get? key = values'.get? key) :
    number? values = number? values' := by
  funext f
  unfold number?
  rw [text?_congr h]

/-- If the field mappings find what the row has in two orders, both give one record. -/
theorem ReadsRow.ofRow_perm {record? : Option ItemRecord} (horder : ReadsRow order row)
    (hfields : ReadsRow fields row) (hperm : order.Perm fields)
    (hdistinct : (fields.map fun m => columnKey m.target).Nodup)
    (h : ofRow order row = .ok record?) : ofRow fields row = .ok record? := by
  obtain ⟨values, hvalues, hrecord⟩ := bind_eq_ok_iff.mp h
  have hmade := (horder.madeOf ((hperm.map _).nodup_iff.mpr hdistinct) hvalues).perm hperm.symm
  obtain ⟨values', hvalues'⟩ := hfields.exists_values fun m hm => ⟨_, hmade.mapped m hm⟩
  have hsame := hmade.get?_eq (hfields.madeOf hdistinct hvalues')
  rw [text?_congr hsame, number?_congr hsame] at hrecord
  exact bind_eq_ok_iff.mpr ⟨values', hvalues', hrecord⟩

end Transform
end Recount
