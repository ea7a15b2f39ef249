import Recount.Proofs.Load.Applying

/-!
# The order of field mappings

Field mappings are meant to say which column of a row becomes which field of an item. They are
applied one after the other to the same values, though, and one whose source has the key of
another's target takes what that one wrote, if it comes later. Where no mapping is chained to
another one like this, each takes what the row has, and their order makes no difference.
-/

namespace Recount.Transform

variable {columns : List String} {fields fields' order played : List FieldMapping}
  {m : FieldMapping} {row : Row} {values values' : KeyedValues} {key : String} {value : Json}

/-! ## Keys that get a value -/

/-- A key that has a value in a row with these columns after these field mappings, in some order. -/
inductive Fed (columns : List String) (fields : List FieldMapping) : String → Prop
  | column {column} (hcolumn : column ∈ columns) : Fed columns fields (columnKey column)
  | target {m name} (hm : m ∈ fields) (hname : name ∈ [bareColumn m.source, m.source])
    (h : Fed columns fields (columnKey name)) : Fed columns fields (columnKey m.target)

theorem Fed.mono (h : Fed columns fields key) (hsub : fields ⊆ fields') :
    Fed columns fields' key := by
  induction h with
  | column hcolumn => exact .column hcolumn
  | target hm hname _ ih => exact .target (hsub hm) hname ih

/-- Whatever has a value after some field mappings is fed by them. -/
theorem fed_of_get? (h : fields.foldlM applyMapping (.ofRow row) = .ok values)
    (hget : values.get? key = some value) : Fed (row.map Prod.fst) fields key := by
  induction fields using List.reverseRecOn generalizing values key value with
  | nil =>
    cases h
    obtain ⟨column, hcolumn, rfl⟩ := KeyedValues.exists_column_of_get? hget
    exact .column hcolumn
  | append_singleton fields m ih =>
    obtain ⟨before, hbefore, hlast⟩ := foldlM_concat_eq_ok_iff.mp h
    have hfed : ∀ {key value}, before.get? key = some value →
        Fed (row.map Prod.fst) (fields ++ [m]) key := fun hget =>
      (ih hbefore hget).mono (List.subset_append_left fields [m])
    rcases get?_of_applyMapping hlast hget with ⟨value', hvalue'⟩ | ⟨rfl, name, hname, raw, hraw⟩
    · exact hfed hvalue'
    · rcases List.mem_cons.mp hname with rfl | hname
      · exact hfed hraw
      · exact .target (List.mem_append_right fields List.mem_cons_self) hname (hfed hraw)

/-- A field mapping may read a value under a key besides that of its target: the row has none for
the target, and the key is that of the bare source, or of the whole source if no column has the bare
one. -/
structure Reads (columns : List String) (m : FieldMapping) (key : String) : Prop where
  unheld : ∀ column ∈ columns, columnKey column ≠ columnKey m.target
  source : key = columnKey (bareColumn m.source) ∨ key = columnKey m.source ∧
    ∀ column ∈ columns, columnKey column ≠ columnKey (bareColumn m.source)

instance (columns : List String) (m : FieldMapping) (key : String) :
    Decidable (Reads columns m key) :=
  decidable_of_iff ((∀ column ∈ columns, columnKey column ≠ columnKey m.target) ∧
    (key = columnKey (bareColumn m.source) ∨ key = columnKey m.source ∧
      ∀ column ∈ columns, columnKey column ≠ columnKey (bareColumn m.source)))
    ⟨fun h => ⟨h.1, h.2⟩, fun h => ⟨h.unheld, h.source⟩⟩

/-- A field mapping reads where another one writes. -/
def Chained (columns : List String) (fields : List FieldMapping) (m : FieldMapping) : Prop :=
  ∃ other ∈ fields, other ≠ m ∧ Reads columns m (columnKey other.target) ∧
    Fed columns (fields.erase m) (columnKey other.target)

/-! ## Rows of blanks

In a row of blanks every field mapping succeeds, and what it writes is no blank. -/

/-- A row with a blank in each column. -/
def blankRow (columns : List String) : Row := columns.map fun column => (column, .str " ")

theorem blankRow_map_fst : (blankRow columns).map Prod.fst = columns := by
  rw [blankRow, List.map_map]
  exact List.map_id columns

/-- A blank or nothing. -/
def IsVoid (value : Json) : Prop := value = .str " " ∨ value = .null

theorem coerce_of_isVoid (h : IsVoid value) :
    coerce m.type m.target (change m.transform value) = .ok .null := by
  have htext : textOf? (change m.transform value) = none := by
    rcases h with rfl | rfl
    · cases m.transform with
      | none => decide
      | some transform => cases transform <;> decide
    · cases m.transform with
      | none => decide
      | some transform => cases transform <;> decide
  rw [coerce, htext]

theorem isVoid_get?_blankRow (h : (KeyedValues.ofRow (blankRow columns)).get? key = some value) :
    value = .str " " := by
  unfold KeyedValues.get? at h
  rw [KeyedValues.ofRow_eq_reverse] at h
  obtain ⟨entry, hentry, rfl⟩ := Option.map_eq_some_iff.mp h
  have hmem := List.mem_of_find?_eq_some hentry
  rw [List.mem_reverse, blankRow, List.map_map, List.mem_map] at hmem
  obtain ⟨column, -, rfl⟩ := hmem
  rfl

/-- Values that were blanks before some field mappings were applied. -/
structure Blank (played : List FieldMapping) (values : KeyedValues) : Prop where
  void : ∀ key value, values.get? key = some value → IsVoid value
  written : ∀ m ∈ played, ∀ value, values.get? (columnKey m.target) = some value → value = .null

theorem Blank.applyMapping (h : Blank played values) :
    ∃ values', applyMapping values m = .ok values' ∧ Blank (played ++ [m]) values' := by
  cases hraw : rawValue? values m with
  | none =>
    refine ⟨values, applyMapping_of_rawValue?_eq_none hraw, h.void, fun m' hm' value hvalue => ?_⟩
    rcases List.mem_append.mp hm' with hm' | hm'
    · exact h.written m' hm' value hvalue
    · cases List.mem_singleton.mp hm'
      rw [get?_target_of_rawValue?_eq_none hraw] at hvalue
      cases hvalue
  | some raw =>
    obtain ⟨name, -, hname⟩ := List.exists_of_findSome?_eq_some hraw
    have hcoerce := coerce_of_isVoid (m := m) (h.void _ _ hname)
    refine ⟨values.set (columnKey m.target) .null, ?_, fun key value hvalue => ?_,
      fun m' hm' value hvalue => ?_⟩
    · rw [Transform.applyMapping, hraw]
      exact map_eq_ok_iff.mpr ⟨.null, hcoerce, rfl⟩
    · by_cases hkey : columnKey m.target = key
      · rw [hkey, KeyedValues.get?_set_self] at hvalue
        cases hvalue
        exact .inr rfl
      · rw [KeyedValues.get?_set_of_ne hkey] at hvalue
        exact h.void key value hvalue
    · by_cases hkey : columnKey m.target = columnKey m'.target
      · rw [hkey, KeyedValues.get?_set_self] at hvalue
        cases hvalue
        rfl
      · rw [KeyedValues.get?_set_of_ne hkey] at hvalue
        rcases List.mem_append.mp hm' with hm' | hm'
        · exact h.written m' hm' value hvalue
        · cases List.mem_singleton.mp hm'
          exact absurd rfl hkey

/-- Field mappings of a row of blanks succeed. -/
theorem exists_blank (columns : List String) (order : List FieldMapping) :
    ∃ values, order.foldlM applyMapping (.ofRow (blankRow columns)) = .ok values ∧
      Blank order values := by
  induction order using List.reverseRecOn with
  | nil =>
    exact ⟨_, rfl, fun _ _ hvalue => .inl (isVoid_get?_blankRow hvalue), List.forall_mem_nil _⟩
  | append_singleton order m ih =>
    obtain ⟨before, hbefore, hblank⟩ := ih
    obtain ⟨values, hvalues, hblank⟩ := hblank.applyMapping (m := m)
    exact ⟨values, foldlM_concat_eq_ok_iff.mpr ⟨before, hbefore, hvalues⟩, hblank⟩

/-- A key that is fed has a value after the field mappings in some order. -/
theorem Fed.exists_order (h : Fed columns fields key) :
    ∃ (order : List FieldMapping) (values : KeyedValues), order.Perm fields ∧
    order.foldlM applyMapping (.ofRow (blankRow columns)) = .ok values ∧
      (values.get? key).isSome = true := by
  induction h with
  | column hcolumn =>
    obtain ⟨values, hvalues, -⟩ := exists_blank columns fields
    refine ⟨fields, values, .refl fields, hvalues, isSome_get?_foldlM hvalues ?_⟩
    rw [Option.isSome_iff_ne_none, Ne, KeyedValues.get?_ofRow_eq_none_iff, blankRow_map_fst]
    exact fun hall => hall _ hcolumn rfl
  | @target m name hm hname _ ih =>
    obtain ⟨order, values, hperm, hvalues, hkey⟩ := ih
    by_cases htarget : (values.get? (columnKey m.target)).isSome = true
    · exact ⟨order, values, hperm, hvalues, htarget⟩
    · -- The mapping has found nothing where it stands, so it may as well come last.
      obtain ⟨before, after, rfl⟩ := List.append_of_mem (hperm.mem_iff.mpr hm)
      rw [List.foldlM_append] at hvalues
      obtain ⟨values₁, hbefore, hvalues⟩ := bind_eq_ok_iff.mp hvalues
      rw [List.foldlM_cons] at hvalues
      obtain ⟨values₂, hm, hafter⟩ := bind_eq_ok_iff.mp hvalues
      have hnone : rawValue? values₁ m = none := by
        rw [← Option.not_isSome_iff_eq_none, ← isSome_get?_target hm]
        exact mt (isSome_get?_foldlM hafter) htarget
      rw [applyMapping_of_rawValue?_eq_none hnone] at hm
      cases hm
      have hinit : (before ++ after).foldlM applyMapping (.ofRow (blankRow columns)) =
          .ok values := by
        rw [List.foldlM_append]
        exact bind_eq_ok_iff.mpr ⟨values₁, hbefore, hafter⟩
      obtain ⟨values₃, hall, -⟩ := exists_blank columns (before ++ after ++ [m])
      obtain ⟨values', hvalues', hlast⟩ := foldlM_concat_eq_ok_iff.mp hall
      cases hinit.symm.trans hvalues'
      refine ⟨before ++ after ++ [m], values₃, ?_, hall, ?_⟩
      · have hmoved := (List.perm_append_singleton m (before ++ after)).trans List.perm_middle.symm
        exact hmoved.trans hperm
      · rw [isSome_get?_target hlast]
        exact isSome_rawValue? (List.mem_cons_of_mem _ hname) hkey

/-! ## What is chained -/

/-- The targets of other field mappings have other keys. -/
theorem target_ne_of_mem_erase {other : FieldMapping}
    (hdistinct : (fields.map fun m => columnKey m.target).Nodup) (hm : m ∈ fields)
    (hother : other ∈ fields.erase m) : columnKey other.target ≠ columnKey m.target := by
  have hperm := (List.perm_cons_erase hm).map fun m => columnKey m.target
  rw [hperm.nodup_iff, List.map_cons, List.nodup_cons, List.mem_map] at hdistinct
  exact fun heq => hdistinct.1 ⟨other, hother, heq⟩

/-- A chained field mapping finds what another one wrote, in some order of the others before it. -/
theorem Chained.exists_order (hdistinct : (fields.map fun m => columnKey m.target).Nodup)
    (hm : m ∈ fields) (h : Chained columns fields m) :
    ∃ order, (order ++ [m]).Perm fields ∧ ¬ ReadsRow (order ++ [m]) (blankRow columns) := by
  obtain ⟨other, hother, hne, ⟨hcolumn, hreads⟩, hfed⟩ := h
  obtain ⟨order, values, hperm, hvalues, hsome⟩ := hfed.exists_order
  have hplayed : other ∈ order := hperm.mem_iff.mpr ((List.mem_erase_of_ne hne).mpr hother)
  obtain ⟨values', hvalues', hblank⟩ := exists_blank columns order
  cases hvalues.symm.trans hvalues'
  have hwritten : ∀ key, (∀ column ∈ columns, columnKey column ≠ key) →
      ∀ value, values.get? key = some value → value = .null := by
    intro key hkey value hvalue
    by_cases hm : ∃ m ∈ order, columnKey m.target = key
    · obtain ⟨m, hm, rfl⟩ := hm
      exact hblank.written m hm value hvalue
    · rw [get?_foldlM_of_ne hvalues fun m hm' heq => hm ⟨m, hm', heq⟩,
        KeyedValues.get?_ofRow_eq_none_iff.mpr (by rwa [blankRow_map_fst])] at hvalue
      cases hvalue
  have htarget : values.get? (columnKey m.target) = none := by
    rw [get?_foldlM_of_ne hvalues fun m' hm' =>
      target_ne_of_mem_erase hdistinct hm (hperm.mem_iff.mp hm')]
    exact KeyedValues.get?_ofRow_eq_none_iff.mpr (by rwa [blankRow_map_fst])
  obtain ⟨value, hvalue⟩ := Option.isSome_iff_exists.mp hsome
  cases hblank.written other hplayed value hvalue
  -- What it finds was written: in the row there are only blanks.
  have hraw : rawValue? values m = some .null := by
    rw [rawValue?_eq, htarget, Option.none_or]
    rcases hreads with hbare | ⟨hwhole, hbare⟩
    · rw [← hbare, hvalue, Option.some_or]
    · cases hfound : values.get? (columnKey (bareColumn m.source)) with
      | some value => rw [hwritten _ hbare value hfound, Option.some_or]
      | none => rw [← hwhole, hvalue, Option.none_or]
  refine ⟨order, ((List.perm_append_singleton m order).trans (hperm.cons m)).trans
    (List.perm_cons_erase hm).symm, fun hreadsRow => ?_⟩
  have hrow := hreadsRow order m [] values rfl hvalues
  rw [hraw] at hrow
  obtain ⟨name, -, hname⟩ := List.exists_of_findSome?_eq_some hrow.symm
  cases isVoid_get?_blankRow hname

/-- Field mappings that are not chained find what the row has in every order. -/
theorem readsRow_of_not_chained (hdistinct : (fields.map fun m => columnKey m.target).Nodup)
    (hnone : ∀ m ∈ fields, ¬ Chained (row.map Prod.fst) fields m) (hperm : order.Perm fields) :
    ReadsRow order row := by
  rintro before m after values rfl hvalues
  have hm : m ∈ fields := hperm.mem_iff.mp List.mem_append_cons_self
  have hsub : before ⊆ fields.erase m := by
    have hothers := (List.perm_cons_erase hm).symm.trans hperm.symm
    have hrest : (before ++ after).Perm (fields.erase m) :=
      (List.Perm.cons_inv (hothers.trans List.perm_middle)).symm
    exact fun m' hm' => hrest.mem_iff.mp (List.mem_append_left after hm')
  have htarget : values.get? (columnKey m.target) =
      (KeyedValues.ofRow row).get? (columnKey m.target) :=
    get?_foldlM_of_ne hvalues fun m' hm' => target_ne_of_mem_erase hdistinct hm (hsub hm')
  -- A value where it reads would come from a mapping that it is chained to.
  have hkept : ∀ key, Reads (row.map Prod.fst) m key →
      values.get? key = (KeyedValues.ofRow row).get? key := by
    intro key hreads
    by_cases hother : ∃ other ∈ before, columnKey other.target = key
    · obtain ⟨other, hother, rfl⟩ := hother
      cases hvalue : values.get? (columnKey other.target) with
      | some value =>
        refine absurd ⟨other, List.mem_of_mem_erase (hsub hother), ?_, hreads,
          (fed_of_get? hvalues hvalue).mono hsub⟩ (hnone m hm)
        rintro rfl
        exact target_ne_of_mem_erase hdistinct hm (hsub hother) rfl
      | none =>
        rw [eq_comm, ← Option.not_isSome_iff_eq_none]
        intro hsome
        have hstill := isSome_get?_foldlM hvalues hsome
        rw [hvalue] at hstill
        cases hstill
    · exact get?_foldlM_of_ne hvalues fun other hmem heq => hother ⟨other, hmem, heq⟩
  rw [rawValue?_eq, rawValue?_eq, htarget]
  cases hrow : (KeyedValues.ofRow row).get? (columnKey m.target) with
  | some value => rfl
  | none =>
    have hunheld := KeyedValues.get?_ofRow_eq_none_iff.mp hrow
    rw [hkept _ ⟨hunheld, .inl rfl⟩]
    cases hbare : (KeyedValues.ofRow row).get? (columnKey (bareColumn m.source)) with
    | some value => rfl
    | none => rw [hkept _ ⟨hunheld, .inr ⟨rfl, KeyedValues.get?_ofRow_eq_none_iff.mp hbare⟩⟩]

/-! ## Order -/

/-- For rows with given columns, the field mappings find what the row has in every order just if
none of them is chained. Then the order makes no difference to the record. -/
theorem reads_row_iff (columns : List String) (fields : List FieldMapping)
    (hdistinct : (fields.map fun m => columnKey m.target).Nodup) :
    ((∀ row : Row, row.map Prod.fst = columns → ∀ order, order.Perm fields → ReadsRow order row) ↔
      ∀ m ∈ fields, ¬ Chained columns fields m) ∧
    ((∀ m ∈ fields, ¬ Chained columns fields m) → ∀ row : Row, row.map Prod.fst = columns →
      ∀ order, order.Perm fields → ∀ record?, ofRow order row = .ok record? ↔
        ofRow fields row = .ok record?) := by
  have hreads : (∀ m ∈ fields, ¬ Chained columns fields m) → ∀ row : Row,
      row.map Prod.fst = columns → ∀ order, order.Perm fields → ReadsRow order row := by
    rintro hnone row rfl order hperm
    exact readsRow_of_not_chained hdistinct hnone hperm
  refine ⟨⟨fun hall m hm hchained => ?_, hreads⟩, fun hnone row hrow order hperm record? => ?_⟩
  · obtain ⟨order, hperm, hnot⟩ := hchained.exists_order hdistinct hm
    exact hnot (hall _ blankRow_map_fst _ hperm)
  · have horder := hreads hnone row hrow order hperm
    have hfields := hreads hnone row hrow fields (.refl fields)
    exact ⟨horder.ofRow_perm hfields hperm hdistinct,
      hfields.ofRow_perm horder hperm.symm ((hperm.map _).nodup_iff.mpr hdistinct)⟩

/-- Fields of an item and of its stock. -/
def stockFields : List FieldMapping :=
  [⟨"OITM.ItemCode", "itemCode", .string, none⟩, ⟨"OITW.OnHand", "systemQty", .decimal, none⟩]

theorem reads_row_iff_stockFields :
    (stockFields.map fun m => columnKey m.target).Nodup ∧
      (∀ m ∈ stockFields, ¬ Chained ["ItemCode", "OnHand"] stockFields m) ∧
      (∀ row : Row, row.map Prod.fst = ["ItemCode", "OnHand"] → ∀ order, order.Perm stockFields →
        ReadsRow order row) ∧
      ∀ row : Row, row.map Prod.fst = ["ItemCode", "OnHand"] → ∀ record?,
        ofRow stockFields.reverse row = .ok record? ↔ ofRow stockFields row = .ok record? := by
  have hdistinct : (stockFields.map fun m => columnKey m.target).Nodup := by decide +kernel
  have hunread : ∀ m ∈ stockFields, ∀ other ∈ stockFields, other ≠ m →
      ¬ Reads ["ItemCode", "OnHand"] m (columnKey other.target) := by decide +kernel
  have hnone : ∀ m ∈ stockFields, ¬ Chained ["ItemCode", "OnHand"] stockFields m :=
    fun m hm ⟨other, hother, hne, hreads, _⟩ => hunread m hm other hother hne hreads
  obtain ⟨hreads, hrecord⟩ := reads_row_iff ["ItemCode", "OnHand"] stockFields hdistinct
  exact ⟨hdistinct, hnone, hreads.mpr hnone,
    fun row hrow => hrecord hnone row hrow _ (List.reverse_perm stockFields)⟩

/-- The vendor becomes the brand, and the brand becomes the category. -/
def vendorFields : List FieldMapping :=
  [⟨"Vendor", "Brand", .string, none⟩, ⟨"Brand", "Category", .string, none⟩]

/-- A row may give another record if the order of the field mappings is changed. -/
theorem not_declarative :
    ¬ ∀ (fields order : List FieldMapping) (row : Row),
      (fields.map fun m => columnKey m.target).Nodup → order.Perm fields →
        ∀ record? record?', ofRow fields row = .ok record? → ofRow order row = .ok record?' →
          record? = record?' := by
  intro hall
  have hsame := hall vendorFields vendorFields.reverse
    [("Vendor", .str "ACME"), ("itemCode", .str "A")] (by decide +kernel)
    (List.reverse_perm vendorFields) _ _ rfl rfl
  exact absurd hsame (by decide +kernel)

end Recount.Transform
