import Mathlib.Data.List.Lattice
import Mathlib.Data.List.Nodup
import Mathlib.Data.List.Pairwise
import Mathlib.Tactic.ByContra
import Recount.File.Table
import Recount.Load.Transform

/-!
# Fields are found under their columns

A row holds each cell once, under the header of its column, in whatever order. Where the keys of
the headers differ, a field is read from the only column that has one of its spellings, and a field
that no column has a spelling of is not there.
-/

namespace Recount

variable {row : Row} {column key : String} {value : Json} {f : ItemField}

namespace Json

variable {members : List (String × Json)}

/-- A member with a new key is put in somewhere. -/
theorem insertMember_perm (value : Json) (hnew : key ∉ members.map Prod.fst) :
    (insertMember key value members).Perm ((key, value) :: members) := by
  induction members with
  | nil => exact .refl _
  | cons member members ih =>
    obtain ⟨k, v⟩ := member
    rw [List.map_cons, List.mem_cons, not_or] at hnew
    rw [insertMember, if_neg hnew.1]
    split
    · exact .refl _
    · exact ((ih hnew.2).cons (k, v)).trans (.swap _ _ _)

/-- An object of members with different keys has these members. -/
theorem ofMembers_perm (hkeys : (members.map Prod.fst).Nodup) :
    ∃ sorted, ofMembers members = .obj sorted ∧ sorted.Perm members := by
  refine ⟨_, rfl, ?_⟩
  have hinto : ∀ start : List (String × Json), (start.map Prod.fst ++ members.map Prod.fst).Nodup →
      (members.foldl (fun sorted member => insertMember member.1 member.2 sorted) start).Perm
        (start ++ members) := by
    clear hkeys
    induction members with
    | nil =>
      intro start _
      rw [List.append_nil]
      exact .refl _
    | cons member members ih =>
      intro start hkeys
      obtain ⟨k, v⟩ := member
      rw [List.map_cons] at hkeys
      have hkeys' := List.perm_middle.nodup_iff.mp hkeys
      have hnew : k ∉ start.map Prod.fst := fun h =>
        (List.nodup_cons.mp hkeys').1 (List.mem_append_left _ h)
      have hperm := insertMember_perm v hnew
      have hnext : ((insertMember k v start).map Prod.fst ++ members.map Prod.fst).Nodup :=
        ((hperm.map Prod.fst).append_right _).nodup_iff.mpr hkeys'
      exact (ih _ hnext).trans ((hperm.append_right members).trans List.perm_middle.symm)
  exact hinto [] hkeys

end Json

/-- A row holds the cells under their headers. -/
theorem File.rowOf_perm {headers cells : List String} (hheaders : headers.Nodup)
    (hlength : headers.length ≤ cells.length) (hnamed : ∀ header ∈ headers, header.isEmpty = false) :
    (File.rowOf headers cells).Perm
      ((headers.zip cells).map fun (header, cell) => (header, .str cell)) := by
  have hall : ((headers.zip cells).filter fun (header, _) => !header.isEmpty) =
      headers.zip cells :=
    List.filter_eq_self.mpr fun entry h => by
      simpa using hnamed entry.1 (List.of_mem_zip h).1
  have hkeys : (((headers.zip cells).map fun (header, cell) => (header, Json.str cell)).map
      Prod.fst).Nodup := by
    rw [List.map_map]
    change ((headers.zip cells).map Prod.fst).Nodup
    rwa [List.map_fst_zip hlength]
  obtain ⟨sorted, hsorted, hperm⟩ := Json.ofMembers_perm hkeys
  unfold File.rowOf
  dsimp only
  rw [hall, hsorted]
  exact hperm

namespace ItemField

/-- No spelling is that of two fields. -/
theorem nodup_spellings : (all.flatMap spellings).Nodup := by decide

theorem mem_all (f : ItemField) : f ∈ all := by
  cases f <;> decide

/-- A column holds the field that its key is a spelling of. -/
theorem ofColumn?_eq_some_iff : ofColumn? column = some f ↔ columnKey column ∈ f.spellings := by
  have hholds : ∀ {g : ItemField}, ofColumn? column = some g → columnKey column ∈ g.spellings := by
    intro g h
    unfold ofColumn? at h
    have hcontains := List.find?_some h
    exact List.contains_iff_mem.mp hcontains
  refine ⟨hholds, fun h => ?_⟩
  obtain ⟨g, hg⟩ : ∃ g, ofColumn? column = some g :=
    Option.isSome_iff_exists.mp
      (List.find?_isSome.mpr ⟨f, mem_all f, List.contains_iff_mem.mpr h⟩)
  suffices hfg : f = g by rw [hg, hfg]
  by_contra hne
  have hpairs := (List.nodup_flatMap.mp nodup_spellings).2
  have : Std.Symm (Function.onFun List.Disjoint spellings) := ⟨fun _ _ h => List.Disjoint.symm h⟩
  exact hpairs.forall (mem_all f) (mem_all g) hne h (hholds hg)

/-- A field is held by the column of its own name. -/
theorem ofColumn?_title (f : ItemField) : ofColumn? f.title = some f := by
  rw [ofColumn?_eq_some_iff]
  cases f <;> decide

end ItemField

namespace KeyedValues

/-- The last column comes first. -/
theorem ofRow_eq_reverse :
    ofRow row = (row.map fun (column, value) => (columnKey column, value)).reverse := by
  have hinto : ∀ start : KeyedValues,
      row.foldl (fun values (column, value) => values.set (columnKey column) value) start =
        (row.map fun (column, value) => (columnKey column, value)).reverse ++ start := by
    induction row with
    | nil => exact fun start => rfl
    | cons entry row ih =>
      intro start
      rw [List.foldl_cons, ih, List.map_cons, List.reverse_cons, List.append_assoc]
      rfl
  exact (hinto []).trans (List.append_nil _)

/-- A value is found under the key of its column. -/
theorem get?_ofRow_of_mem (hkeys : (row.map fun entry => columnKey entry.1).Nodup)
    (hmem : (column, value) ∈ row) : (ofRow row).get? (columnKey column) = some value := by
  unfold get?
  rw [ofRow_eq_reverse, Option.map_eq_some_iff]
  refine ⟨(columnKey column, value), ?_, rfl⟩
  obtain ⟨before, after, rfl⟩ := List.append_of_mem hmem
  rw [List.map_append, List.map_cons, List.nodup_append] at hkeys
  rw [List.map_append, List.map_cons, List.reverse_append, List.reverse_cons, List.append_assoc,
    List.find?_append, List.find?_eq_none.mpr, Option.none_or, List.singleton_append]
  · exact List.find?_cons_of_pos (beq_self_eq_true _)
  · intro entry hentry heq
    rw [List.mem_reverse, List.mem_map] at hentry
    obtain ⟨other, hother, rfl⟩ := hentry
    exact (List.nodup_cons.mp hkeys.2.1).1 (List.mem_map.mpr ⟨other, hother, beq_iff_eq.mp heq⟩)

/-- Nothing is found under a key that no column has. -/
theorem get?_ofRow_eq_none (h : ∀ entry ∈ row, columnKey entry.1 ≠ key) :
    (ofRow row).get? key = none := by
  unfold get?
  rw [ofRow_eq_reverse, Option.map_eq_none_iff, List.find?_eq_none]
  intro entry hentry
  rw [List.mem_reverse, List.mem_map] at hentry
  obtain ⟨other, hother, rfl⟩ := hentry
  simpa using h other hother

end KeyedValues

namespace Transform

/-- A field is read from the only column that has one of its spellings. -/
theorem text?_ofRow_of_mem (hkeys : (row.map fun entry => columnKey entry.1).Nodup)
    (hmem : (column, value) ∈ row) (hcolumn : ItemField.ofColumn? column = some f)
    (honly : ∀ entry ∈ row, ItemField.ofColumn? entry.1 = some f → entry.1 = column) :
    text? (.ofRow row) f = textOf? value := by
  rw [ItemField.ofColumn?_eq_some_iff] at hcolumn
  simp only [ItemField.ofColumn?_eq_some_iff] at honly
  have hget : ∀ key ∈ f.spellings, ((KeyedValues.ofRow row).get? key).bind textOf? =
      if key = columnKey column then textOf? value else none := by
    intro key hkey
    split
    · next h =>
      rw [h, KeyedValues.get?_ofRow_of_mem hkeys hmem]
      rfl
    · next h =>
      rw [KeyedValues.get?_ofRow_eq_none]
      · rfl
      · rintro entry hentry rfl
        exact h (congrArg columnKey (honly entry hentry hkey))
  unfold text?
  cases htext : textOf? value with
  | none =>
    refine List.findSome?_eq_none_iff.mpr fun key hkey => ?_
    rw [hget key hkey, htext, ite_self]
  | some text =>
    obtain ⟨before, after, hsplit, hbefore⟩ := List.eq_append_cons_of_mem hcolumn
    refine List.findSome?_eq_some_iff.mpr ⟨before, columnKey column, after, hsplit, ?_, ?_⟩
    · rw [hget _ hcolumn, if_pos rfl, htext]
    · intro key hkey
      have hne : key ≠ columnKey column := fun h => hbefore (h ▸ hkey)
      rw [hget key (hsplit ▸ List.mem_append_left _ hkey), if_neg hne]

/-- A field is not there if no column has one of its spellings. -/
theorem text?_ofRow_eq_none (h : ∀ entry ∈ row, ItemField.ofColumn? entry.1 ≠ some f) :
    text? (.ofRow row) f = none := by
  simp only [ne_eq, ItemField.ofColumn?_eq_some_iff] at h
  refine List.findSome?_eq_none_iff.mpr fun key hkey => ?_
  rw [KeyedValues.get?_ofRow_eq_none]
  · rfl
  · rintro entry hentry rfl
    exact h entry hentry hkey

end Transform
end Recount
