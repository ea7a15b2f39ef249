import Recount.Load.Field
import Recount.Proofs.Sql.Resolving
import Recount.Proofs.Text.Trim

/-!
# Where columns are read

A reference of a statement stands for a column of one of its tables. Its qualifier is the alias of
that table, in any case, and without one the column is one of the main table. A reference that is
rewritten keeps its column, but it is read where its qualifier leads, which need not be the main
table.
-/

namespace Recount.Sql

open Aliases (Names firstNamed? exists_of_firstNamed?_eq_some firstNamed?_eq_none_iff)
open Text (asciiLower eqIgnoringAsciiCase)
open List (Forall₂)

/-- The table with an alias, in any case. -/
def aliased? (tables : List (String × String)) (name : String) : Option String :=
  (tables.find? fun t => asciiLower t.2 = asciiLower name).map (·.1)

namespace Select

/-- The table and the column that a reference stands for. -/
def columnOf? (s : Select) (reference : String) : Option (String × String) :=
  match (segments reference).map String.ofList with
  | [column] => some (s.table, column)
  | [name, column] => (aliased? s.tables name).map fun table => (table, column)
  | _ => none

/-- The column that is answered under a name, in any case. -/
def output? (s : Select) (name : String) : Option OutputColumn :=
  s.columns.find? fun o => o.alias?.any (eqIgnoringAsciiCase · name)

/-- Where the column that is answered under a name is read. -/
def answered? (s : Select) (name : String) : Option (String × String) :=
  (s.output? name).bind fun o => s.columnOf? o.reference

/-- A reference as it is declared is read in the main table: it has no qualifier, or one that names
the main table. Where the qualifier names no table, or is not looked up because of a digit, it has to
be an alias of that table. -/
def ReadsMain (s : Select) (reference : String) : Prop :=
  ∀ qualifier column, reference = qualifier ++ "." ++ column → '.' ∉ column.toList →
    if Plain reference ∧ ∃ t ∈ s.tables, Names qualifier t.1 then Names qualifier s.table
    else ∃ t ∈ s.tables, t.1 = s.table ∧ asciiLower t.2 = asciiLower qualifier

end Select

section Parts

variable {reference qualifier column name table : String}

theorem bareColumn_of_dot_not_mem (h : '.' ∉ reference.toList) :
    bareColumn reference = reference := by
  unfold bareColumn
  rw [Text.splitChars_of_not_mem h]
  exact String.ofList_toList

theorem bareColumn_qualified (h : '.' ∉ column.toList) :
    bareColumn (qualifier ++ "." ++ column) = column := by
  have hsegments :
      segments (qualifier ++ "." ++ column) = segments qualifier ++ [column.toList] := by
    rw [segments_append, segments_of_dot_not_mem h]
  unfold bareColumn
  rw [← segments, hsegments, List.getLast?_concat]
  exact String.ofList_toList

/-- A checked reference is a column with a qualifier or without one. -/
theorem checked_cases {allowStar : Bool} {u : Unit}
    (h : checkColumnReference reference allowStar = .ok u) :
    IsPart reference.toList ∨ ∃ qualifier column : String, reference = qualifier ++ "." ++ column ∧
      '.' ∉ column.toList ∧ IsPart column.toList := by
  rcases reference_cases h with hpart | ⟨table, column, rfl, -, hpart⟩ |
    ⟨schema, table, column, rfl, -, -, hpart⟩
  · exact .inl hpart
  · exact .inr ⟨table, column, rfl, hpart.dot_not_mem, hpart⟩
  · exact .inr ⟨schema ++ "." ++ table, column, rfl, hpart.dot_not_mem, hpart⟩

/-- A reference has one qualifier and one column. -/
theorem qualified_inj {qualifier' column' : String} (h : '.' ∉ column.toList)
    (h' : '.' ∉ column'.toList) (heq : qualifier ++ "." ++ column = qualifier' ++ "." ++ column') :
    qualifier = qualifier' ∧ column = column' := by
  have hcolumn : column = column' := by
    rw [← @bareColumn_qualified qualifier column h, heq, bareColumn_qualified h']
  subst hcolumn
  rw [String.append_left_inj, String.append_left_inj] at heq
  exact ⟨heq, rfl⟩

/-- No alias is a qualifier with a schema. -/
theorem asciiLower_ne_of_dot (hident : isIdentifier name.toList = true)
    (hdot : '.' ∈ qualifier.toList) : asciiLower name ≠ asciiLower qualifier := by
  intro heq
  have hmem : '.' ∈ (asciiLower name).toList := by
    rw [heq, Text.toList_asciiLower]
    exact List.mem_map_of_mem (f := Char.toLower) hdot
  rw [Text.toList_asciiLower] at hmem
  obtain ⟨c, hc, hlower⟩ := List.mem_map.mp hmem
  have halpha : c.isAlpha = false := by
    rw [← Char.isAlpha_toLower_eq_isAlpha, hlower]
    rfl
  have hupper : ¬ c.isUpper = true := fun h => by simp [Char.isAlpha, h] at halpha
  rw [Char.toLower_eq_of_not_isUpper hupper] at hlower
  subst hlower
  exact absurd ((isIdentifier_iff.mp hident).2 '.' hc) (by decide)

/-- A qualifier with a schema has two parts at least. -/
theorem two_le_segments (hdot : '.' ∈ qualifier.toList) : 2 ≤ (segments qualifier).length := by
  obtain ⟨before, after, hsplit⟩ := List.append_of_mem hdot
  rw [segments, hsplit, Text.splitChars_append, List.length_append]
  exact Nat.add_le_add (List.length_pos_iff.mpr (Text.splitChars_ne_nil '.' before))
    (List.length_pos_iff.mpr (Text.splitChars_ne_nil '.' after))

end Parts

section Reading

variable {s : Select} {a : Aliases} {t : String × String} {ts : List (String × String)}
  {reference qualifier column emitted name table : String}

/-- Aliases that differ, whatever their case, lead to their tables. -/
theorem aliased?_eq_some_iff (haliases : (ts.map fun t => asciiLower t.2).Nodup) :
    aliased? ts name = some table ↔ ∃ t ∈ ts, t.1 = table ∧ asciiLower t.2 = asciiLower name := by
  unfold aliased?
  rw [Option.map_eq_some_iff]
  constructor
  · rintro ⟨t, hfind, rfl⟩
    exact ⟨t, List.mem_of_find?_eq_some hfind, rfl, by simpa using List.find?_some hfind⟩
  · rintro ⟨t, ht, rfl, heq⟩
    obtain ⟨u, hu⟩ := Option.isSome_iff_exists.mp
      (List.find?_isSome.mpr ⟨t, ht, decide_eq_true heq⟩ :
        (ts.find? fun t => asciiLower t.2 = asciiLower name).isSome)
    have heq' : asciiLower u.2 = asciiLower name := by simpa using List.find?_some hu
    rw [List.inj_on_of_nodup_map haliases ht (List.mem_of_find?_eq_some hu) (heq.trans heq'.symm)]
    exact ⟨u, hu, rfl⟩

theorem columnOf?_column (h : '.' ∉ column.toList) :
    s.columnOf? column = some (s.table, column) := by
  unfold Select.columnOf?
  rw [segments_of_dot_not_mem h]
  simp only [List.map_cons, List.map_nil, String.ofList_toList]

theorem columnOf?_of_schema (hdot : '.' ∈ qualifier.toList) (h : '.' ∉ column.toList) :
    s.columnOf? (qualifier ++ "." ++ column) = none := by
  have hlength := two_le_segments hdot
  unfold Select.columnOf?
  rw [segments_append, segments_of_dot_not_mem h]
  match hsegments : segments qualifier with
  | [] | [_] =>
    rw [hsegments] at hlength
    simp at hlength
  | _ :: _ :: rest => cases rest <;> rfl

/-- A column with a qualifier is one of the table whose alias this is. -/
theorem columnOf?_qualified (hident : ∀ t ∈ s.tables, isIdentifier t.2.toList = true)
    (h : '.' ∉ column.toList) : s.columnOf? (qualifier ++ "." ++ column) =
      (aliased? s.tables qualifier).map fun table => (table, column) := by
  by_cases hdot : '.' ∈ qualifier.toList
  · have hnone : aliased? s.tables qualifier = none := by
      unfold aliased?
      rw [List.find?_eq_none.mpr fun t ht => ?_, Option.map_none]
      simpa using asciiLower_ne_of_dot (hident t ht) hdot
    rw [hnone, Option.map_none, columnOf?_of_schema hdot h]
  · unfold Select.columnOf?
    rw [segments_append, segments_of_dot_not_mem h, segments_of_dot_not_mem hdot]
    simp only [List.cons_append, List.nil_append, List.map_cons, List.map_nil, String.ofList_toList]

theorem columnOf?_qualified_eq_some_iff (hident : ∀ t ∈ s.tables, isIdentifier t.2.toList = true)
    (haliases : (s.tables.map fun t => asciiLower t.2).Nodup) (h : '.' ∉ column.toList) :
    s.columnOf? (qualifier ++ "." ++ column) = some (table, column) ↔
      ∃ t ∈ s.tables, t.1 = table ∧ asciiLower t.2 = asciiLower qualifier := by
  rw [columnOf?_qualified hident h, Option.map_eq_some_iff, ← aliased?_eq_some_iff haliases]
  simp

/-- The main table is the first one that has its name. -/
theorem firstNamed?_eq_main_iff (haliases : (s.tables.map fun t => asciiLower t.2).Nodup)
    (h : firstNamed? s.tables qualifier = some name) :
    (∃ t ∈ s.tables, t.1 = s.table ∧ asciiLower t.2 = asciiLower name) ↔
      Names qualifier s.table := by
  constructor
  · rintro ⟨t, ht, htable, heq⟩
    obtain ⟨u, hu, hnames, rfl⟩ := exists_of_firstNamed?_eq_some h
    rw [← htable, List.inj_on_of_nodup_map haliases ht hu heq]
    exact hnames
  · intro hnames
    have hfirst : firstNamed? s.tables qualifier = some s.alias_ := by
      rw [Select.tables, Aliases.firstNamed?_cons, if_pos hnames]
    cases h.symm.trans hfirst
    exact ⟨_, List.mem_cons_self, rfl, rfl⟩

/-- A reference that is rewritten keeps its column, and is read in the main table just if it leads
there. -/
theorem WrittenAs.columnOf? (hresolve : ∀ name, a.resolve? name = firstNamed? s.tables name)
    (haliases : (s.tables.map fun t => asciiLower t.2).Nodup)
    (hident : ∀ t ∈ s.tables, isIdentifier t.2.toList = true) (h : WrittenAs a reference emitted) :
    bareColumn emitted = bareColumn reference ∧
      (s.columnOf? emitted = some (s.table, bareColumn reference) ↔ s.ReadsMain reference) := by
  obtain ⟨rfl, allowStar, hcheck⟩ := h
  rcases checked_cases hcheck with hpart | ⟨qualifier, column, rfl, hcolumn, -⟩
  · have hdot := hpart.dot_not_mem
    have hmain : s.ReadsMain reference := by
      rintro qualifier column rfl -
      rw [toList_qualified] at hdot
      exact absurd List.mem_append_cons_self hdot
    rw [rewrite_column hpart, bareColumn_of_dot_not_mem hdot, columnOf?_column hdot]
    exact ⟨rfl, iff_of_true rfl hmain⟩
  rw [bareColumn_qualified hcolumn]
  have hmain : s.ReadsMain (qualifier ++ "." ++ column) ↔
      if Plain (qualifier ++ "." ++ column) ∧ ∃ t ∈ s.tables, Names qualifier t.1 then
        Names qualifier s.table
      else ∃ t ∈ s.tables, t.1 = s.table ∧ asciiLower t.2 = asciiLower qualifier := by
    refine ⟨fun h => h qualifier column rfl hcolumn, fun h qualifier' column' heq hcolumn' => ?_⟩
    obtain ⟨rfl, rfl⟩ := qualified_inj hcolumn hcolumn' heq
    exact h
  rw [hmain]
  by_cases hplain : Plain (qualifier ++ "." ++ column)
  · rw [rewrite_of_plain hcolumn hcheck hplain, hresolve, bareColumn_qualified hcolumn,
      columnOf?_qualified_eq_some_iff hident haliases hcolumn]
    refine ⟨rfl, ?_⟩
    cases hfirst : firstNamed? s.tables qualifier with
    | none =>
      have hnone := firstNamed?_eq_none_iff.mp hfirst
      rw [if_neg fun h => h.2.elim fun t ht => hnone t ht.1 ht.2]
      rfl
    | some name =>
      obtain ⟨t, ht, hnames, -⟩ := exists_of_firstNamed?_eq_some hfirst
      rw [if_pos ⟨hplain, t, ht, hnames⟩]
      exact firstNamed?_eq_main_iff haliases hfirst
  · obtain ⟨kept, hrewrite, hkept⟩ := rewrite_of_not_plain (a := a) hcolumn hcheck hplain
    rw [hrewrite, bareColumn_qualified hcolumn, if_neg fun h => hplain h.1,
      columnOf?_qualified_eq_some_iff hident haliases hcolumn]
    refine ⟨rfl, ?_⟩
    rcases hkept with rfl | ⟨hdot, hdot'⟩
    · rfl
    · -- neither is an alias
      constructor
      · rintro ⟨t, ht, -, heq⟩
        exact absurd heq (asciiLower_ne_of_dot (hident t ht) hdot)
      · rintro ⟨t, ht, -, heq⟩
        exact absurd heq (asciiLower_ne_of_dot (hident t ht) hdot')

end Reading

section Fields

variable {m : Mapping} {limit : Option Nat} {catalog : Option Catalog} {s : Select} {a : Aliases}
  {name source : String}

/-- The last part of a checked reference is an identifier unless it is a star. -/
theorem isIdentifier_bareColumn {u : Unit} (h : checkColumnReference source true = .ok u)
    (hstar : bareColumn source ≠ "*") : isIdentifier (bareColumn source).toList = true := by
  have hpart : IsPart (bareColumn source).toList := by
    rcases checked_cases h with hpart | ⟨qualifier, column, rfl, hcolumn, hpart⟩
    · rwa [bareColumn_of_dot_not_mem hpart.dot_not_mem]
    · rwa [bareColumn_qualified hcolumn]
  exact hpart.resolve_right fun h => hstar (String.toList_injective h)

theorem getLast?_bareColumn {u : Unit} (h : checkColumnReference source true = .ok u) :
    (bareColumn source).toList.getLast? = source.toList.getLast? := by
  rcases checked_cases h with hpart | ⟨qualifier, column, rfl, hcolumn, hpart⟩
  · rw [bareColumn_of_dot_not_mem hpart.dot_not_mem]
  · have hne : column.toList ≠ [] := by
      rcases hpart with hident | heq
      · exact (isIdentifier_iff.mp hident).1
      · rw [heq]
        exact List.cons_ne_nil _ _
    rw [bareColumn_qualified hcolumn, toList_qualified, List.getLast?_append_of_ne_nil _ (by simp),
      List.getLast?_cons_of_ne_nil hne]

/-- A text ends with a star if its last character is one. -/
theorem endsWith_star_iff {s : String} :
    Text.endsWith s "*" = true ↔ s.toList.getLast? = some '*' := by
  have hreversed : Text.endsWith s "*" = true ↔ ['*'] <+: s.toList.reverse :=
    Text.isSome_afterStart?_iff
  rw [hreversed, List.getLast?_eq_head?_reverse]
  cases s.toList.reverse with
  | nil => simp
  | cons c cs => simp [List.cons_prefix_cons, eq_comm]

/-- Only a star keeps no alias. -/
theorem endsWith_star {u : Unit} (h : checkColumnReference source true = .ok u)
    (hstar : bareColumn source ≠ "*") : Text.endsWith source "*" = false := by
  rw [Bool.eq_false_iff, Ne, endsWith_star_iff, ← getLast?_bareColumn h]
  intro hlast
  have hident := isIdentifier_bareColumn h hstar
  exact absurd ((isIdentifier_iff.mp hident).2 '*' (List.mem_of_getLast? hlast)) (by decide)

/-- A column is answered under the name of its field, unless it is a star. -/
theorem resolveColumn_alias? {f : FieldMapping} {o : OutputColumn}
    (h : resolveColumn a ⟨f.source, some f.target⟩ = .ok o) :
    o.alias? = if Text.endsWith f.source "*" then none else some f.target := by
  obtain ⟨_, -, h⟩ := bind_eq_ok_iff.mp h
  dsimp only at h
  split at h
  · next hstar =>
    cases h
    rw [if_pos hstar]
  · next hstar =>
    obtain ⟨_, -, h⟩ := bind_eq_ok_iff.mp h
    cases h
    rw [if_neg hstar]

/-- What the query of a mapping answers under the name of a field is its source, rewritten for the
aliases of the tables. -/
theorem output?_of_sourceFor? (h : resolve catalog (.ofMapping m limit) = .ok s)
    (hsource : m.sourceFor? name = some source) (hstar : bareColumn source ≠ "*") :
    checkColumnReference source true = .ok () ∧ ∃ a o,
      Aliases.build m.mainTable m.joins = .ok a ∧ s.output? name = some o ∧
        o.reference = a.rewrite source := by
  obtain ⟨a, -, -, hbuild, hcolumns, -⟩ := resolve_parts h
  obtain ⟨f, hfield, rfl⟩ := Option.map_eq_some_iff.mp hsource
  change Forall₂ _ (m.fields.map fun f => (⟨f.source, some f.target⟩ : SelectColumn)) _ at hcolumns
  rw [List.forall₂_map_left_iff] at hcolumns
  have hchecked : ∀ o, resolveColumn a ⟨f.source, some f.target⟩ = .ok o →
      checkColumnReference f.source true = .ok () := fun o ho => by
    obtain ⟨_, hcheck, -⟩ := bind_eq_ok_iff.mp ho
    exact hcheck
  have hname := List.find?_some hfield
  have hnamed : ∀ o, resolveColumn a ⟨f.source, some f.target⟩ = .ok o →
      o.alias?.any (eqIgnoringAsciiCase · name) = true := fun o ho => by
    rw [resolveColumn_alias? ho, endsWith_star (hchecked o ho) hstar, if_neg Bool.false_ne_true,
      Option.any_some]
    exact hname
  have honly : ∀ (g : FieldMapping) o, resolveColumn a ⟨g.source, some g.target⟩ = .ok o →
      o.alias?.any (eqIgnoringAsciiCase · name) = true → eqIgnoringAsciiCase g.target name = true := by
    intro g o hg hname
    rw [resolveColumn_alias? hg] at hname
    split at hname
    · cases hname
    · exact hname
  obtain ⟨o, houtput, ho⟩ := find?_of_forall₂ hcolumns hfield hnamed honly
  exact ⟨hchecked o ho, a, o, hbuild, houtput, (resolveColumn_eq_ok ho).1⟩

end Fields

end Recount.Sql
