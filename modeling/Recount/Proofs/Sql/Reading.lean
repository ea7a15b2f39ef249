import Recount.Proofs.Sql.Alphabet

/-!
# The tables that a reader of a statement finds

A reader that goes from word to word knows by what came before whether a word names a column, a
table or an alias, even if it is spelled like a keyword. It finds the tables after `FROM` and after
each `JOIN`, with their aliases.
-/

namespace Recount.Sql

open Text
open List (Forall₂)

/-- The words of a statement, which has single blanks between them. -/
def blankWords (s : String) : List (List Char) := splitChars ' ' s.toList

/-- Where a reader of the words of a statement is. -/
inductive Place where
  | start
  /-- An output column follows, or its alias. -/
  | column
  | columnRead
  | table
  /-- A table was named, and its alias follows. -/
  | named (name : List Char)
  /-- A table with its alias was read, or a condition of a join. -/
  | between
  | left
  | equals
  | right
  /-- There are no more tables. -/
  | done

namespace Place

/-- Where a reader is after the next word. A comma after an output column announces another one. -/
def next : Place → List Char → Place
  | .start, _ => .column
  | .column, word => if word.getLast? = some ',' then .column else .columnRead
  | .columnRead, word => if word = "FROM".toList then .table else .column
  | .table, word => .named word
  | .named _, _ => .between
  | .between, word =>
    if word = "JOIN".toList then .table
    else if word = "ON".toList ∨ word = "AND".toList then .left
    else if word = "WHERE".toList ∨ word = "LIMIT".toList then .done
    else .between
  | .left, _ => .equals
  | .equals, _ => .right
  | .right, _ => .between
  | .done, _ => .done

/-- The table that the next word completes with its alias. -/
def found : Place → List Char → List (String × String)
  | .named name, word => [(String.ofList name, String.ofList word)]
  | _, _ => []

/-- The tables with their aliases that a reader finds. -/
def tablesIn : Place → List (List Char) → List (String × String)
  | _, [] => []
  | place, word :: words => place.found word ++ (place.next word).tablesIn words

end Place

/-- The tables that a statement names, with their aliases, in their order. -/
def tablesOf (sql : String) : List (String × String) := Place.start.tablesIn (blankWords sql)

/-- A text leads a reader from one place to another, and these are the tables in it. -/
def Reads (place : Place) (s : String) (found : List (String × String)) (place' : Place) : Prop :=
  ∀ words, place.tablesIn (blankWords s ++ words) = found ++ place'.tablesIn words

/-- A text that is appended to another one leads a reader on. -/
def ReadsOn (place : Place) (t : String) (found : List (String × String)) (place' : Place) : Prop :=
  ∀ first s before, Reads first s before place → Reads first (s ++ t) (before ++ found) place'

variable {d : Dialect} {place place' place'' : Place} {s t : String}
  {found more : List (String × String)}

section Words

theorem blankWords_of_word (h : ' ' ∉ s.toList) : blankWords s = [s.toList] :=
  splitChars_of_not_mem h

theorem blankWords_append : blankWords (s ++ " " ++ t) = blankWords s ++ blankWords t := by
  unfold blankWords
  rw [String.toList_append, String.toList_append, List.append_assoc]
  exact splitChars_append

theorem reads_word (h : ' ' ∉ s.toList) (hfound : place.found s.toList = found)
    (hnext : place.next s.toList = place') : Reads place s found place' := by
  intro words
  rw [blankWords_of_word h, ← hfound, ← hnext]
  rfl

/-- A text goes on after a blank. -/
theorem Reads.blank (hs : Reads place s found place') (ht : Reads place' t more place'') :
    Reads place (s ++ " " ++ t) (found ++ more) place'' := by
  intro words
  rw [blankWords_append, List.append_assoc, hs, ht, List.append_assoc]

theorem readsOn_empty : ReadsOn place "" [] place := by
  intro first s before hs
  simpa using hs

theorem ReadsOn.append (hs : ReadsOn place s found place') (ht : ReadsOn place' t more place'') :
    ReadsOn place (s ++ t) (found ++ more) place'' := by
  intro first u before hu
  have hboth := ht _ _ _ (hs _ _ _ hu)
  rwa [String.append_assoc, List.append_assoc] at hboth

theorem Reads.readsOn (h : Reads place t found place') : ReadsOn place (" " ++ t) found place' := by
  intro first s before hs
  rw [← String.append_assoc]
  exact hs.blank h

/-- Where there are no more tables, any text may stand. -/
theorem reads_done : Reads .done s [] .done := by
  intro words
  induction blankWords s with
  | nil => rfl
  | cons word rest ih =>
    rw [List.cons_append, Place.tablesIn]
    exact ih

end Words

section Names

theorem blank_not_mem_of_isMadeOf (h : IsMadeOf isNameChar s) : ' ' ∉ s.toList :=
  fun hmem => absurd (h ' ' hmem) (by decide)

theorem comma_not_last_of_isMadeOf (h : IsMadeOf isNameChar s) : s.toList.getLast? ≠ some ',' :=
  fun hlast => absurd (h ',' (List.mem_of_getLast? hlast)) (by decide)

/-- A reference is an output column. -/
theorem reads_reference (h : IsMadeOf isNameChar s) : Reads .column s [] .columnRead :=
  reads_word (blank_not_mem_of_isMadeOf h) rfl (if_neg (comma_not_last_of_isMadeOf h))

/-- With a comma, a word that is an output column announces another one. -/
theorem reads_comma (h : ' ' ∉ s.toList) : Reads .column (s ++ ",") [] .column := by
  have hcomma : (s ++ ",").toList = s.toList ++ [','] := by
    rw [String.toList_append]
    rfl
  have hblank : ' ' ∉ (s ++ ",").toList := by simpa [hcomma] using h
  refine reads_word hblank rfl (if_pos ?_)
  rw [hcomma, List.getLast?_concat]

/-- An alias in its quotes is a word without a comma at its end. -/
theorem quoteAlias_word {name : String} (h : isIdentifier name.toList = true) :
    ' ' ∉ (d.quoteAlias name).toList ∧ (d.quoteAlias name).toList.getLast? ≠ some ',' := by
  have hname : ' ' ∉ name.toList := blank_not_mem_of_isMadeOf (isMadeOf_of_isIdentifier h)
  have hquotes : ' ' ≠ d.opening ∧ ' ' ≠ d.closing ∧ d.closing ≠ ',' := by
    cases d <;> decide
  rw [toList_quoteAlias, ← List.cons_append, List.getLast?_concat]
  simp [hname, hquotes]

end Names

section Columns

variable {a : Aliases}

/-- A text after `AS` is read as an output column is. -/
theorem reads_as {reference : String} (hreference : IsMadeOf isNameChar reference)
    (ht : Reads .column t [] place) : Reads .column (reference ++ " AS " ++ t) [] place := by
  have has : Reads .columnRead "AS" [] .column := reads_word (by decide) rfl rfl
  have hwhole := ((reads_reference hreference).blank has).blank ht
  have htext : reference ++ " AS " ++ t = reference ++ " " ++ "AS" ++ " " ++ t := by
    simp only [String.append_assoc]
    rfl
  rw [htext]
  exact hwhole

/-- An output column is read as one, whether another one follows or not. -/
theorem reads_column {c : SelectColumn} {o : OutputColumn}
    (haliases : ∀ name other, a.resolve? name = some other → isIdentifier other.toList = true)
    (h : resolveColumn a c = .ok o) :
    Reads .column (o.text d) [] .columnRead ∧ Reads .column (o.text d ++ ",") [] .column := by
  obtain ⟨_, hcheck, h⟩ := bind_eq_ok_iff.mp h
  have hreference := isMadeOf_rewrite haliases hcheck
  have hbare : Reads .column (a.rewrite c.expression) [] .columnRead ∧
      Reads .column (a.rewrite c.expression ++ ",") [] .column :=
    ⟨reads_reference hreference, reads_comma (blank_not_mem_of_isMadeOf hreference)⟩
  dsimp only at h
  split at h
  · next name _ =>
    split at h
    · cases h
      exact hbare
    · obtain ⟨_, halias, h⟩ := bind_eq_ok_iff.mp h
      cases h
      obtain ⟨hblank, hlast⟩ := quoteAlias_word (d := d) (Aliases.checkAlias_eq_ok_iff.mp halias)
      have hquoted : Reads .column (d.quoteAlias name) [] .columnRead :=
        reads_word hblank rfl (if_neg hlast)
      refine ⟨reads_as hreference hquoted, ?_⟩
      have hcomma := reads_as hreference (reads_comma hblank)
      rwa [← String.append_assoc] at hcomma
  · cases h
    exact hbare

/-- Output columns are read one after the other. -/
theorem reads_columns {texts : List String} (hne : texts ≠ [])
    (h : ∀ text ∈ texts,
      Reads .column text [] .columnRead ∧ Reads .column (text ++ ",") [] .column) :
    Reads .column (join ", " texts) [] .columnRead := by
  unfold join
  induction texts with
  | nil => exact absurd rfl hne
  | cons text texts ih =>
    cases texts with
    | nil => exact (h text List.mem_cons_self).1
    | cons other texts =>
      have hothers := ih (List.cons_ne_nil other texts) fun t ht => h t (List.mem_cons_of_mem text ht)
      have hwhole := (h text List.mem_cons_self).2.blank hothers
      have htext : text ++ ", " ++ ", ".intercalate (other :: texts) =
          text ++ "," ++ " " ++ ", ".intercalate (other :: texts) := by
        simp only [String.append_assoc]
        rfl
      rw [String.intercalate_cons_cons, htext]
      exact hwhole

end Columns

section Joins

variable {a : Aliases}

/-- A table is named with its alias. -/
theorem reads_table {table name : String} (htable : IsMadeOf isNameChar table)
    (hname : IsMadeOf isNameChar name) :
    Reads .table (table ++ " " ++ name) [(table, name)] .between := by
  have hfirst : Reads .table table [] (.named table.toList) :=
    reads_word (blank_not_mem_of_isMadeOf htable) rfl rfl
  have hsecond : Reads (.named table.toList) name [(table, name)] .between := by
    refine reads_word (blank_not_mem_of_isMadeOf hname) ?_ rfl
    rw [Place.found, String.ofList_toList, String.ofList_toList]
  exact hfirst.blank hsecond

variable
  (haliases : ∀ name other, a.resolve? name = some other → isIdentifier other.toList = true)

include haliases

/-- The conditions of a join name no tables. -/
theorem reads_joinConditions {conditions : List JoinCondition} {resolved : List (String × String)}
    (hne : conditions ≠ [])
    (h : Forall₂ (fun c p => resolveJoinCondition a c = .ok p) conditions resolved) :
    Reads .left (join " AND " (resolved.map fun p => p.1 ++ " = " ++ p.2)) [] .between := by
  unfold join
  induction h with
  | nil => exact absurd rfl hne
  | @cons c p conditions resolved hc hrest ih =>
    obtain ⟨⟨hleft, _, hcheckLeft⟩, hright, _, hcheckRight⟩ := resolveJoinCondition_eq_ok hc
    have hleftChars : IsMadeOf isNameChar p.1 := hleft ▸ isMadeOf_rewrite haliases hcheckLeft
    have hrightChars : IsMadeOf isNameChar p.2 := hright ▸ isMadeOf_rewrite haliases hcheckRight
    have hfirst : Reads .left p.1 [] .equals :=
      reads_word (blank_not_mem_of_isMadeOf hleftChars) rfl rfl
    have hsign : Reads .equals "=" [] .right := reads_word (by decide) rfl rfl
    have hsecond : Reads .right p.2 [] .between :=
      reads_word (blank_not_mem_of_isMadeOf hrightChars) rfl rfl
    have hone : Reads .left (p.1 ++ " = " ++ p.2) [] .between := by
      have htext : p.1 ++ " = " ++ p.2 = p.1 ++ " " ++ "=" ++ " " ++ p.2 := by
        simp only [String.append_assoc]
        rfl
      rw [htext]
      exact (hfirst.blank hsign).blank hsecond
    cases hrest with
    | nil => exact hone
    | cons hc' hrest' =>
      have hothers := ih (List.cons_ne_nil _ _)
      have hand : Reads .between "AND" [] .left := reads_word (by decide) rfl rfl
      have hwhole := (hone.blank hand).blank hothers
      have htext : ∀ u v : String, u ++ " AND " ++ v = u ++ " " ++ "AND" ++ " " ++ v := by
        intro u v
        simp only [String.append_assoc]
        rfl
      rw [List.map_cons, List.map_cons, String.intercalate_cons_cons, htext]
      exact hwhole

/-- A join names its table. -/
theorem readsOn_joined {j : Join} {name : String} {joined : JoinedTable}
    (htable : IsMadeOf isNameChar j.table) (hname : IsMadeOf isNameChar name)
    (hne : j.conditions ≠ []) (h : resolveJoin a j name = .ok joined) :
    ReadsOn .between joined.text [(joined.table, joined.alias_)] .between := by
  obtain ⟨conditions, hconditions, h⟩ := bind_eq_ok_iff.mp h
  cases h
  have hkind : Reads .between j.kind.keyword [] .between := by
    cases j.kind <;> exact reads_word (by decide) rfl rfl
  have hjoin : Reads .between "JOIN" [] .table := reads_word (by decide) rfl rfl
  have hon : Reads .between "ON" [] .left := reads_word (by decide) rfl rfl
  have hend := reads_joinConditions haliases hne (mapM_eq_ok_iff.mp hconditions)
  have hwhole := ((((hkind.blank hjoin).blank (reads_table htable hname)).blank hon).blank
    hend).readsOn
  have htext : (⟨j.kind.keyword, j.table, name, conditions⟩ : JoinedTable).text =
      " " ++ (j.kind.keyword ++ " " ++ "JOIN" ++ " " ++ (j.table ++ " " ++ name) ++ " " ++ "ON" ++
        " " ++ join " AND " (conditions.map fun p => p.1 ++ " = " ++ p.2)) := by
    simp only [JoinedTable.text, String.append_assoc]
    rfl
  rw [htext]
  exact hwhole

end Joins

section Statements

variable {catalog : Option Catalog} {spec : QuerySpec} {statement : Select}

/-- Joins name their tables one after the other. -/
theorem readsOn_joins {joins : List JoinedTable}
    (h : ∀ j ∈ joins, ReadsOn .between j.text [(j.table, j.alias_)] .between) :
    ReadsOn .between (String.join (joins.map JoinedTable.text))
      (joins.map fun j => (j.table, j.alias_)) .between := by
  induction joins with
  | nil => exact readsOn_empty
  | cons j joins ih =>
    have hothers := ih fun k hk => h k (List.mem_cons_of_mem j hk)
    rw [List.map_cons, String.join_cons]
    exact (h j List.mem_cons_self).append hothers

/-- A limit at the front is passed over. -/
theorem reads_select {limit : Option Nat} :
    ∃ head, "SELECT " ++ d.topClause limit = head ++ " " ∧ Reads .start head [] .column := by
  have hselect : Reads .start "SELECT" [] .column := reads_word (by decide) rfl rfl
  have hnone : "SELECT " ++ "" = "SELECT" ++ " " := rfl
  cases d with
  | postgres | mySql => exact ⟨"SELECT", hnone, hselect⟩
  | msSql =>
    cases limit with
    | none => exact ⟨"SELECT", hnone, hselect⟩
    | some n =>
      have htop : Reads .column "TOP" [] .columnRead := reads_word (by decide) rfl rfl
      have hword := (Aliases.isLowerWord_toString n).2
      have hblank : ' ' ∉ (toString n).toList :=
        fun hmem => absurd (hword ' ' hmem).1 (by decide)
      have hnumber : (toString n).toList ≠ "FROM".toList := by
        intro heq
        have hmem : 'F' ∈ (toString n).toList := by
          rw [heq]
          decide
        exact absurd (hword 'F' hmem).2 (by decide)
      have hlimit : Reads .columnRead (toString n) [] .column :=
        reads_word hblank rfl (if_neg hnumber)
      refine ⟨"SELECT" ++ " " ++ "TOP" ++ " " ++ toString n, ?_, (hselect.blank htop).blank hlimit⟩
      simp only [Dialect.topClause, ← String.append_assoc]
      rfl

/-- From the conditions on, there are no tables. -/
theorem readsOn_back : ∃ last, ReadsOn .between (statement.back d) [] last := by
  have hlimit : ∃ last, ReadsOn .between (d.limitClause statement.limit) [] last := by
    obtain h | ⟨n, h⟩ := @limitClause_cases d statement.limit
    · exact ⟨.between, h ▸ readsOn_empty⟩
    · have hword : Reads .between "LIMIT" [] .done := reads_word (by decide) rfl rfl
      have hwhole := (hword.blank (reads_done (s := toString n))).readsOn
      have htext : " LIMIT " ++ toString n = " " ++ ("LIMIT" ++ " " ++ toString n) := by
        simp only [← String.append_assoc]
        rfl
      rw [h, htext]
      exact ⟨.done, hwhole⟩
  unfold Select.back
  split
  · rwa [String.empty_append]
  · have hword : Reads .between "WHERE" [] .done := reads_word (by decide) rfl rfl
    have htext : ∀ u v : String, " WHERE " ++ u ++ v = " " ++ ("WHERE" ++ " " ++ (u ++ v)) := by
      intro u v
      simp only [← String.append_assoc]
      rfl
    rw [htext]
    exact ⟨.done, (hword.blank reads_done).readsOn⟩

/-- A reader of a statement finds its tables with their aliases. -/
theorem tablesOf_text (h : resolve catalog spec = .ok statement) :
    tablesOf (statement.text d) = statement.tables := by
  obtain ⟨a, haliases, htable, hmain, hcolumns, hjoins, -⟩ := exists_aliases h
  have hmain := isMadeOf_of_isIdentifier hmain
  obtain ⟨head, hhead, hselect⟩ := @reads_select d statement.limit
  have hfirst : Reads .column (statement.columnsText d) [] .columnRead := by
    unfold Select.columnsText
    split
    · exact reads_reference (isMadeOf_append.mpr ⟨hmain, by decide⟩)
    · next hsome =>
      refine reads_columns (by simpa using hsome) fun text htext => ?_
      obtain ⟨o, ho, rfl⟩ := List.mem_map.mp htext
      obtain ⟨c, -, hc⟩ := exists_mem_of_forall₂ hcolumns ho
      exact reads_column haliases hc
  have hfrom : Reads .columnRead "FROM" [] .table := reads_word (by decide) rfl rfl
  have hjoined : ∀ t ∈ statement.joins, ReadsOn .between t.text [(t.table, t.alias_)] .between := by
    intro t ht
    obtain ⟨j, name, hj, hname, hne, ht⟩ := hjoins t ht
    exact readsOn_joined haliases hj (isMadeOf_of_isIdentifier hname) hne ht
  obtain ⟨last, hback⟩ := @readsOn_back d statement
  have hopened := ((hselect.blank hfirst).blank hfrom).blank (reads_table htable hmain)
  have hwhole := ((readsOn_joins hjoined).append hback) _ _ _ hopened []
  have htext : statement.text d = head ++ " " ++ statement.columnsText d ++ " " ++ "FROM" ++ " " ++
      (statement.table ++ " " ++ statement.alias_) ++
      (String.join (statement.joins.map JoinedTable.text) ++ statement.back d) := by
    rw [Select.text_eq, Select.front, Select.tablesText, hhead]
    simp only [String.append_assoc]
    rfl
  unfold tablesOf
  rw [htext]
  simpa [Select.tables, Place.tablesIn] using hwhole

end Statements

end Recount.Sql
