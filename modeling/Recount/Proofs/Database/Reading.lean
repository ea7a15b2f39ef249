import Mathlib.Data.List.Basic
import Recount.Database.Counts
import Recount.Proofs.Text.Trim

/-!
# What a statement says

A reader of the text of a statement finds the table that it is about, the columns that it sets to
parameters, and the columns that it compares with parameters. The places of the parameters are
counted from one.
-/

namespace Recount.Database

/-- What a statement does. -/
inductive Verb where
  | select
  | insert
  /-- Inserts a row, or updates the one that is in conflict with it. -/
  | upsert
  | update
deriving DecidableEq

/-- What the text of a statement says. -/
structure Outline where
  verb : Verb
  table : String
  /-- The columns that are set, with the places of the parameters that they are set to. -/
  sets : List (String × Nat)
  /-- The columns that rows are found by, with the places of the parameters. -/
  keys : List (String × Nat)
deriving DecidableEq

/-- A bracket or a comma, which tells words apart no more than a blank does. -/
def isMark (c : Char) : Bool := c == '(' || c == ')' || c == ','

/-- The text without brackets and commas. -/
def unmarked (text : String) : List Char := text.toList.filter (!isMark ·)

/-- The words of a text, between single blanks and without brackets and commas. -/
def wordsOf (text : String) : List String :=
  (Text.splitChars ' ' (unmarked text)).map String.ofList

/-- The place of the parameter that a word stands for. -/
def index? (word : String) : Option Nat :=
  match word.toList with
  | '$' :: digits => some (Nat.ofDigitChars 10 digits 0)
  | _ => none

/-- The words with an equals sign and a parameter after them. -/
def equations : List String → List (String × Nat)
  | name :: "=" :: value :: rest => (index? value).toList.map (name, ·) ++ equations rest
  | _ :: rest => equations rest
  | [] => []

/-- The words before a keyword. -/
def wordsBefore (keyword : String) (words : List String) : List String :=
  words.takeWhile (· != keyword)

/-- The words after a keyword. -/
def wordsAfter (keyword : String) (words : List String) : List String :=
  (words.dropWhile (· != keyword)).drop 1

/-- What a text says, word by word. -/
def outlineOf : List String → Option Outline
  | "SELECT" :: rest =>
    some ⟨.select, (wordsAfter "FROM" rest).headD "", [], equations (wordsAfter "WHERE" rest)⟩
  | "UPDATE" :: table :: rest =>
    some ⟨.update, table, equations (wordsBefore "WHERE" rest), equations (wordsAfter "WHERE" rest)⟩
  | "INSERT" :: "INTO" :: table :: rest =>
    some ⟨if "CONFLICT" ∈ wordsAfter "VALUES" rest then .upsert else .insert, table,
      (wordsBefore "VALUES" rest).zip ((wordsAfter "VALUES" rest).filterMap index?), []⟩
  | _ => none

/-- What a statement says: columns with the parameters that they are set to or compared with. -/
structure Meaning where
  verb : Verb
  table : String
  sets : List (String × Parameter)
  keys : List (String × Parameter)

/-- A statement sets no column twice. -/
def Meaning.IsProper (m : Meaning) : Prop := (m.sets.map Prod.fst).Nodup

/-- The parameters in their places. -/
def fill (parameters : List Parameter) (places : List (String × Nat)) : List (String × Parameter) :=
  places.filterMap fun (name, place) => parameters[place - 1]?.map (name, ·)

/-- What a statement says, if the reader makes something of it. -/
def Statement.meaning? (s : Statement) : Option Meaning :=
  (outlineOf (wordsOf s.text)).map fun o =>
    ⟨o.verb, o.table, fill s.parameters o.sets, fill s.parameters o.keys⟩

variable {s t : String} {pieces columns words more : List String} {name keyword table : String}

section Words

/-- A text that is one word. -/
def IsWord (s : String) : Prop := ∀ c ∈ s.toList, c ≠ ' ' ∧ isMark c = false

instance (s : String) : Decidable (IsWord s) := List.decidableBAll _ s.toList

theorem unmarked_append : unmarked (s ++ t) = unmarked s ++ unmarked t := by
  rw [unmarked, String.toList_append, List.filter_append]
  rfl

/-- A separator tells words apart if nothing but a blank is left of it. -/
theorem wordsOf_append {separator : String} (h : unmarked separator = [' ']) :
    wordsOf (s ++ separator ++ t) = wordsOf s ++ wordsOf t := by
  rw [wordsOf, unmarked_append, unmarked_append, h, List.append_assoc, List.singleton_append,
    Text.splitChars_append, List.map_append]
  rfl

theorem wordsOf_blank : wordsOf (s ++ " " ++ t) = wordsOf s ++ wordsOf t :=
  wordsOf_append (by decide)

theorem wordsOf_comma : wordsOf (s ++ ", " ++ t) = wordsOf s ++ wordsOf t :=
  wordsOf_append (by decide)

theorem wordsOf_opening : wordsOf (s ++ " (" ++ t) = wordsOf s ++ wordsOf t :=
  wordsOf_append (by decide)

theorem wordsOf_closing : wordsOf (s ++ ") " ++ t) = wordsOf s ++ wordsOf t :=
  wordsOf_append (by decide)

theorem wordsOf_append_mark {mark : String} (h : unmarked mark = []) :
    wordsOf (s ++ mark) = wordsOf s := by
  rw [wordsOf, unmarked_append, h, List.append_nil]
  rfl

theorem IsWord.wordsOf_eq (h : IsWord s) : wordsOf s = [s] := by
  have hletters : unmarked s = s.toList :=
    List.filter_eq_self.mpr fun c hc => by rw [(h c hc).2]; rfl
  rw [wordsOf, hletters, Text.splitChars_of_not_mem fun hc => (h ' ' hc).1 rfl, List.map_singleton,
    String.ofList_toList]

theorem wordsOf_join (hne : pieces ≠ []) :
    wordsOf (Text.join ", " pieces) = pieces.flatMap wordsOf := by
  unfold Text.join
  induction pieces with
  | nil => exact absurd rfl hne
  | cons s pieces ih =>
    cases pieces with
    | nil => simp
    | cons t pieces =>
      rw [String.intercalate_cons_cons, wordsOf_comma, ih (List.cons_ne_nil t pieces)]
      rfl

/-- Names with commas between them are the words of their text. -/
theorem wordsOf_names (hne : columns ≠ []) (h : ∀ name ∈ columns, IsWord name) :
    wordsOf (Text.join ", " columns) = columns := by
  rw [wordsOf_join hne, List.flatMap_congr fun name hname => (h name hname).wordsOf_eq,
    List.flatMap_singleton']

theorem wordsBefore_append (h : keyword ∉ words) :
    wordsBefore keyword (words ++ keyword :: more) = words := by
  have hall : ∀ word ∈ words, (word != keyword) = true := fun word hword =>
    bne_iff_ne.mpr fun heq => h (heq ▸ hword)
  rw [wordsBefore, List.takeWhile_append_of_pos hall, List.takeWhile_cons_of_neg (by simp),
    List.append_nil]

theorem wordsAfter_append (h : keyword ∉ words) :
    wordsAfter keyword (words ++ keyword :: more) = more := by
  have hall : ∀ word ∈ words, (word != keyword) = true := fun word hword =>
    bne_iff_ne.mpr fun heq => h (heq ▸ hword)
  rw [wordsAfter, List.dropWhile_append_of_pos hall, List.dropWhile_cons_of_neg (by simp)]
  rfl

end Words

section Placeholders

theorem toList_placeholder (place : Nat) :
    (placeholder place).toList = '$' :: Nat.toDigits 10 place := by
  simp [placeholder]

theorem index?_placeholder (place : Nat) : index? (placeholder place) = some place := by
  rw [index?, toList_placeholder]
  exact congrArg some Nat.ofDigitChars_ten_toDigits

theorem isWord_placeholder (place : Nat) : IsWord (placeholder place) := by
  intro c hc
  rw [toList_placeholder] at hc
  rcases List.mem_cons.mp hc with rfl | hc
  · decide
  · have hdigit : c.isDigit = true := Nat.isDigit_of_mem_toDigits (by decide) (by decide) hc
    have hne : ∀ other : Char, other.isDigit = false → c ≠ other := by
      rintro other hother rfl
      cases hother.symm.trans hdigit
    simp [isMark, hne ' ' rfl, hne '(' rfl, hne ')' rfl, hne ',' rfl]

/-- A placeholder is told from other words by its sign. -/
theorem ne_placeholder {word : String} {place : Nat} (h : word.toList.head? ≠ some '$') :
    word ≠ placeholder place := by
  rintro rfl
  rw [toList_placeholder] at h
  exact h rfl

theorem wordsOf_placeholders {count : Nat} (hcount : 0 < count) :
    wordsOf (placeholders count) = (List.range count).map fun i => placeholder (i + 1) := by
  refine wordsOf_names (by simpa using Nat.ne_of_gt hcount) fun word hword => ?_
  obtain ⟨i, -, rfl⟩ := List.mem_map.mp hword
  exact isWord_placeholder (i + 1)

/-- The placeholders of a statement are read as their places. -/
theorem filterMap_placeholders {count : Nat} (hcount : 0 < count) :
    (wordsOf (placeholders count)).filterMap index? = List.range' 1 count := by
  rw [wordsOf_placeholders hcount, List.filterMap_map, List.range'_eq_map_range,
    ← List.filterMap_eq_map]
  refine List.filterMap_congr fun i _ => ?_
  rw [Function.comp_apply, index?_placeholder, Nat.add_comm]
  rfl

/-- A word without an equals sign after it is passed over. -/
theorem equations_cons {word : String} (h : words.head? ≠ some "=") :
    equations (word :: words) = equations words := by
  rw [equations]
  rintro value rest rfl
  exact h rfl

/-- Where no equals sign stands, nothing is set or compared. -/
theorem equations_of_not_mem (h : "=" ∉ words) : equations words = [] := by
  induction words with
  | nil => rfl
  | cons word words ih =>
    rw [List.mem_cons, not_or] at h
    rw [equations_cons fun heq => h.2 (List.mem_of_head? heq), ih h.2]

/-- The words of assignments are the columns with their placeholders. -/
theorem wordsOf_assignments (hne : columns ≠ []) (h : ∀ name ∈ columns, IsWord name) :
    wordsOf (assignments columns) =
      (columns.zipIdx 1).flatMap fun p => [p.1, "=", placeholder p.2] := by
  have hequals : " = " = " " ++ "=" ++ " " := by decide
  have hpiece : ∀ p ∈ columns.zipIdx 1, wordsOf (p.1 ++ " = " ++ placeholder p.2) =
      [p.1, "=", placeholder p.2] := by
    intro p hp
    have hname : IsWord p.1 := h p.1 (List.fst_mem_of_mem_zipIdx hp)
    simp only [-String.reduceAppend, hequals, ← String.append_assoc, wordsOf_blank, hname.wordsOf_eq,
      (isWord_placeholder p.2).wordsOf_eq, (by decide : IsWord "=").wordsOf_eq]
    rfl
  rw [assignments, wordsOf_join (by simpa using hne), List.flatMap_map]
  exact List.flatMap_congr hpiece

/-- Columns that are set to parameters are read with the places of these. -/
theorem equations_placeholders (places : List (String × Nat)) :
    equations ((places.flatMap fun p => [p.1, "=", placeholder p.2]) ++ more) =
      places ++ equations more := by
  induction places with
  | nil => rfl
  | cons p places ih =>
    simp only [List.flatMap_cons, List.cons_append, List.nil_append, equations, index?_placeholder,
      ih, Option.toList_some, List.map_cons, List.map_nil]

end Placeholders

section Texts

/-- Names of columns: they are different words, and none of them has a meaning in a text. -/
structure AreNames (columns : List String) : Prop where
  ne_nil : columns ≠ []
  nodup : columns.Nodup
  words : ∀ name ∈ columns, IsWord name
  noFrom : "FROM" ∉ columns
  noWhere : "WHERE" ∉ columns
  noValues : "VALUES" ∉ columns
  noEquals : "=" ∉ columns

instance (columns : List String) : Decidable (AreNames columns) :=
  decidable_of_iff (columns ≠ [] ∧ columns.Nodup ∧ (∀ name ∈ columns, IsWord name) ∧
      "FROM" ∉ columns ∧ "WHERE" ∉ columns ∧ "VALUES" ∉ columns ∧ "=" ∉ columns)
    ⟨fun ⟨hne, hnodup, hwords, hfrom, hwhere, hvalues, hequals⟩ =>
      ⟨hne, hnodup, hwords, hfrom, hwhere, hvalues, hequals⟩,
    fun h => ⟨h.ne_nil, h.nodup, h.words, h.noFrom, h.noWhere, h.noValues, h.noEquals⟩⟩

variable {ρ α : Type} {c : Columns ρ α} {condition : String}

theorem outlineOf_select {rest : List String} : outlineOf ("SELECT" :: rest) =
    some ⟨.select, (wordsAfter "FROM" rest).headD "", [], equations (wordsAfter "WHERE" rest)⟩ := rfl

theorem outlineOf_update {rest : List String} : outlineOf ("UPDATE" :: table :: rest) =
    some ⟨.update, table, equations (wordsBefore "WHERE" rest), equations (wordsAfter "WHERE" rest)⟩ :=
  rfl

theorem outlineOf_insert {rest : List String} : outlineOf ("INSERT" :: "INTO" :: table :: rest) =
    some ⟨if "CONFLICT" ∈ wordsAfter "VALUES" rest then .upsert else .insert, table,
      (wordsBefore "VALUES" rest).zip ((wordsAfter "VALUES" rest).filterMap index?), []⟩ := rfl

/-- A text that selects rows names their table and compares columns in its condition. -/
theorem outlineOf_selection (hnames : AreNames c.names) (htable : IsWord table)
    (hwhere : table ≠ "WHERE") :
    outlineOf (wordsOf (selection c table condition)) =
      some ⟨.select, table, [], equations (wordsOf condition)⟩ := by
  have hselect : "SELECT " = "SELECT" ++ " " := by decide
  have hfrom : " FROM " = " " ++ "FROM" ++ " " := by decide
  have hkey : " WHERE " = " " ++ "WHERE" ++ " " := by decide
  have hwords : wordsOf (selection c table condition) =
      "SELECT" :: (c.names ++ "FROM" :: table :: "WHERE" :: wordsOf condition) := by
    delta selection
    simp only [-String.reduceAppend, hselect, hfrom, hkey, ← String.append_assoc, wordsOf_blank,
      htable.wordsOf_eq, Columns.list, wordsOf_names hnames.ne_nil hnames.words,
      (by decide : IsWord "SELECT").wordsOf_eq, (by decide : IsWord "FROM").wordsOf_eq,
      (by decide : IsWord "WHERE").wordsOf_eq]
    simp only [List.append_assoc, List.cons_append, List.nil_append]
  have hbefore : "WHERE" ∉ c.names ++ ["FROM", table] := by
    simp [hnames.noWhere, hwhere.symm]
  have hafter : wordsAfter "WHERE" (c.names ++ "FROM" :: table :: "WHERE" :: wordsOf condition) =
      wordsOf condition := by
    have h : wordsAfter "WHERE" (c.names ++ ["FROM", table] ++ "WHERE" :: wordsOf condition) =
        wordsOf condition := wordsAfter_append hbefore
    rwa [List.append_assoc] at h
  rw [hwords, outlineOf_select, wordsAfter_append hnames.noFrom, hafter]
  rfl

/-- A text that inserts a row sets its columns to the parameters in their order. -/
theorem outlineOf_insertion (hnames : AreNames c.names) (htable : IsWord table) {rest : String} :
    outlineOf (wordsOf (insertion c table ++ " " ++ rest)) =
      some ⟨if "CONFLICT" ∈ wordsOf rest then .upsert else .insert, table, c.names.zipIdx 1, []⟩ := by
  have hinsert : "INSERT INTO " = "INSERT" ++ " " ++ "INTO" ++ " " := by decide
  have hvalues : ") VALUES (" = ") " ++ "VALUES" ++ " (" := by decide
  have hwords : wordsOf (insertion c table ++ " " ++ rest) =
      "INSERT" :: "INTO" :: table ::
        (c.names ++ "VALUES" :: (wordsOf (placeholders c.names.length) ++ wordsOf rest)) := by
    delta insertion
    simp only [-String.reduceAppend, hinsert, hvalues, ← String.append_assoc, wordsOf_blank,
      wordsOf_opening, wordsOf_closing, wordsOf_append_mark (by decide : unmarked ")" = []),
      htable.wordsOf_eq, Columns.list,
      wordsOf_names hnames.ne_nil hnames.words, (by decide : IsWord "INSERT").wordsOf_eq,
      (by decide : IsWord "INTO").wordsOf_eq, (by decide : IsWord "VALUES").wordsOf_eq]
    simp only [List.append_assoc, List.cons_append, List.nil_append]
  have hcount : 0 < c.names.length := List.length_pos_of_ne_nil hnames.ne_nil
  -- what follows the placeholders is not paired with a column
  have hpairs : c.names.zip (List.range' 1 c.names.length ++ (wordsOf rest).filterMap index?) =
      c.names.zipIdx 1 := by
    have hzip : (c.names ++ []).zip (List.range' 1 c.names.length ++ (wordsOf rest).filterMap index?) =
        _ := List.zip_append List.length_range'.symm
    rwa [List.append_nil, List.zip_nil_left, List.append_nil, ← List.zipIdx_eq_zip_range'] at hzip
  have hconflict : "CONFLICT" ∈ wordsOf (placeholders c.names.length) ++ wordsOf rest ↔
      "CONFLICT" ∈ wordsOf rest := by
    rw [List.mem_append, or_iff_right]
    intro hmem
    rw [wordsOf_placeholders hcount] at hmem
    obtain ⟨i, -, heq⟩ := List.mem_map.mp hmem
    exact ne_placeholder (by decide) heq.symm
  rw [hwords, outlineOf_insert, wordsBefore_append hnames.noValues,
    wordsAfter_append hnames.noValues, List.filterMap_append, filterMap_placeholders hcount, hpairs]
  simp only [hconflict]

theorem append_returning : s ++ returning c = s ++ " " ++ ("RETURNING" ++ " " ++ c.list) := by
  have hreturning : " RETURNING " = " " ++ ("RETURNING" ++ " ") := by decide
  delta returning
  rw [hreturning]
  simp only [-String.reduceAppend, String.append_assoc]

/-- The columns that a statement returns follow a keyword. -/
theorem wordsOf_returned (hnames : AreNames c.names) :
    wordsOf ("RETURNING" ++ " " ++ c.list) = "RETURNING" :: c.names := by
  rw [wordsOf_blank, (by decide : IsWord "RETURNING").wordsOf_eq, Columns.list,
    wordsOf_names hnames.ne_nil hnames.words]
  rfl

/-- A text that updates rows sets columns to the parameters in their order. -/
theorem outlineOf_assignments {also condition : List String} (hnames : AreNames columns)
    (hwhere : "WHERE" ∉ also) (hnone : equations also = []) :
    outlineOf ("UPDATE" :: table :: "SET" ::
        (wordsOf (assignments columns) ++ also ++ "WHERE" :: condition)) =
      some ⟨.update, table, columns.zipIdx 1, equations condition⟩ := by
  have hplaces := wordsOf_assignments hnames.ne_nil hnames.words
  have hbefore : "WHERE" ∉ "SET" :: (wordsOf (assignments columns) ++ also) := by
    rw [hplaces, List.mem_cons, List.mem_append, List.mem_flatMap]
    rintro (heq | ⟨p, hp, hmem⟩ | hmem)
    · exact absurd heq (by decide)
    · simp only [List.mem_cons, List.not_mem_nil, or_false] at hmem
      rcases hmem with heq | heq | heq
      · exact hnames.noWhere (heq ▸ List.fst_mem_of_mem_zipIdx hp)
      · exact absurd heq (by decide)
      · exact ne_placeholder (by decide) heq
    · exact hwhere hmem
  have hsets : equations ("SET" :: (wordsOf (assignments columns) ++ also)) = columns.zipIdx 1 := by
    rw [equations_cons, hplaces, equations_placeholders, hnone, List.append_nil]
    obtain ⟨name, others, rfl⟩ := List.exists_cons_of_ne_nil hnames.ne_nil
    rw [hplaces]
    rintro ⟨⟩
    exact hnames.noEquals List.mem_cons_self
  rw [← List.cons_append, outlineOf_update, wordsBefore_append hbefore, wordsAfter_append hbefore,
    hsets]

end Texts

section Parameters

/-- Names are given the parameters that stand in the same order. -/
theorem fill_zipIdx {before parameters : List Parameter} (h : columns.length ≤ parameters.length) :
    fill (before ++ parameters) (columns.zipIdx (before.length + 1)) = columns.zip parameters := by
  induction columns generalizing before parameters with
  | nil => rfl
  | cons name columns ih =>
    cases parameters with
    | nil => exact absurd h (Nat.not_succ_le_zero _)
    | cons parameter parameters =>
      have hrest : fill (before ++ [parameter] ++ parameters)
          (columns.zipIdx ((before ++ [parameter]).length + 1)) = columns.zip parameters :=
        ih (Nat.le_of_succ_le_succ h)
      rw [List.append_assoc, List.singleton_append, List.length_append, List.length_singleton] at hrest
      rw [fill, List.zipIdx_cons, List.filterMap_cons_some (b := (name, parameter)) (by simp)]
      exact congrArg _ hrest

theorem fill_inOrder {parameters : List Parameter} (h : columns.length = parameters.length) :
    fill parameters (columns.zipIdx 1) = columns.zip parameters :=
  have hfill : fill ([] ++ parameters) (columns.zipIdx ([].length + 1)) = columns.zip parameters :=
    fill_zipIdx (Nat.le_of_eq h)
  hfill

end Parameters

end Recount.Database
