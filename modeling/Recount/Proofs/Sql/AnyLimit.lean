import Recount.Proofs.Parameters
import Recount.Proofs.Sql.Limiting
import Recount.Proofs.Sql.Reading

/-!
# One query for any limit

Whether a query can be written depends neither on its row limit, as long as that is within bounds, nor
on the dialect. The limit is stated once: directly after the first word, or by the last two words.
-/

namespace Recount.Sql

open Text
open List (Forall₂)

section Readers

/-- A word of digits. -/
def isNumber (word : List Char) : Bool := !word.isEmpty && word.all Char.isDigit

/-- The number of the row limit that stands directly after `SELECT`. -/
def topLimit? (sql : String) : Option String :=
  match blankWords sql with
  | select :: top :: number :: _ =>
    if select = "SELECT".toList ∧ top = "TOP".toList ∧ isNumber number then
      some (String.ofList number)
    else none
  | _ => none

/-- The number of the row limit that a text ends with. -/
def finalLimit? (sql : String) : Option String :=
  match (blankWords sql).reverse with
  | number :: limit :: _ =>
    if limit = "LIMIT".toList ∧ isNumber number then some (String.ofList number) else none
  | _ => none

variable {s t word key : String} {n : Nat}

/-- A text without blanks is one word. -/
def IsBlankFree (s : String) : Prop := ' ' ∉ s.toList

instance (s : String) : Decidable (IsBlankFree s) := inferInstanceAs (Decidable (¬ _))

theorem IsBlankFree.blankWords_eq (h : IsBlankFree s) : blankWords s = [s.toList] :=
  blankWords_of_word h

theorem isNumber_eq_false {c : Char} {word : List Char} (hc : c ∈ word) (hdigit : c.isDigit = false) :
    isNumber word = false := by
  rw [isNumber, Bool.and_eq_false_iff]
  exact .inr (List.all_eq_false.mpr ⟨c, hc, by simp [hdigit]⟩)

theorem isNumber_toString : isNumber (toString n).toList = true := by
  rw [Nat.toString_eq_repr, Nat.toList_repr, isNumber, Bool.and_eq_true, Bool.not_eq_true',
    List.isEmpty_eq_false_iff, List.all_eq_true]
  exact ⟨Nat.toDigits_ne_nil, fun c hc => Nat.isDigit_of_mem_toDigits (by decide) (by decide) hc⟩

theorem isBlankFree_toString : IsBlankFree (toString n) := by
  intro hmem
  rw [Nat.toString_eq_repr, Nat.toList_repr] at hmem
  exact absurd (Nat.isDigit_of_mem_toDigits (by decide) (by decide) hmem) (by decide)

/-- A limit that stands directly after `SELECT` is found. -/
theorem topLimit?_eq_some :
    topLimit? ("SELECT " ++ ("TOP " ++ (toString n ++ (" " ++ t)))) = some (toString n) := by
  have htext : "SELECT " ++ ("TOP " ++ (toString n ++ (" " ++ t))) =
      "SELECT" ++ " " ++ ("TOP" ++ " " ++ (toString n ++ " " ++ t)) := by
    change "SELECT" ++ " " ++ ("TOP" ++ " " ++ (toString n ++ (" " ++ t))) = _
    simp only [String.append_assoc]
  have hselect : blankWords "SELECT" = ["SELECT".toList] := by decide
  have htop : blankWords "TOP" = ["TOP".toList] := by decide
  have hwords : blankWords ("SELECT " ++ ("TOP " ++ (toString n ++ (" " ++ t)))) =
      "SELECT".toList :: "TOP".toList :: (toString n).toList :: blankWords t := by
    rw [htext, blankWords_append, blankWords_append, blankWords_append, hselect, htop,
      isBlankFree_toString.blankWords_eq]
    rfl
  rw [topLimit?, hwords]
  dsimp only
  rw [if_pos ⟨rfl, rfl, isNumber_toString⟩, String.ofList_toList]

/-- No limit stands directly after `SELECT`, where the first word or the second one is another. -/
theorem topLimit?_eq_none (hword : IsBlankFree word)
    (h : word ≠ "TOP" ∨ ∃ key rest, t = key ++ (" " ++ rest) ∧ IsBlankFree key ∧
      isNumber key.toList = false) : topLimit? ("SELECT " ++ (word ++ (" " ++ t))) = none := by
  have hselect : blankWords "SELECT" = ["SELECT".toList] := by decide
  have hwords : blankWords ("SELECT " ++ (word ++ (" " ++ t))) =
      "SELECT".toList :: word.toList :: blankWords t := by
    change blankWords ("SELECT" ++ " " ++ (word ++ (" " ++ t))) = _
    rw [blankWords_append, ← String.append_assoc, blankWords_append, hselect, hword.blankWords_eq]
    rfl
  rw [topLimit?, hwords]
  rcases h with hne | ⟨key, rest, rfl, hkey, hnumber⟩
  · split
    · next heq =>
      obtain ⟨-, heq⟩ := List.cons.inj heq
      obtain ⟨rfl, -⟩ := List.cons.inj heq
      rw [if_neg fun h => hne (String.toList_inj.mp h.2.1)]
    · rfl
  · rw [← String.append_assoc, blankWords_append, hkey.blankWords_eq]
    dsimp only [List.cons_append, List.nil_append]
    rw [hnumber, if_neg fun h => Bool.false_ne_true h.2.2]

/-- What the last two words say of a limit. -/
theorem finalLimit?_eq (hkey : IsBlankFree key) (hword : IsBlankFree word) :
    finalLimit? (s ++ (" " ++ key ++ " " ++ word)) =
      if key = "LIMIT" ∧ isNumber word.toList then some word else none := by
  have hwords : (blankWords (s ++ (" " ++ key ++ " " ++ word))).reverse =
      word.toList :: key.toList :: (blankWords s).reverse := by
    rw [← String.append_assoc, ← String.append_assoc, blankWords_append, ← String.append_assoc,
      blankWords_append, hkey.blankWords_eq, hword.blankWords_eq]
    simp
  rw [finalLimit?, hwords]
  dsimp only
  rw [String.ofList_toList]
  simp only [String.toList_inj]

end Readers

section Ends

variable {s t word key separator : String} {pieces : List String}

/-- A text whose end states no limit, whatever stands before it. -/
def EndsUnlimited (s : String) : Prop := ∀ before, finalLimit? (before ++ s) = none

theorem EndsUnlimited.prepend (h : EndsUnlimited t) : EndsUnlimited (s ++ t) := by
  intro before
  rw [← String.append_assoc]
  exact h (before ++ s)

/-- The last word is no number. -/
theorem endsUnlimited_of_word (hfree : IsBlankFree word) (hnumber : isNumber word.toList = false) :
    EndsUnlimited (" " ++ word) := by
  intro before
  rw [finalLimit?, ← String.append_assoc, blankWords_append, hfree.blankWords_eq,
    List.reverse_append, List.reverse_singleton, List.singleton_append]
  split
  · next heq =>
    obtain ⟨rfl, -⟩ := List.cons.inj heq
    rw [hnumber, if_neg (fun h => Bool.false_ne_true h.2)]
  · rfl

/-- The word before the last one is not the keyword of a limit. -/
theorem endsUnlimited_of_key (hkey : IsBlankFree key) (hword : IsBlankFree word)
    (hne : key ≠ "LIMIT") : EndsUnlimited (" " ++ key ++ " " ++ word) := by
  intro before
  rw [finalLimit?_eq hkey hword, if_neg fun h => hne h.1]

/-- The last word ends with a bracket. -/
theorem endsUnlimited_bracket : EndsUnlimited (s ++ ")") := by
  intro before
  have hlast : ∀ cs : List Char, ∃ words word,
      splitChars ' ' (cs ++ [')']) = words ++ [word ++ [')']] := by
    intro cs
    induction cs with
    | nil => exact ⟨[], [], rfl⟩
    | cons c cs ih =>
      obtain ⟨words, word, heq⟩ := ih
      rw [List.cons_append, splitChars, heq]
      split
      · exact ⟨[] :: words, word, rfl⟩
      · cases words with
        | nil => exact ⟨[], c :: word, rfl⟩
        | cons first words => exact ⟨(c :: first) :: words, word, rfl⟩
  obtain ⟨words, word, heq⟩ := hlast (before ++ s).toList
  have hwords : blankWords (before ++ (s ++ ")")) = words ++ [word ++ [')']] := by
    rw [blankWords, ← String.append_assoc, String.toList_append]
    exact heq
  rw [finalLimit?, hwords, List.reverse_append, List.reverse_singleton, List.singleton_append]
  split
  · next heq =>
    obtain ⟨rfl, -⟩ := List.cons.inj heq
    have hnumber : isNumber (word ++ [')']) = false :=
      isNumber_eq_false (List.mem_append_right word (List.mem_singleton_self ')')) (by decide)
    rw [hnumber, if_neg (fun h => Bool.false_ne_true h.2)]
  · rfl

theorem endsUnlimited_join (hne : pieces ≠ []) (hpieces : ∀ s ∈ pieces, EndsUnlimited s) :
    EndsUnlimited (Text.join separator pieces) := by
  unfold Text.join
  induction pieces with
  | nil => exact absurd rfl hne
  | cons s pieces ih =>
    obtain ⟨hs, hpieces⟩ := List.forall_mem_cons.mp hpieces
    cases pieces with
    | nil => exact hs
    | cons t pieces =>
      rw [String.intercalate_cons_cons]
      exact (ih (List.cons_ne_nil t pieces) hpieces).prepend

theorem endsUnlimited_concat (hne : pieces ≠ []) (hpieces : ∀ s ∈ pieces, EndsUnlimited s) :
    EndsUnlimited (String.join pieces) := by
  induction pieces with
  | nil => exact absurd rfl hne
  | cons s pieces ih =>
    obtain ⟨hs, hpieces⟩ := List.forall_mem_cons.mp hpieces
    rw [String.join_cons]
    cases pieces with
    | nil =>
      rw [String.join_nil, String.append_empty]
      exact hs
    | cons t pieces => exact (ih (List.cons_ne_nil t pieces) hpieces).prepend

end Ends

section Parts

variable {d : Dialect} {a : Aliases} {table name : String} {used : List String}

theorem isBlankFree_of_isMadeOf {p : Char → Bool} {s : String} (h : IsMadeOf p s)
    (hp : p ' ' = false) : IsBlankFree s := fun hmem => by
  rw [h ' ' hmem] at hp
  cases hp

theorem isBlankFree_of_isNameChar {s : String} (h : IsMadeOf isNameChar s) : IsBlankFree s :=
  isBlankFree_of_isMadeOf h (by decide)

theorem not_isDigit_of_isAlpha {c : Char} (h : c.isAlpha = true) : c.isDigit = false := by
  simp only [Char.isAlpha, Char.isUpper, Char.isLower, Bool.or_eq_true, Bool.and_eq_true,
    decide_eq_true_eq, ge_iff_le, UInt32.le_iff_toNat_le] at h
  simp only [Char.isDigit, Bool.and_eq_false_iff, decide_eq_false_iff_not, ge_iff_le,
    UInt32.le_iff_toNat_le]
  have hnine : ('9'.val).toNat = 57 := rfl
  have hupper : ('A'.val).toNat = 65 := rfl
  have hlower : ('a'.val).toNat = 97 := rfl
  omega

/-- The beginnings of an alias have their first character in common, and this is no digit. -/
theorem exists_head_candidates (table : String) : ∃ c cs ds, c.isDigit = false ∧
    (Aliases.candidates table).1.toList = c :: cs ∧ (Aliases.candidates table).2.toList = c :: ds := by
  have hletter : ∀ c : Char, (c.isAlpha || c == '_') = true → c.isDigit = false := by
    intro c hc
    rcases Bool.or_eq_true_iff.mp hc with hc | hc
    · exact not_isDigit_of_isAlpha hc
    · rw [beq_iff_eq.mp hc]
      decide
  unfold Aliases.candidates
  generalize (Aliases.bareName table).filter isAsciiWord = cs
  dsimp only
  generalize cs.head?.getD 't' = first
  rw [String.toList_ofList, String.toList_ofList]
  split
  · next hfirst =>
    refine ⟨first, [], ?_⟩
    split <;> exact ⟨_, hletter first hfirst, rfl, rfl⟩
  · refine ⟨'t', [first], ?_⟩
    split <;> exact ⟨_, by decide, rfl, rfl⟩

theorem isNumber_generate : isNumber (Aliases.generate table used).toList = false := by
  obtain ⟨c, cs, ds, hdigit, hone, htwo⟩ := exists_head_candidates table
  have hc : c ∈ (Aliases.candidates table).1.toList := hone ▸ List.mem_cons_self
  have he : c ∈ (Aliases.candidates table).2.toList := htwo ▸ List.mem_cons_self
  unfold Aliases.generate
  generalize Aliases.candidates table = beginnings at hc he ⊢
  obtain ⟨base, two⟩ := beginnings
  dsimp only at hc he ⊢
  split
  · exact isNumber_eq_false hc hdigit
  · split
    · exact isNumber_eq_false he hdigit
    · cases hfind : ((List.range (used.length + 1)).map fun n => two ++ toString (n + 2)).find?
          fun name => !used.contains name with
      | none => exact isNumber_eq_false he hdigit
      | some name =>
        obtain ⟨n, -, rfl⟩ := List.mem_map.mp (List.mem_of_find?_eq_some hfind)
        rw [Option.getD_some, String.toList_append]
        exact isNumber_eq_false (List.mem_append_left _ he) hdigit

theorem isNumber_main {mainTable : String} {joins : List Join}
    (h : Aliases.build mainTable joins = .ok a) : isNumber a.main.toList = false := by
  obtain ⟨used, -, h⟩ := bind_eq_ok_iff.mp h
  cases h
  exact isNumber_generate

/-- The last word of an operator is neither the keyword of a limit nor a number. -/
theorem exists_last_operator (operator : FilterOperator) : ∃ lead key,
    " " ++ operator.sql = lead ++ (" " ++ key) ∧ IsBlankFree key ∧ key ≠ "LIMIT" ∧
      isNumber key.toList = false := by
  have hword : ∀ key, (IsBlankFree key ∧ key ≠ "LIMIT" ∧ isNumber key.toList = false) →
      ∃ lead key', " " ++ key = lead ++ (" " ++ key') ∧ IsBlankFree key' ∧ key' ≠ "LIMIT" ∧
        isNumber key'.toList = false := fun key hkey => ⟨"", key, rfl, hkey⟩
  cases operator with
  | isNull => exact ⟨" IS", "NULL", rfl, by decide⟩
  | isNotNull => exact ⟨" IS NOT", "NULL", rfl, by decide⟩
  | _ => exact hword _ (by decide)

theorem isBlankFree_placeholder (index : Nat) : IsBlankFree (d.placeholder index) := by
  obtain ⟨name, hchars, hword, -⟩ := exists_placeholder (d := d) index
  intro hmem
  rw [hchars] at hmem
  rcases List.mem_cons.mp hmem with heq | hmem
  · cases d <;> cases heq
  · exact absurd (hword ' ' hmem) (by decide)

/-- A join ends with the second reference of a condition. -/
theorem endsUnlimited_joined
    (haliases : ∀ name other, a.resolve? name = some other → isIdentifier other.toList = true)
    {j : Join} {t : JoinedTable} (hne : j.conditions ≠ []) (h : resolveJoin a j name = .ok t) : EndsUnlimited t.text := by
  obtain ⟨conditions, hconditions, h⟩ := bind_eq_ok_iff.mp h
  cases h
  have hwritten := mapM_eq_ok_iff.mp hconditions
  refine EndsUnlimited.prepend (endsUnlimited_join (fun hnil => ?_) fun s hs => ?_)
  · have hlength := hwritten.length_eq
    have hnone : conditions = [] := List.map_eq_nil_iff.mp hnil
    rw [hnone, List.length_nil, List.length_eq_zero_iff] at hlength
    exact hne hlength
  · obtain ⟨p, hmem, rfl⟩ := List.mem_map.mp hs
    obtain ⟨c, -, hc⟩ := exists_mem_of_forall₂ hwritten hmem
    obtain ⟨_, hleft, hc⟩ := bind_eq_ok_iff.mp hc
    obtain ⟨_, hright, hc⟩ := bind_eq_ok_iff.mp hc
    cases hc
    have hend : EndsUnlimited (" " ++ "=" ++ " " ++ a.rewrite c.right) :=
      endsUnlimited_of_key (by decide) (isBlankFree_of_isNameChar (isMadeOf_rewrite haliases hright))
        (by decide)
    change EndsUnlimited (a.rewrite c.left ++ " = " ++ a.rewrite c.right)
    rw [String.append_assoc]
    exact hend.prepend

/-- A condition ends with a comparison and a placeholder, with a word, or with a bracket. -/
theorem endsUnlimited_condition {f : Filter} {c : Condition} {first : Nat}
    (h : resolveFilter a f = .ok c) : EndsUnlimited (c.text d first) := by
  obtain ⟨lead, key, hoperator, hkey, hne, hnumber⟩ := exists_last_operator f.operator
  unfold Condition.text
  obtain htest | htest | ⟨operands, htest⟩ := (resolveFilter_eq_ok h).2.2
  · simp only [htest, String.append_assoc, hoperator]
    exact (endsUnlimited_of_word hkey hnumber).prepend.prepend
  · have hend := endsUnlimited_of_key hkey (isBlankFree_placeholder (d := d) first) hne
    have hshift : ∀ t, " " ++ (f.operator.sql ++ t) = lead ++ (" " ++ (key ++ t)) := by
      intro t
      rw [← String.append_assoc, hoperator]
      simp only [String.append_assoc]
    simp only [String.append_assoc] at hend
    simp only [htest, String.append_assoc, hshift]
    exact hend.prepend.prepend
  · simp only [htest]
    exact endsUnlimited_bracket

end Parts

/-- What stands between the limits of a statement, of which at most one is there. -/
def Select.body (d : Dialect) (s : Select) : String :=
  s.columnsText d ++ s.tablesText ++
    if s.conditions.isEmpty then ""
    else " WHERE " ++ Text.join " AND " (conditionTexts d 1 s.conditions)

section Body

variable {d : Dialect} {s : Select} {catalog : Option Catalog} {spec : QuerySpec} {limit : Option Nat}

theorem Select.text_eq_body :
    s.text d = "SELECT " ++ d.topClause s.limit ++ s.body d ++ d.limitClause s.limit := by
  rw [Select.text_eq, Select.front, Select.back, Select.body]
  simp only [String.append_assoc]

/-- A statement ends with a condition, with a join, or with the alias of its table. -/
theorem endsUnlimited_body (h : resolve catalog spec = .ok s) : EndsUnlimited (s.body d) := by
  obtain ⟨a, haliases, -, hmain, -, hjoins, hconditions⟩ := exists_aliases h
  obtain ⟨a', -, -, hbuild, -, -, -, -, halias⟩ := resolve_parts h
  unfold Select.body
  split
  · next hempty =>
    rw [String.append_empty]
    refine EndsUnlimited.prepend ?_
    unfold Select.tablesText
    by_cases hnone : s.joins = []
    · rw [hnone, List.map_nil, String.join_nil, String.append_empty, String.append_assoc]
      refine (endsUnlimited_of_word ?_ ?_).prepend
      · exact isBlankFree_of_isNameChar (isMadeOf_of_isIdentifier hmain)
      · exact halias ▸ isNumber_main hbuild
    · refine (endsUnlimited_concat (by simpa using hnone) fun text htext => ?_).prepend
      obtain ⟨t, ht, rfl⟩ := List.mem_map.mp htext
      obtain ⟨j, name, -, -, hsome, ht⟩ := hjoins t ht
      exact endsUnlimited_joined haliases hsome ht
  · next hsome =>
    refine (EndsUnlimited.prepend (endsUnlimited_join ?_ fun text htext => ?_)).prepend
    · cases hcs : s.conditions with
      | nil => simp [hcs] at hsome
      | cons c cs => exact List.cons_ne_nil _ _
    · obtain ⟨c, hc, first, rfl⟩ := exists_of_mem_conditionTexts htext
      obtain ⟨f, -, hf⟩ := exists_mem_of_forall₂ hconditions hc
      exact endsUnlimited_condition hf

/-- The first output column is a single word, or has its alias after it. -/
theorem topLimit?_columns {o : OutputColumn} {os : List OutputColumn} {rest : String}
    (hfree : IsBlankFree o.reference) :
    topLimit? ("SELECT " ++ (Text.join ", " ((o :: os).map (OutputColumn.text d)) ++
      (" " ++ ("FROM" ++ (" " ++ rest))))) = none := by
  obtain ⟨more, hmore⟩ : ∃ more, Text.join ", " ((o :: os).map (OutputColumn.text d)) =
      o.text d ++ more ∧ (more = "" ∨ ∃ others, more = "," ++ (" " ++ others)) := by
    cases os with
    | nil => exact ⟨"", (String.append_empty).symm, .inl rfl⟩
    | cons other os =>
      have hcomma : ∀ t, ", " ++ t = "," ++ (" " ++ t) := fun t => by
        rw [← String.append_assoc]
        rfl
      refine ⟨", " ++ Text.join ", " ((other :: os).map (OutputColumn.text d)), ?_,
        .inr ⟨Text.join ", " ((other :: os).map (OutputColumn.text d)), hcomma _⟩⟩
      rw [← String.append_assoc]
      exact String.intercalate_cons_cons
  rw [hmore.1, OutputColumn.text]
  cases halias : o.alias? with
  | some name =>
    have has : ∀ t, " AS " ++ t = " " ++ ("AS" ++ (" " ++ t)) := fun t => by
      rw [← String.append_assoc, ← String.append_assoc]
      rfl
    simp only [String.append_assoc, has]
    exact topLimit?_eq_none hfree (.inr ⟨"AS", _, rfl, by decide, by decide⟩)
  | none =>
    dsimp only
    rcases hmore.2 with rfl | ⟨others, rfl⟩
    · rw [String.append_empty]
      exact topLimit?_eq_none hfree (.inr ⟨"FROM", rest, rfl, by decide, by decide⟩)
    · have hcomma : IsBlankFree (o.reference ++ ",") := by
        rw [IsBlankFree, String.toList_append, List.mem_append]
        exact fun hmem => hmem.elim hfree (by decide)
      have htext : o.reference ++ ("," ++ (" " ++ others)) ++ (" " ++ ("FROM" ++ (" " ++ rest))) =
          o.reference ++ "," ++ (" " ++ (others ++ (" " ++ ("FROM" ++ (" " ++ rest))))) := by
        simp only [String.append_assoc]
      rw [htext]
      refine topLimit?_eq_none hcomma (.inl fun heq => ?_)
      have hmem : ',' ∈ (o.reference ++ ",").toList := by simp
      rw [heq] at hmem
      exact absurd hmem (by decide)

/-- The output columns begin with a reference, after which comes no number. -/
theorem startsUnlimited_body (h : resolve catalog spec = .ok s) (t : String) :
    topLimit? ("SELECT " ++ (s.body d ++ t)) = none := by
  obtain ⟨a, haliases, -, hmain, hcolumns, -, -⟩ := exists_aliases h
  have hfrom : ∃ rest, s.body d ++ t = s.columnsText d ++ (" " ++ ("FROM" ++ (" " ++ rest))) := by
    unfold Select.body Select.tablesText
    refine ⟨s.table ++ " " ++ s.alias_ ++ String.join (s.joins.map JoinedTable.text) ++
      (if s.conditions.isEmpty then ""
        else " WHERE " ++ Text.join " AND " (conditionTexts d 1 s.conditions)) ++ t, ?_⟩
    have hword : ∀ u, " FROM " ++ u = " " ++ ("FROM" ++ (" " ++ u)) := fun u => by
      rw [← String.append_assoc, ← String.append_assoc]
      rfl
    simp only [String.append_assoc, hword]
  obtain ⟨rest, hfrom⟩ := hfrom
  have hnumber : isNumber "FROM".toList = false := by decide
  rw [hfrom]
  unfold Select.columnsText
  split
  · refine topLimit?_eq_none ?_ (.inr ⟨"FROM", rest, rfl, by decide, hnumber⟩)
    refine isBlankFree_of_isNameChar (isMadeOf_append.mpr ⟨?_, by decide⟩)
    exact isMadeOf_of_isIdentifier hmain
  · next hsome =>
    cases hs : s.columns with
    | nil => simp [hs] at hsome
    | cons o os =>
      obtain ⟨c, -, hc⟩ := exists_mem_of_forall₂ hcolumns (hs ▸ List.mem_cons_self : o ∈ s.columns)
      obtain ⟨heq, _, hcheck⟩ := resolveColumn_eq_ok hc
      exact topLimit?_columns (heq ▸ isBlankFree_of_isNameChar (isMadeOf_rewrite haliases hcheck))

/-- A query states a row limit once, in the place where its dialect has it. -/
structure StatesLimit (d : Dialect) (n : Nat) (sql : String) : Prop where
  top : topLimit? sql = if d = .msSql then some (toString n) else none
  final : finalLimit? sql = if d = .msSql then none else some (toString n)

/-- A statement with a limit states it, and no other one. -/
theorem statesLimit_text (h : resolve catalog spec = .ok s) (n : Nat) :
    StatesLimit d n ("SELECT " ++ d.topClause (some n) ++ s.body d ++ d.limitClause (some n)) := by
  by_cases hd : d = .msSql
  · subst hd
    have htop : Dialect.msSql.topClause (some n) = "TOP " ++ toString n ++ " " := rfl
    have hlimit : Dialect.msSql.limitClause (some n) = "" := rfl
    rw [htop, hlimit, String.append_empty]
    refine ⟨?_, endsUnlimited_body h _⟩
    simp only [String.append_assoc]
    exact topLimit?_eq_some
  · have htop : d.topClause (some n) = "" := by
      cases d <;> first | rfl | exact absurd rfl hd
    have hlimit : d.limitClause (some n) = " " ++ "LIMIT" ++ " " ++ toString n := by
      cases d <;> first | rfl | exact absurd rfl hd
    rw [htop, hlimit, String.append_empty]
    refine ⟨?_, ?_⟩
    · rw [if_neg hd, String.append_assoc]
      exact startsUnlimited_body h _
    · rw [if_neg hd, finalLimit?_eq (by decide) isBlankFree_toString,
        if_pos ⟨rfl, isNumber_toString⟩]

/-- A specification with another limit is resolved to the same statement with this limit. -/
theorem resolve_withLimit (h : resolve catalog spec = .ok s) (hlimit : checkLimit limit = .ok ()) :
    resolve catalog { spec with limit := limit } = .ok { s with limit := limit } := by
  obtain ⟨-, htable, hjoined, a, columns, joins, conditions, hbuild, hcolumns, hjoins, hconditions,
    rfl⟩ := resolve_eq_ok_iff.mp h
  exact resolve_eq_ok_iff.mpr ⟨hlimit, htable, hjoined, a, columns, joins, conditions, hbuild,
    hcolumns, hjoins, hconditions, rfl⟩

theorem checkLimit_of_le {n : Nat} (hpos : 1 ≤ n) (hle : n ≤ maxRows) :
    checkLimit (some n) = .ok () := by
  rw [checkLimit, if_neg (by omega), if_neg (by omega)]

/-- A mapping whose query can be written without a limit in one dialect has a query for any limit
within bounds in any dialect, with the values of its filters as parameters. -/
theorem compile_anyLimit {m : Mapping} {q : Query} (h : Compiler.compile ⟨d, none⟩ (.ofMapping m none) = .ok q) :
    ∃ body : Dialect → String, ∀ (e : Dialect) (n : Nat), 1 ≤ n → n ≤ maxRows → ∃ sql,
      Compiler.compile ⟨e, none⟩ (.ofMapping m (some n)) =
        .ok ⟨sql, m.filters.flatMap Filter.operands⟩ ∧
      sql = "SELECT " ++ e.topClause (some n) ++ body e ++ e.limitClause (some n) ∧
      StatesLimit e n sql := by
  obtain ⟨s, hs, -⟩ := compile_eq_ok h
  refine ⟨fun e => s.body e, fun e n hpos hle => ?_⟩
  have hlimited := resolve_withLimit hs (checkLimit_of_le hpos hle)
  refine ⟨_, ?_, rfl, statesLimit_text hs n⟩
  have hparameters := parameters_of_resolve hlimited
  unfold Compiler.compile
  change (resolve none _).map _ = _
  rw [show QuerySpec.ofMapping m (some n) = { QuerySpec.ofMapping m none with limit := some n } from rfl,
    hlimited]
  change Except.ok (⟨_, _⟩ : Query) = _
  rw [hparameters, Select.text_eq_body]
  rfl

end Body

end Recount.Sql
