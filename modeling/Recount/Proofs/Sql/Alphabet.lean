import Recount.Proofs.Sql.Placeholders
import Recount.Proofs.Sql.Resolving

/-!
# The characters of a statement

Tables, aliases and references are made of identifiers, points and stars. Besides them, a statement
has words and blanks, commas and brackets, the signs of comparisons and of placeholders, and the
quotes around output aliases.
-/

namespace Recount.Sql

open Text
open List (Forall₂)

/-- All characters of a text are in a class. -/
def IsMadeOf (p : Char → Bool) (s : String) : Prop := ∀ c ∈ s.toList, p c = true

instance (p : Char → Bool) (s : String) : Decidable (IsMadeOf p s) :=
  decidable_of_iff (s.toList.all p = true) List.all_eq_true

/-- A character of a table or of a reference. -/
def isNameChar (c : Char) : Bool := isAsciiWord c || c == '.' || c == '*'

/-- A character that stands before the conditions of a statement, where these are the quotes. -/
def isFrontChar (quotes : List Char) (c : Char) : Bool :=
  isNameChar c || [' ', ',', '='].contains c || quotes.contains c

/-- A character of a statement that is no quote. -/
def isStatementChar (c : Char) : Bool :=
  isAsciiWord c || ['.', ',', '(', ')', '=', '<', '>', '*', '$', '?', '@', ' '].contains c

/-- The quote before an output alias. -/
def Dialect.opening : Dialect → Char
  | .postgres => '"'
  | .mySql => '\x60'
  | .msSql => '['

/-- The quote after an output alias. -/
def Dialect.closing : Dialect → Char
  | .postgres => '"'
  | .mySql => '\x60'
  | .msSql => ']'

/-- The quotes around an output alias. -/
def Dialect.quotes (d : Dialect) : List Char := [d.opening, d.closing]

/-- A character that may stand in a statement. -/
def isPermitted (d : Dialect) (c : Char) : Bool := isStatementChar c || d.quotes.contains c

variable {d : Dialect} {p q : Char → Bool} {s t separator : String} {pieces : List String} {c : Char}

section Texts

theorem IsMadeOf.mono (h : IsMadeOf p s) (hpq : ∀ c, p c = true → q c = true) : IsMadeOf q s :=
  fun c hc => hpq c (h c hc)

@[simp] theorem isMadeOf_append : IsMadeOf p (s ++ t) ↔ IsMadeOf p s ∧ IsMadeOf p t := by
  rw [IsMadeOf, String.toList_append, List.forall_mem_append]
  rfl

theorem isMadeOf_concat (h : ∀ s ∈ pieces, IsMadeOf p s) : IsMadeOf p (String.join pieces) := by
  induction pieces with
  | nil => exact fun c hc => absurd hc List.not_mem_nil
  | cons s pieces ih =>
    rw [String.join_cons, isMadeOf_append]
    exact ⟨h s List.mem_cons_self, ih fun t ht => h t (List.mem_cons_of_mem s ht)⟩

theorem isMadeOf_join (hseparator : IsMadeOf p separator) (hpieces : ∀ s ∈ pieces, IsMadeOf p s) :
    IsMadeOf p (join separator pieces) := by
  unfold join
  induction pieces with
  | nil => exact fun c hc => absurd hc List.not_mem_nil
  | cons s pieces ih =>
    have hs := hpieces s List.mem_cons_self
    have hrest := ih fun t ht => hpieces t (List.mem_cons_of_mem s ht)
    cases pieces with
    | nil => exact hs
    | cons t pieces =>
      rw [String.intercalate_cons_cons, isMadeOf_append, isMadeOf_append]
      exact ⟨⟨hs, hseparator⟩, hrest⟩

end Texts

section Classes

theorem isNameChar_of_isAsciiWord (h : isAsciiWord c = true) : isNameChar c = true := by
  simp [isNameChar, h]

theorem isFrontChar_of_isNameChar {quotes : List Char} (h : isNameChar c = true) :
    isFrontChar quotes c = true := by
  simp [isFrontChar, h]

theorem isFrontChar_of_isPlain {quotes : List Char} (h : isPlain c = true) :
    isFrontChar quotes c = true := by
  rcases Bool.or_eq_true_iff.mp h with hword | hblank
  · exact isFrontChar_of_isNameChar (isNameChar_of_isAsciiWord hword)
  · simp [isFrontChar, beq_iff_eq.mp hblank]

theorem isFrontChar_mono {quotes : List Char} (h : isFrontChar [] c = true) :
    isFrontChar quotes c = true := by
  simp only [isFrontChar, List.contains_nil, Bool.or_false, Bool.or_eq_true] at h ⊢
  exact .inl h

theorem isStatementChar_of_isNameChar (h : isNameChar c = true) : isStatementChar c = true := by
  simp only [isNameChar, Bool.or_eq_true, beq_iff_eq] at h
  rcases h with (hword | rfl) | rfl
  · simp [isStatementChar, hword]
  · decide
  · decide

theorem isStatementChar_of_isPlain (h : isPlain c = true) : isStatementChar c = true := by
  rcases Bool.or_eq_true_iff.mp h with hword | hblank
  · exact isStatementChar_of_isNameChar (isNameChar_of_isAsciiWord hword)
  · rw [beq_iff_eq.mp hblank]
    decide

theorem isStatementChar_of_isSign (h : isSign c = true) : isStatementChar c = true := by
  simp only [isSign, Bool.or_eq_true, beq_iff_eq] at h
  rcases h with (rfl | rfl) | rfl <;> decide

theorem isPermitted_of_isStatementChar (h : isStatementChar c = true) : isPermitted d c = true := by
  simp [isPermitted, h]

/-- What stands in front of conditions is permitted. -/
theorem isPermitted_of_isFrontChar (h : isFrontChar d.quotes c = true) : isPermitted d c = true := by
  simp only [isFrontChar, Bool.or_eq_true] at h
  rcases h with (hname | hother) | hquote
  · exact isPermitted_of_isStatementChar (isStatementChar_of_isNameChar hname)
  · refine isPermitted_of_isStatementChar ?_
    have hcases : c = ' ' ∨ c = ',' ∨ c = '=' := by simpa using hother
    rcases hcases with rfl | rfl | rfl <;> decide
  · simp [isPermitted, List.contains_iff_mem.mp hquote]

theorem not_isSign_of_isNameChar (h : isNameChar c = true) : isSign c = false := by
  simp only [isNameChar, Bool.or_eq_true, beq_iff_eq] at h
  rcases h with (hword | rfl) | rfl
  · exact not_isSign_of_isAsciiWord hword
  · decide
  · decide

/-- No sign of a placeholder stands in front of conditions. -/
theorem not_isSign_of_isFrontChar (h : isFrontChar d.quotes c = true) : isSign c = false := by
  simp only [isFrontChar, Bool.or_eq_true] at h
  rcases h with (hname | hother) | hquote
  · exact not_isSign_of_isNameChar hname
  · have hcases : c = ' ' ∨ c = ',' ∨ c = '=' := by simpa using hother
    rcases hcases with rfl | rfl | rfl <;> decide
  · have hquotes : d.quotes.all (fun c => !isSign c) = true := by cases d <;> decide
    simpa using List.all_eq_true.mp hquotes c (List.contains_iff_mem.mp hquote)

theorem isSignFree_of_isMadeOf (h : IsMadeOf p s) (hp : ∀ c, p c = true → isSign c = false) :
    isSignFree s = true :=
  isSignFree_iff.mpr fun c hc => hp c (h c hc)

end Classes

section Names

variable {a : Aliases} {catalog : Option Catalog} {reference table : String}

theorem isMadeOf_of_isIdentifier {name : String} (h : isIdentifier name.toList = true) :
    IsMadeOf isNameChar name :=
  fun c hc => isNameChar_of_isAsciiWord ((isIdentifier_iff.mp h).2 c hc)

theorem isMadeOf_of_isPart {name : String} (h : IsPart name.toList) : IsMadeOf isNameChar name := by
  rcases h with h | h
  · exact isMadeOf_of_isIdentifier h
  · intro c hc
    rw [h, List.mem_singleton] at hc
    rw [hc]
    decide

/-- A checked table is made of identifiers and points. -/
theorem isMadeOf_of_checkTable {u : Unit} (h : checkTable catalog table = .ok u) :
    IsMadeOf isNameChar table := by
  obtain ⟨_, h, -⟩ := bind_eq_ok_iff.mp h
  obtain ⟨-, hparts⟩ := checkTableReference_eq_ok_iff.mp h
  intro c hc
  by_cases hdot : c = '.'
  · rw [hdot]
    decide
  · obtain ⟨part, hpart, hin⟩ := exists_piece_of_mem hc hdot
    have hident := List.all_eq_true.mp hparts part hpart
    exact isNameChar_of_isAsciiWord ((isIdentifier_iff.mp hident).2 c hin)

/-- References are rewritten as references. -/
theorem isMadeOf_rewrite {allowStar : Bool} {u : Unit}
    (haliases : ∀ name other, a.resolve? name = some other → isIdentifier other.toList = true)
    (h : checkColumnReference reference allowStar = .ok u) :
    IsMadeOf isNameChar (a.rewrite reference) := by
  have hresolved : ∀ name, IsMadeOf isNameChar name →
      IsMadeOf isNameChar ((a.resolve? name).getD name) := by
    intro name hname
    cases hother : a.resolve? name with
    | none => exact hname
    | some other => exact isMadeOf_of_isIdentifier (haliases name other hother)
  have hdot : IsMadeOf isNameChar "." := by decide
  obtain hpart | ⟨table, column, rfl, htable, hcolumn⟩ |
    ⟨schema, table, column, rfl, hschema, htable, hcolumn⟩ := reference_cases h
  · rw [rewrite_column hpart]
    exact isMadeOf_of_isPart hpart
  · have htable' := isMadeOf_of_isIdentifier htable
    have hcolumn' := isMadeOf_of_isPart hcolumn
    rw [rewrite_two htable hcolumn]
    split <;> simp [*]
  · have hschema' := isMadeOf_of_isIdentifier hschema
    have htable' := isMadeOf_of_isIdentifier htable
    have hcolumn' := isMadeOf_of_isPart hcolumn
    rw [rewrite_three hschema htable hcolumn]
    repeat' split
    all_goals simp [*]

end Names

section Parts

variable {a : Aliases}
  (haliases : ∀ name other, a.resolve? name = some other → isIdentifier other.toList = true)

theorem toList_quoteAlias {name : String} :
    (d.quoteAlias name).toList = d.opening :: (name.toList ++ [d.closing]) := by
  rw [Dialect.quoteAlias, String.toList_append, String.toList_append]
  cases d <;> rfl

theorem isMadeOf_quoteAlias {name : String} (h : isIdentifier name.toList = true) :
    IsMadeOf (isFrontChar d.quotes) (d.quoteAlias name) := by
  have hname : IsMadeOf (isFrontChar d.quotes) name :=
    (isMadeOf_of_isIdentifier h).mono fun _ => isFrontChar_of_isNameChar
  have hquotes : ∀ c ∈ d.quotes, isFrontChar d.quotes c = true := by
    intro c hc
    simp [isFrontChar, hc]
  intro c hc
  rw [toList_quoteAlias, List.mem_cons, List.mem_append, List.mem_singleton] at hc
  rcases hc with rfl | hc | rfl
  · exact hquotes _ (by simp [Dialect.quotes])
  · exact hname c hc
  · exact hquotes _ (by simp [Dialect.quotes])

/-- The placeholder of a parameter is a sign with a word. -/
theorem isMadeOf_placeholder (index : Nat) : IsMadeOf isStatementChar (d.placeholder index) := by
  obtain ⟨name, hchars, hword, -⟩ := exists_placeholder (d := d) index
  intro c hc
  rw [hchars] at hc
  rcases List.mem_cons.mp hc with rfl | hc
  · exact isStatementChar_of_isSign isSign_sign
  · exact isStatementChar_of_isNameChar (isNameChar_of_isAsciiWord (hword c hc))

include haliases

/-- An output column is a reference, or one with an alias in quotes. -/
theorem isMadeOf_column {c : SelectColumn} {o : OutputColumn} (h : resolveColumn a c = .ok o) :
    IsMadeOf (isFrontChar d.quotes) (o.text d) := by
  obtain ⟨_, hcheck, h⟩ := bind_eq_ok_iff.mp h
  have hreference : IsMadeOf (isFrontChar d.quotes) (a.rewrite c.expression) :=
    (isMadeOf_rewrite haliases hcheck).mono fun _ => isFrontChar_of_isNameChar
  have has : IsMadeOf (isFrontChar d.quotes) " AS " := by cases d <;> decide
  dsimp only at h
  split at h
  · split at h
    · cases h
      exact hreference
    · obtain ⟨_, halias, h⟩ := bind_eq_ok_iff.mp h
      cases h
      have hquoted := isMadeOf_quoteAlias (d := d) (Aliases.checkAlias_eq_ok_iff.mp halias)
      simp [OutputColumn.text, hreference, has, hquoted]
  · cases h
    exact hreference

/-- A joined table has no quotes. -/
theorem isMadeOf_joined {j : Join} {name : String} {t : JoinedTable}
    (htable : IsMadeOf isNameChar j.table) (hname : isIdentifier name.toList = true)
    (h : resolveJoin a j name = .ok t) : IsMadeOf (isFrontChar []) t.text := by
  obtain ⟨conditions, hconditions, h⟩ := bind_eq_ok_iff.mp h
  cases h
  have hnames : ∀ {s : String}, IsMadeOf isNameChar s → IsMadeOf (isFrontChar []) s :=
    fun hs => hs.mono fun _ => isFrontChar_of_isNameChar
  have hkeyword : IsMadeOf (isFrontChar []) j.kind.keyword := by
    cases j.kind <;> decide
  have hequals : IsMadeOf (isFrontChar []) " = " := by decide
  have hpieces : ∀ s ∈ conditions.map (fun p => p.1 ++ " = " ++ p.2),
      IsMadeOf (isFrontChar []) s := by
    intro s hs
    obtain ⟨p, hmem, rfl⟩ := List.mem_map.mp hs
    obtain ⟨c, -, hc⟩ := exists_mem_of_forall₂ (mapM_eq_ok_iff.mp hconditions) hmem
    obtain ⟨_, hleft, hc⟩ := bind_eq_ok_iff.mp hc
    obtain ⟨_, hright, hc⟩ := bind_eq_ok_iff.mp hc
    cases hc
    simp [hnames (isMadeOf_rewrite haliases hleft), hnames (isMadeOf_rewrite haliases hright),
      hequals]
  have hwords : IsMadeOf (isFrontChar []) " " ∧ IsMadeOf (isFrontChar []) " JOIN " ∧
      IsMadeOf (isFrontChar []) " ON " ∧ IsMadeOf (isFrontChar []) " AND " := by decide
  have hjoined := isMadeOf_join hwords.2.2.2 hpieces
  change IsMadeOf _ (" " ++ j.kind.keyword ++ " JOIN " ++ j.table ++ " " ++ name ++ " ON " ++
    Text.join " AND " (conditions.map fun p => p.1 ++ " = " ++ p.2))
  simp [hwords, hkeyword, hnames htable, hnames (isMadeOf_of_isIdentifier hname), hjoined]

/-- A condition is a reference with a comparison and placeholders. -/
theorem isMadeOf_condition {f : Filter} {c : Condition} {first : Nat}
    (h : resolveFilter a f = .ok c) : IsMadeOf isStatementChar (c.text d first) := by
  obtain ⟨⟨heq, _, hcheck⟩, -, hcases⟩ := resolveFilter_eq_ok h
  have hreference : IsMadeOf isStatementChar c.reference :=
    heq ▸ (isMadeOf_rewrite haliases hcheck).mono fun _ => isStatementChar_of_isNameChar
  have hoperator : IsMadeOf isStatementChar f.operator.sql := by
    cases f.operator <;> decide
  have hwords : IsMadeOf isStatementChar " " ∧ IsMadeOf isStatementChar " IN (" ∧
      IsMadeOf isStatementChar ", " ∧ IsMadeOf isStatementChar ")" := by decide
  obtain ⟨hblank, hopen, hcomma, hclose⟩ := hwords
  unfold Condition.text
  obtain htest | htest | ⟨operands, htest⟩ := hcases
  · simp [htest, hreference, hblank, hoperator]
  · simp [htest, hreference, hblank, hoperator, isMadeOf_placeholder]
  · have hlist : IsMadeOf isStatementChar (join ", " (placeholders d first operands.length)) := by
      refine isMadeOf_join hcomma fun s hs => ?_
      obtain ⟨i, -, rfl⟩ := List.mem_map.mp hs
      exact isMadeOf_placeholder (first + i)
    simp [htest, hreference, hopen, hlist, hclose]

end Parts

/-- The output columns of a statement. -/
def Select.columnsText (d : Dialect) (s : Select) : String :=
  if s.columns.isEmpty then s.alias_ ++ ".*"
  else Text.join ", " (s.columns.map (OutputColumn.text d))

/-- The tables of a statement with the conditions of its joins. -/
def Select.tablesText (s : Select) : String :=
  " FROM " ++ s.table ++ " " ++ s.alias_ ++ String.join (s.joins.map JoinedTable.text)

/-- What stands before the conditions of a statement. -/
def Select.front (d : Dialect) (s : Select) : String :=
  "SELECT " ++ d.topClause s.limit ++ s.columnsText d ++ s.tablesText

/-- What stands from the conditions of a statement on. -/
def Select.back (d : Dialect) (s : Select) : String :=
  (if s.conditions.isEmpty then ""
    else " WHERE " ++ Text.join " AND " (conditionTexts d 1 s.conditions)) ++ d.limitClause s.limit

theorem Select.text_eq {s : Select} : s.text d = s.front d ++ s.back d := by
  simp only [Select.front, Select.tablesText, Select.back, ← String.append_assoc]
  rfl

section Statements

variable {catalog : Option Catalog} {spec : QuerySpec} {s : Select}

/-- A statement is resolved for aliases that are identifiers. -/
theorem exists_aliases (h : resolve catalog spec = .ok s) :
    ∃ a, (∀ name other, a.resolve? name = some other → isIdentifier other.toList = true) ∧
      IsMadeOf isNameChar s.table ∧ isIdentifier s.alias_.toList = true ∧
      Forall₂ (fun c o => resolveColumn a c = .ok o) spec.columns s.columns ∧
      (∀ t ∈ s.joins, ∃ j name, IsMadeOf isNameChar j.table ∧ isIdentifier name.toList = true ∧
        j.conditions ≠ [] ∧ resolveJoin a j name = .ok t) ∧
      Forall₂ (fun f c => resolveFilter a f = .ok c) spec.filters s.conditions := by
  obtain ⟨a, htable, hchecked, hbuild, hcolumns, hjoins, hconditions, hname, halias⟩ :=
    resolve_parts h
  obtain ⟨-, -, -, hidents⟩ := Aliases.build_eq_ok hbuild
  refine ⟨a, fun name other => Aliases.isIdentifier_of_resolve? hbuild,
    hname ▸ isMadeOf_of_checkTable htable, hidents _ (halias ▸ List.mem_cons_self), hcolumns, ?_,
    hconditions⟩
  intro t ht
  obtain ⟨⟨j, other⟩, hj, ht⟩ := exists_mem_of_forall₂ hjoins ht
  obtain ⟨hjoin, hother⟩ := List.of_mem_zip hj
  obtain ⟨_, hnamed, hsome⟩ := bind_eq_ok_iff.mp (forM_eq_ok_iff.mp hchecked j hjoin)
  refine ⟨j, other, isMadeOf_of_checkTable hnamed, hidents other (List.mem_cons_of_mem _ hother),
    ?_, ht⟩
  intro hnone
  rw [hnone] at hsome
  cases hsome

/-- The output columns are names, with blanks and commas and with quotes around aliases. -/
theorem isMadeOf_columnsText (h : resolve catalog spec = .ok s) :
    IsMadeOf (isFrontChar d.quotes) (s.columnsText d) := by
  obtain ⟨a, haliases, -, hmain, hcolumns, -, -⟩ := exists_aliases h
  have hwords : IsMadeOf (isFrontChar d.quotes) ".*" ∧ IsMadeOf (isFrontChar d.quotes) ", " := by
    cases d <;> decide
  unfold Select.columnsText
  split
  · exact isMadeOf_append.mpr
      ⟨(isMadeOf_of_isIdentifier hmain).mono fun _ => isFrontChar_of_isNameChar, hwords.1⟩
  · refine isMadeOf_join hwords.2 fun t ht => ?_
    obtain ⟨o, ho, rfl⟩ := List.mem_map.mp ht
    obtain ⟨c, -, hc⟩ := exists_mem_of_forall₂ hcolumns ho
    exact isMadeOf_column haliases hc

/-- No quote stands between the output columns and the conditions of a statement. -/
theorem isMadeOf_tablesText (h : resolve catalog spec = .ok s) :
    IsMadeOf (isFrontChar []) s.tablesText := by
  obtain ⟨a, haliases, htable, hmain, -, hjoins, -⟩ := exists_aliases h
  have hnames : ∀ {s : String}, IsMadeOf isNameChar s → IsMadeOf (isFrontChar []) s :=
    fun hs => hs.mono fun _ => isFrontChar_of_isNameChar
  have hwords : IsMadeOf (isFrontChar []) " FROM " ∧ IsMadeOf (isFrontChar []) " " := by decide
  have hjoined : ∀ t ∈ s.joins.map JoinedTable.text, IsMadeOf (isFrontChar []) t := by
    intro text htext
    obtain ⟨t, ht, rfl⟩ := List.mem_map.mp htext
    obtain ⟨j, name, hj, hname, -, ht⟩ := hjoins t ht
    exact isMadeOf_joined haliases hj hname ht
  simp only [Select.tablesText, isMadeOf_append, hwords, hnames htable,
    hnames (isMadeOf_of_isIdentifier hmain), isMadeOf_concat hjoined, and_self]

/-- No sign stands before the conditions of a statement. -/
theorem isMadeOf_front (h : resolve catalog spec = .ok s) :
    IsMadeOf (isFrontChar d.quotes) (s.front d) := by
  have hselect : IsMadeOf (isFrontChar d.quotes) "SELECT " := by cases d <;> decide
  have htop : IsMadeOf (isFrontChar d.quotes) (d.topClause s.limit) :=
    fun c hc => isFrontChar_of_isPlain (isPlain_topClause c hc)
  have htables : IsMadeOf (isFrontChar d.quotes) s.tablesText :=
    (isMadeOf_tablesText h).mono fun _ => isFrontChar_mono
  simp only [Select.front, isMadeOf_append, hselect, htop, isMadeOf_columnsText h, htables,
    and_self]

theorem exists_of_mem_conditionTexts {cs : List Condition} {first : Nat} {text : String}
    (h : text ∈ conditionTexts d first cs) : ∃ c ∈ cs, ∃ first, text = c.text d first := by
  induction cs generalizing first with
  | nil => exact absurd h List.not_mem_nil
  | cons c cs ih =>
    rcases List.mem_cons.mp h with rfl | h
    · exact ⟨c, List.mem_cons_self, first, rfl⟩
    · obtain ⟨other, hother, heq⟩ := ih h
      exact ⟨other, List.mem_cons_of_mem c hother, heq⟩

/-- No quote stands from the conditions of a statement on. -/
theorem isMadeOf_back (h : resolve catalog spec = .ok s) :
    IsMadeOf isStatementChar (s.back d) := by
  obtain ⟨a, haliases, -, -, -, -, hconditions⟩ := exists_aliases h
  have htexts : ∀ t ∈ conditionTexts d 1 s.conditions, IsMadeOf isStatementChar t := by
    intro t ht
    obtain ⟨c, hc, first, rfl⟩ := exists_of_mem_conditionTexts ht
    obtain ⟨f, -, hf⟩ := exists_mem_of_forall₂ hconditions hc
    exact isMadeOf_condition haliases hf
  have hwords : IsMadeOf isStatementChar " WHERE " ∧ IsMadeOf isStatementChar " AND " := by
    decide
  have hlimit : IsMadeOf isStatementChar (d.limitClause s.limit) :=
    fun c hc => isStatementChar_of_isPlain (isPlain_limitClause c hc)
  unfold Select.back
  rw [isMadeOf_append, and_iff_left hlimit]
  split
  · exact fun c hc => absurd hc List.not_mem_nil
  · exact isMadeOf_append.mpr ⟨hwords.1, isMadeOf_join hwords.2 htexts⟩

/-- A statement is made of permitted characters. -/
theorem isMadeOf_text (h : resolve catalog spec = .ok s) : IsMadeOf (isPermitted d) (s.text d) := by
  rw [Select.text_eq, isMadeOf_append]
  exact ⟨(isMadeOf_front h).mono fun _ => isPermitted_of_isFrontChar,
    (isMadeOf_back h).mono fun _ => isPermitted_of_isStatementChar⟩

end Statements

end Recount.Sql

/-! ## Where placeholders are written

Tables, aliases and references are made of identifiers, and the other words of a query are fixed. So
the placeholders of a query are those of its conditions, in their order.
-/

namespace Recount.Sql

open Text
open List (Forall₂)

variable {d : Dialect}

/-- A condition shows one placeholder for each of its operands. -/
theorem shows_condition {a : Aliases} {f : Filter} {c : Condition} {first : Nat}
    (haliases : ∀ name other, a.resolve? name = some other → isIdentifier other.toList = true)
    (h : resolveFilter a f = .ok c) :
    Shows d (c.text d first) (placeholders d first c.operands.length) := by
  obtain ⟨⟨heq, _, hcheck⟩, -, hcases⟩ := resolveFilter_eq_ok h
  have hreference : isSignFree c.reference = true :=
    heq ▸ isSignFree_of_isMadeOf (isMadeOf_rewrite haliases hcheck) fun _ => not_isSign_of_isNameChar
  have hoperator : isSignFree f.operator.sql = true := by
    cases f.operator <;> decide
  have hblank : isSignFree " " = true := by decide
  unfold Condition.text Condition.operands
  obtain htest | htest | ⟨operands, htest⟩ := hcases
  · rw [htest]
    exact shows_of_isSignFree (by simp [hreference, hblank, hoperator])
  · rw [htest]
    exact (shows_placeholder first).prepend (by simp [hreference, hblank, hoperator])
  · rw [htest]
    have hopen : isSignFree " IN (" = true := by decide
    have hcomma : isSignFree ", " = true := by decide
    have hpieces : Forall₂ (Shows d) (placeholders d first operands.length)
        ((placeholders d first operands.length).map fun p => [p]) := by
      rw [placeholders, List.map_map, List.forall₂_map_left_iff, List.forall₂_map_right_iff,
        List.forall₂_same]
      exact fun i _ => shows_placeholder (first + i)
    have hlist := shows_join hcomma (by decide) (by decide) hpieces
    rw [← List.flatMap_def, List.flatMap_singleton'] at hlist
    have hbracket : Shows d ")" [] := shows_of_isSignFree (by decide)
    have hopened : isSignFree (c.reference ++ " IN (") = true := by simp [hreference, hopen]
    have hclosed := (hlist.prepend hopened).append hbracket (by decide)
    rwa [List.append_nil] at hclosed

section Text

variable {catalog : Option Catalog} {spec : QuerySpec} {s : Select} {limit : Option Nat}

theorem isApart_limitClause : IsApart (d.limitClause limit) := by
  obtain h | ⟨n, h⟩ := @limitClause_cases d limit
  · rw [h]
    decide
  · rw [h]
    exact IsApart.append (by decide) (by decide)

theorem placeholders_add {first m n : Nat} :
    placeholders d first (m + n) = placeholders d first m ++ placeholders d (first + m) n := by
  simp [placeholders, List.range_add, Nat.add_assoc]

/-- Conditions show the placeholders of their operands in order. -/
theorem shows_conditions {cs : List Condition} (first : Nat)
    (h : ∀ c ∈ cs, ∀ first, Shows d (c.text d first) (placeholders d first c.operands.length)) :
    ∃ founds, Forall₂ (Shows d) (conditionTexts d first cs) founds ∧
      founds.flatten = placeholders d first (cs.flatMap Condition.operands).length := by
  induction cs generalizing first with
  | nil => exact ⟨[], .nil, rfl⟩
  | cons c cs ih =>
    obtain ⟨founds, hshows, hfounds⟩ :=
      ih (first + c.operands.length) fun c' hc' => h c' (List.mem_cons_of_mem c hc')
    refine ⟨_ :: founds, .cons (h c List.mem_cons_self first) hshows, ?_⟩
    rw [List.flatten_cons, hfounds, List.flatMap_cons, List.length_append, placeholders_add]

/-- The placeholders of a statement are numbered as its parameters are. -/
theorem placeholdersIn_text (h : resolve catalog spec = .ok s) :
    placeholdersIn d (s.text d).toList = placeholders d 1 s.parameters.length := by
  obtain ⟨a, -, -, hbuild, -, -, hconditions, -, -⟩ := resolve_parts h
  have hshown : ∀ c ∈ s.conditions, ∀ first,
      Shows d (c.text d first) (placeholders d first c.operands.length) := by
    intro c hc first
    obtain ⟨f, -, hf⟩ := exists_mem_of_forall₂ hconditions hc
    exact shows_condition (fun name other => Aliases.isIdentifier_of_resolve? hbuild) hf
  have hwhere : Shows d (if s.conditions.isEmpty then ""
      else " WHERE " ++ Text.join " AND " (conditionTexts d 1 s.conditions))
      (placeholders d 1 s.parameters.length) := by
    unfold Select.parameters
    split
    · next hempty =>
      rw [List.isEmpty_iff.mp hempty]
      exact shows_of_isSignFree rfl
    · obtain ⟨founds, hfounds, heq⟩ := shows_conditions 1 hshown
      rw [← heq]
      exact (shows_join (by decide) (by decide +kernel) (by decide) hfounds).prepend
        (by decide)
  have hlimit : Shows d (d.limitClause s.limit) [] :=
    shows_of_isSignFree (isSignFree_of_isPlain isPlain_limitClause)
  have hend : ∀ c ∈ ([] : List Char).head?, isAsciiWord c = false := by simp
  have hfront : isSignFree (s.front d) = true :=
    isSignFree_of_isMadeOf (isMadeOf_front h) fun _ => not_isSign_of_isFrontChar
  have hback : Shows d (s.back d) (placeholders d 1 s.parameters.length ++ []) :=
    hwhere.append hlimit isApart_limitClause
  have hshows := (hback.prepend hfront) [] hend
  rw [← Select.text_eq] at hshows
  simpa [placeholdersIn] using hshows

end Text

end Recount.Sql
