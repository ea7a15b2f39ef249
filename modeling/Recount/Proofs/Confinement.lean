import Recount.Proofs.Sql.Alphabet
import Recount.Proofs.Sql.Lexical
import Recount.Proofs.Sql.Reading

/-!
# What a query is confined to

Whatever a specification says, the text of its query is made of names and of the words and signs of
a query. All of it is code that names the declared tables and no others.
-/

/-! ## The aliases that a reader of a statement finds

A reader that goes from character to character finds the output aliases of a statement between its
quotes. It does not go on where a quote closes nothing, where one opens inside of quotes, or where a
text ends in them. -/

namespace Recount.Sql

open Text
open List (Forall₂)

/-- The texts between the quotes that follow, where a reader has read the start of one or none. -/
def quotedFrom (d : Dialect) : Option (List Char) → List Char → Option (List String)
  | none, [] => some []
  | some _, [] => none
  | none, c :: cs =>
    if c = d.opening then quotedFrom d (some []) cs
    else if c = d.closing then none
    else quotedFrom d none cs
  | some name, c :: cs =>
    if c = d.closing then (quotedFrom d none cs).map (String.ofList name :: ·)
    else if c = d.opening then none
    else quotedFrom d (some (name ++ [c])) cs

/-- The texts between the quotes of a dialect, if these stand in pairs. -/
def quotedIn (d : Dialect) (sql : String) : Option (List String) := quotedFrom d none sql.toList

/-- The alias that an output column is given; a star is given none. -/
def SelectColumn.outputAlias? (c : SelectColumn) : Option String :=
  if endsWith c.expression "*" then none else c.alias?

/-- A text has these texts between its quotes. -/
def Quotes (d : Dialect) (s : String) (names : List String) : Prop :=
  ∀ cs, quotedFrom d none (s.toList ++ cs) = (quotedFrom d none cs).map (names ++ ·)

variable {d : Dialect} {s t : String} {names more : List String} {p : Char → Bool}

section Texts

theorem quotedIn_eq (h : Quotes d s names) : quotedIn d s = some names := by
  have hend := h []
  rw [List.append_nil] at hend
  simpa [quotedIn, quotedFrom] using hend

theorem quotedFrom_append {read cs : List Char} (h : ∀ c ∈ read, c ∉ d.quotes) :
    quotedFrom d none (read ++ cs) = quotedFrom d none cs := by
  induction read with
  | nil => rfl
  | cons c rest ih =>
    obtain ⟨hc, hrest⟩ := List.forall_mem_cons.mp h
    simp only [Dialect.quotes, List.mem_cons, List.not_mem_nil, or_false, not_or] at hc
    rw [List.cons_append, quotedFrom, if_neg hc.1, if_neg hc.2, ih hrest]

/-- Nothing stands between quotes where there are none. -/
theorem quotes_nil (h : ∀ c ∈ s.toList, c ∉ d.quotes) : Quotes d s [] := by
  intro cs
  rw [quotedFrom_append h]
  simp

theorem Quotes.append (hs : Quotes d s names) (ht : Quotes d t more) :
    Quotes d (s ++ t) (names ++ more) := by
  intro cs
  rw [String.toList_append, List.append_assoc, hs, ht, Option.map_map]
  simp only [Function.comp_def, List.append_assoc]

theorem quotes_of_isMadeOf (h : IsMadeOf p s) (hp : ∀ c ∈ d.quotes, p c = false) :
    Quotes d s [] :=
  quotes_nil fun c hc hquote => absurd (h c hc) (by simp [hp c hquote])

/-- A name without quotes is read up to the quote that closes it. -/
theorem quotedFrom_name {read name cs : List Char} (h : ∀ c ∈ name, c ∉ d.quotes) :
    quotedFrom d (some read) (name ++ d.closing :: cs) =
      (quotedFrom d none cs).map (String.ofList (read ++ name) :: ·) := by
  induction name generalizing read with
  | nil => simp [quotedFrom]
  | cons c rest ih =>
    obtain ⟨hc, hrest⟩ := List.forall_mem_cons.mp h
    simp only [Dialect.quotes, List.mem_cons, List.not_mem_nil, or_false, not_or] at hc
    rw [List.cons_append, quotedFrom, if_neg hc.2, if_neg hc.1, ih hrest, List.append_assoc]
    rfl

end Texts

section Parts

theorem quote_cases {c : Char} (h : c ∈ d.quotes) :
    isNameChar c = false ∧ isStatementChar c = false ∧ isFrontChar [] c = false ∧
      isPlain c = false := by
  have hall : d.quotes.all (fun c => !isNameChar c && !isStatementChar c && !isFrontChar [] c &&
      !isPlain c) = true := by cases d <;> decide
  simpa [and_assoc] using List.all_eq_true.mp hall c h

/-- An alias stands between its quotes. -/
theorem quotes_quoteAlias {name : String} (h : isIdentifier name.toList = true) :
    Quotes d (d.quoteAlias name) [name] := by
  have hname : ∀ c ∈ name.toList, c ∉ d.quotes := fun c hc hquote =>
    absurd (isMadeOf_of_isIdentifier h c hc) (by simp [(quote_cases hquote).1])
  intro cs
  rw [toList_quoteAlias, List.cons_append, List.append_assoc, quotedFrom, if_pos rfl]
  exact (quotedFrom_name hname).trans (by simp)

/-- Joined texts have between their quotes what each of them has. -/
theorem quotes_join {separator : String} {pieces : List String} {founds : List (List String)}
    (hseparator : Quotes d separator []) (h : Forall₂ (Quotes d) pieces founds) :
    Quotes d (join separator pieces) founds.flatten := by
  unfold join
  induction h with
  | nil => exact quotes_nil fun c hc => absurd hc List.not_mem_nil
  | @cons piece found pieces founds hpiece hrest ih =>
    cases hrest with
    | nil => simpa using hpiece
    | cons hnext hrest =>
      rw [String.intercalate_cons_cons]
      simpa using (hpiece.append hseparator).append ih

variable {a : Aliases}

/-- An output column has its alias between quotes. -/
theorem quotes_column {c : SelectColumn} {o : OutputColumn}
    (haliases : ∀ name other, a.resolve? name = some other → isIdentifier other.toList = true)
    (h : resolveColumn a c = .ok o) : Quotes d (o.text d) c.outputAlias?.toList := by
  obtain ⟨_, hcheck, h⟩ := bind_eq_ok_iff.mp h
  have hreference : Quotes d (a.rewrite c.expression) [] :=
    quotes_of_isMadeOf (isMadeOf_rewrite haliases hcheck) fun _ hc => (quote_cases hc).1
  have has : Quotes d " AS " [] :=
    quotes_of_isMadeOf (p := isPlain) (by decide) fun _ hc => (quote_cases hc).2.2.2
  unfold SelectColumn.outputAlias?
  dsimp only at h
  split at h
  · next name halias =>
    split at h
    · next hstar =>
      cases h
      rw [if_pos hstar]
      exact hreference
    · next hstar =>
      obtain ⟨_, hchecked, h⟩ := bind_eq_ok_iff.mp h
      cases h
      rw [if_neg hstar, halias]
      exact (hreference.append has).append
        (quotes_quoteAlias (Aliases.checkAlias_eq_ok_iff.mp hchecked))
  · next halias =>
    cases h
    rw [halias, ite_self]
    exact hreference

end Parts

/-- A reader of a statement finds its output aliases between the quotes. -/
theorem quotedIn_text {catalog : Option Catalog} {spec : QuerySpec} {statement : Select}
    (h : resolve catalog spec = .ok statement) :
    quotedIn d (statement.text d) = some (spec.columns.filterMap SelectColumn.outputAlias?) := by
  obtain ⟨a, haliases, -, hmain, hcolumns, -, -⟩ := exists_aliases h
  have hselect : Quotes d "SELECT " [] :=
    quotes_of_isMadeOf (p := isPlain) (by decide) fun _ hc => (quote_cases hc).2.2.2
  have htop : Quotes d (d.topClause statement.limit) [] :=
    quotes_of_isMadeOf isPlain_topClause fun _ hc => (quote_cases hc).2.2.2
  have htables : Quotes d statement.tablesText [] :=
    quotes_of_isMadeOf (isMadeOf_tablesText h) fun _ hc => (quote_cases hc).2.2.1
  have hback : Quotes d (statement.back d) [] :=
    quotes_of_isMadeOf (isMadeOf_back h) fun _ hc => (quote_cases hc).2.1
  have hnames : Quotes d (statement.columnsText d)
      (spec.columns.filterMap SelectColumn.outputAlias?) := by
    unfold Select.columnsText
    split
    · next hnone =>
      rw [List.isEmpty_iff.mp hnone, List.forall₂_nil_right_iff] at hcolumns
      rw [hcolumns]
      exact quotes_of_isMadeOf (isMadeOf_append.mpr ⟨isMadeOf_of_isIdentifier hmain, by decide⟩)
        fun _ hc => (quote_cases hc).1
    · have hcomma : Quotes d ", " [] :=
        quotes_of_isMadeOf (p := isStatementChar) (by decide) fun _ hc => (quote_cases hc).2.1
      have hpieces : Forall₂ (Quotes d) (statement.columns.map (OutputColumn.text d))
          (spec.columns.map fun c => c.outputAlias?.toList) := by
        rw [List.forall₂_map_left_iff, List.forall₂_map_right_iff]
        exact hcolumns.flip.imp fun o c => quotes_column haliases
      have hjoined := quotes_join hcomma hpieces
      rwa [← List.flatMap_def, ← List.filterMap_eq_flatMap_toList] at hjoined
  have hwhole := (((hselect.append htop).append hnames).append htables).append hback
  rw [Select.text_eq, Select.front]
  refine quotedIn_eq ?_
  simpa using hwhole

end Recount.Sql

/-! ## Names in code -/

namespace Recount.Sql

section Code

variable {d : Dialect} {c : Char} {s : String}

/-- No permitted character opens a literal, opens a comment or ends a statement. -/
theorem isPermitted_cases (h : isPermitted d c = true) :
    c ≠ '\'' ∧ c ≠ '-' ∧ c ≠ '/' ∧ c ≠ '#' ∧ c ≠ ';' := by
  have hnone : ['\'', '-', '/', '#', ';'].all (fun other => !isPermitted d other) = true := by
    cases d <;> decide
  have hne : ∀ other ∈ ['\'', '-', '/', '#', ';'], c ≠ other := by
    rintro other hother rfl
    exact absurd (List.all_eq_true.mp hnone c hother) (by simp [h])
  simpa using hne

/-- A reader of permitted characters stays in code. -/
theorem after_eq_code {cs : List Char} (h : ∀ c ∈ cs, isPermitted d c = true) :
    Mode.code.after d cs = .code := by
  induction cs with
  | nil => rfl
  | cons c cs ih =>
    obtain ⟨hc, hcs⟩ := List.forall_mem_cons.mp h
    obtain ⟨hquote, hdash, hslash, hhash, -⟩ := isPermitted_cases hc
    have hnext : Mode.code.next d c = .code := by
      simp [Mode.next, Mode.ofCode, hquote, hdash, hslash, hhash]
    rw [Mode.after_cons, hnext, ih hcs]

theorem code_of_isMadeOf (h : IsMadeOf (isPermitted d) s) {before : List Char}
    (hbefore : before <+: s.toList) : Mode.code.after d before = .code :=
  after_eq_code fun c hc => h c (hbefore.subset hc)

theorem semicolon_not_mem_of_isMadeOf (h : IsMadeOf (isPermitted d) s) : ';' ∉ s.toList :=
  fun hmem => (isPermitted_cases (h ';' hmem)).2.2.2.2 rfl

end Code

/-- The text of a compiled query has permitted characters only, so it is one statement without a
literal or a comment. It has quotes around the output aliases only. Its tables are the declared
ones, each with the alias that it is assigned. -/
theorem text_confined (c : Compiler) (spec : QuerySpec) (q : Query) (h : c.compile spec = .ok q) :
    IsMadeOf (isPermitted c.dialect) q.sql ∧
    (∀ before, before <+: q.sql.toList → Mode.code.after c.dialect before = .code) ∧
    ';' ∉ q.sql.toList ∧
    (∀ p ∈ placeholdersIn c.dialect q.sql.toList, ∃ k, p = c.dialect.placeholder (k + 1)) ∧
    quotedIn c.dialect q.sql = some (spec.columns.filterMap SelectColumn.outputAlias?) ∧
    ∃ a, Aliases.build spec.mainTable spec.joins = .ok a ∧ a.joins.length = spec.joins.length ∧
      tablesOf q.sql = (spec.mainTable, a.main) :: (spec.joins.map (·.table)).zip a.joins := by
  obtain ⟨s, hresolved, rfl⟩ := compile_eq_ok h
  have hchars : IsMadeOf (isPermitted c.dialect) (s.text c.dialect) := isMadeOf_text hresolved
  obtain ⟨a, hbuild, htables, -⟩ := resolve_eq_ok hresolved
  refine ⟨hchars, fun before hbefore => code_of_isMadeOf hchars hbefore,
    semicolon_not_mem_of_isMadeOf hchars, ?_, quotedIn_text hresolved, a, hbuild,
    (Aliases.build_eq_ok hbuild).1, (tablesOf_text hresolved).trans htables⟩
  intro p hp
  rw [placeholdersIn_text hresolved] at hp
  obtain ⟨k, -, rfl⟩ := List.mem_map.mp hp
  exact ⟨k, by rw [Nat.add_comm]⟩

/-- Names that are keywords, and a star with an alias that no query could have. -/
def keywordsAsNames : QuerySpec where
  mainTable := "JOIN"
  joins := [⟨"dbo.FROM", some "ON", .left, [⟨"JOIN.FROM", "ON.WHERE"⟩]⟩]
  columns := [⟨"FROM", some "JOIN"⟩, ⟨"JOIN.*", some "x'; DROP TABLE y --"⟩]
  filters := [⟨"ON.AND", .eq, .str "'; --"⟩]
  limit := some 3

/-- Names that are keywords are taken for names. -/
theorem text_confined_keywordsAsNames :
    ∃ q, Compiler.compile ⟨.msSql, none⟩ keywordsAsNames = .ok q ∧
      q.sql = "SELECT TOP 3 FROM AS [JOIN], j.* FROM JOIN j LEFT JOIN dbo.FROM ON " ++
        "ON j.FROM = ON.WHERE WHERE ON.AND = @p1" ∧
      IsMadeOf (isPermitted .msSql) q.sql ∧ quotedIn .msSql q.sql = some ["JOIN"] ∧
      tablesOf q.sql = [("JOIN", "j"), ("dbo.FROM", "ON")] := by
  have hsql : (Compiler.compile ⟨.msSql, none⟩ keywordsAsNames).map (·.sql) =
      .ok ("SELECT TOP 3 FROM AS [JOIN], j.* FROM JOIN j LEFT JOIN dbo.FROM ON " ++
        "ON j.FROM = ON.WHERE WHERE ON.AND = @p1") := by
    decide
  have haliases : (Aliases.build keywordsAsNames.mainTable keywordsAsNames.joins).map
      (fun a => (a.main, a.joins)) = .ok ("j", ["ON"]) := by
    decide
  cases h : Compiler.compile ⟨.msSql, none⟩ keywordsAsNames with
  | error defect =>
    rw [h] at hsql
    cases hsql
  | ok q =>
    obtain ⟨hchars, -, -, -, hquoted, a, hbuild, -, htables⟩ := text_confined _ _ q h
    rw [h] at hsql
    rw [hbuild] at haliases
    obtain ⟨hmain, hjoins⟩ := Prod.mk.inj (Except.ok.inj haliases)
    refine ⟨q, rfl, Except.ok.inj hsql, hchars, hquoted.trans (by decide), ?_⟩
    rw [htables, hmain, hjoins]
    rfl

end Recount.Sql
