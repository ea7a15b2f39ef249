import Recount.Proofs.Sql.Alphabet
import Recount.Proofs.Sql.Limiting
import Recount.Proofs.Sql.Placeholders
import Recount.Proofs.Sql.Reading
import Recount.Proofs.Text.Trim
import Recount.Sql.Template

/-!
# Known tables

Where there is a catalog, the tables of a compiled query are those of its specification, and each
of them is looked up. The table of a template is looked up too, but its condition goes into the
query as it is given: what the condition names is known only if the condition is chosen so.
-/

/-! ## The names that follow a keyword

A reader that knows nothing of what a text is about finds the tables in it by the words `FROM` and
`JOIN`. It passes over literals, names in quotes are one word, and signs are words by themselves. -/

namespace Recount.Sql

open Text

/-- Where a reader is within a text. -/
inductive Span where
  | code
  | literal (quote : Char)
  /-- The character after a backslash in a literal. -/
  | escaped (quote : Char)
  | name
  | comment
deriving DecidableEq

namespace Span

/-- Where a reader is after the next character. Only one dialect knows literals in double quotes,
backslashes in literals and comments after a hash sign. -/
def next (d : Dialect) : Span → Char → Span
  | code, c =>
    if c = '\'' ∨ c = '"' ∧ d = .mySql then literal c
    else if c = '#' ∧ d = .mySql then comment
    else if c = d.opening then name
    else code
  | literal quote, c =>
    if c = quote then code else if c = '\\' ∧ d = .mySql then escaped quote else literal quote
  | escaped quote, _ => literal quote
  | name, c => if c = d.closing then code else name
  | comment, c => if c = '\n' then code else comment

end Span

/-- The signs of code, which separate words and are words by themselves. -/
def signs (d : Dialect) : List Char :=
  "(),;:=<>+-*/%!|&^~?'".toList ++ if d = .mySql then ['"', '#'] else []

/-- The word that was read so far, if one was. -/
def wordRead (word : List Char) : List (List Char) := if word = [] then [] else [word]

/-- The words of a text, given what was read of the one under way. -/
def lexemes (d : Dialect) : Span → List Char → List Char → List (List Char)
  | _, word, [] => wordRead word
  | .code, word, c :: cs =>
    if isBlank c then wordRead word ++ lexemes d .code [] cs
    else if (signs d).contains c then wordRead word ++ [c] :: lexemes d (Span.code.next d c) [] cs
    else lexemes d (Span.code.next d c) (word ++ [c]) cs
  | .name, word, c :: cs => lexemes d (Span.name.next d c) (word ++ [c]) cs
  | span, word, c :: cs => lexemes d (span.next d c) word cs

/-- A word that announces a table, in any case. -/
def announces (word : List Char) : Bool :=
  ["FROM".toList, "JOIN".toList].contains (word.map Char.toUpper)

/-- The name that a word is, without its quotes. A sign is no name. -/
def nameOf? (d : Dialect) (word : List Char) : Option String :=
  if word.all (signs d).contains then none
  else some (String.ofList (word.filter fun c => c ≠ d.opening && c ≠ d.closing))

/-- The names that follow a keyword, where it is known whether one was read last. What follows a
keyword is a name even if it is spelled like a keyword. -/
def announced (d : Dialect) : Bool → List (List Char) → List String
  | _, [] => []
  | false, word :: words => announced d (announces word) words
  | true, word :: words => (nameOf? d word).toList ++ announced d false words

/-- The names that follow `FROM` or `JOIN` outside of literals. -/
def namesAnnounced (d : Dialect) (sql : String) : List String :=
  announced d false (lexemes d .code [] sql.toList)

/-- A character of a list of names. -/
def isListed (c : Char) : Bool := isPlain c || c == ','

/-- A list of names in which nothing announces a table. -/
structure AnnouncesNone (d : Dialect) (s : String) : Prop where
  listed : IsMadeOf isListed s
  words : ∀ word ∈ lexemes d .code [] s.toList, announces word = false

variable {d : Dialect} {c : Char} {word xs ys : List Char} {words more : List (List Char)}
  {s t table : String} {limit : Option Nat}

section Lexemes

theorem next_of_isListed (h : isListed c = true) : Span.code.next d c = .code := by
  have hne : ∀ other ∈ ['\'', '"', '#', d.opening], c ≠ other := by
    have hnone : ['\'', '"', '#', d.opening].all (fun other => !isListed other) = true := by
      cases d <;> decide
    rintro other hother rfl
    exact absurd (List.all_eq_true.mp hnone c hother) (by simp [h])
  simp only [List.forall_mem_cons, List.not_mem_nil, false_implies, implies_true, and_true] at hne
  simp [Span.next, hne]

theorem isListed_of_isAsciiWord (h : isAsciiWord c = true) : isListed c = true := by
  simp [isListed, isPlain, h]

theorem not_sign_of_isAsciiWord (h : isAsciiWord c = true) : (signs d).contains c = false := by
  have hnone : (signs d).all (fun other => !isAsciiWord other) = true := by
    cases d <;> decide
  rw [Bool.eq_false_iff, Ne, List.contains_iff_mem]
  exact fun hmem => absurd (List.all_eq_true.mp hnone c hmem) (by simp [h])

/-- A list of names is read apart from what follows it after a blank. -/
theorem lexemes_append (h : ∀ c ∈ xs, isListed c = true) :
    lexemes d .code word (xs ++ ' ' :: ys) =
      lexemes d .code word xs ++ lexemes d .code [] ys := by
  induction xs generalizing word with
  | nil => rfl
  | cons c xs ih =>
    obtain ⟨hc, hxs⟩ := List.forall_mem_cons.mp h
    rw [List.cons_append, lexemes, lexemes, next_of_isListed hc, ih hxs, ih hxs]
    split
    · rw [List.append_assoc]
    · split
      · rw [List.append_assoc, List.cons_append]
      · rfl

theorem lexemes_word (h : ∀ c ∈ xs, isAsciiWord c = true) :
    lexemes d .code word xs = wordRead (word ++ xs) := by
  induction xs generalizing word with
  | nil => rw [List.append_nil, lexemes]
  | cons c xs ih =>
    obtain ⟨hc, hxs⟩ := List.forall_mem_cons.mp h
    rw [lexemes, isBlank_of_isAsciiWord hc, not_sign_of_isAsciiWord hc,
      next_of_isListed (isListed_of_isAsciiWord hc), if_neg Bool.false_ne_true,
      if_neg Bool.false_ne_true, ih hxs, List.append_assoc]
    rfl

end Lexemes

section Names

theorem announced_append (h : ∀ word ∈ words, announces word = false) :
    announced d false (words ++ more) = announced d false more := by
  induction words with
  | nil => rfl
  | cons word words ih =>
    obtain ⟨hword, hwords⟩ := List.forall_mem_cons.mp h
    rw [List.cons_append, announced, hword, ih hwords]

/-- A text that announces no table is passed over. -/
theorem AnnouncesNone.names_append (h : AnnouncesNone d s) :
    namesAnnounced d (s ++ " " ++ t) = namesAnnounced d t := by
  have htext : (s ++ " " ++ t).toList = s.toList ++ ' ' :: t.toList := by
    rw [String.toList_append, String.toList_append, List.append_assoc]
    rfl
  rw [namesAnnounced, htext, lexemes_append h.listed, announced_append h.words]
  rfl

theorem AnnouncesNone.names_eq (h : AnnouncesNone d s) : namesAnnounced d s = [] := by
  have hnames : announced d false (lexemes d .code [] s.toList ++ []) = announced d false [] :=
    announced_append h.words
  rwa [List.append_nil] at hnames

theorem AnnouncesNone.blank (hs : AnnouncesNone d s) (ht : AnnouncesNone d t) :
    AnnouncesNone d (s ++ " " ++ t) where
  listed := by
    rw [isMadeOf_append, isMadeOf_append]
    exact ⟨⟨hs.listed, by decide⟩, ht.listed⟩
  words := by
    have htext : (s ++ " " ++ t).toList = s.toList ++ ' ' :: t.toList := by
      rw [String.toList_append, String.toList_append, List.append_assoc]
      rfl
    rw [htext, lexemes_append hs.listed, List.forall_mem_append]
    exact ⟨hs.words, ht.words⟩

theorem announcesNone_word (h : IsMadeOf isAsciiWord s) (hs : announces s.toList = false) :
    AnnouncesNone d s where
  listed := h.mono fun c => isListed_of_isAsciiWord
  words := by
    rw [lexemes_word h, List.nil_append, wordRead]
    split
    · exact fun word hword => absurd hword List.not_mem_nil
    · exact List.forall_mem_singleton.mpr hs

/-- A number announces no table. -/
theorem announcesNone_toString (n : Nat) : AnnouncesNone d (toString n) := by
  refine announcesNone_word (fun c hc => ((Aliases.isLowerWord_toString n).2 c hc).1) ?_
  rw [Bool.eq_false_iff]
  intro hannounces
  -- both keywords have the letter, which is no digit in any case
  have hmem : 'O' ∈ (toString n).toList.map Char.toUpper := by
    simp only [announces, List.contains_cons, List.contains_nil, Bool.or_false, Bool.or_eq_true,
      beq_iff_eq] at hannounces
    rcases hannounces with heq | heq <;> rw [heq] <;> decide
  obtain ⟨c, hc, hupper⟩ := List.mem_map.mp hmem
  rw [Nat.toString_eq_repr, Nat.toList_repr] at hc
  have hdigit := Nat.isDigit_of_mem_toDigits (by decide) (by decide) hc
  have hlower : c.isLower = false := by
    rw [Char.isDigit, Bool.and_eq_true, decide_eq_true_eq, decide_eq_true_eq] at hdigit
    rw [Char.isLower, Bool.and_eq_false_iff, decide_eq_false_iff_not]
    exact .inl fun hle => absurd (UInt32.le_trans hle hdigit.2) (by decide)
  rw [Char.toUpper_eq_of_not_isLower (by simp [hlower])] at hupper
  rw [hupper] at hdigit
  exact absurd hdigit (by decide)

/-- A keyword announces the table that it is written with. -/
theorem names_from (htable : isIdentifier table.toList = true) (ht : t = "" ∨ ∃ u, t = " " ++ u) :
    namesAnnounced d ("FROM " ++ table ++ t) = table :: namesAnnounced d t := by
  obtain ⟨hne, hword⟩ := isIdentifier_iff.mp htable
  have hfrom : ∀ cs, lexemes d .code [] ("FROM ".toList ++ cs) =
      "FROM".toList :: lexemes d .code [] cs := by
    intro cs
    have hletters : ∀ c ∈ "FROM".toList, isAsciiWord c = true := List.all_eq_true.mp (by decide)
    have happend := @lexemes_append d [] "FROM".toList cs fun c hc =>
      isListed_of_isAsciiWord (hletters c hc)
    rwa [lexemes_word hletters] at happend
  have hnamed : lexemes d .code [] (table.toList ++ t.toList) =
      table.toList :: lexemes d .code [] t.toList := by
    have hread : lexemes d .code [] table.toList = [table.toList] := by
      rw [lexemes_word hword, List.nil_append, wordRead, if_neg hne]
    rcases ht with rfl | ⟨u, rfl⟩
    · rw [String.toList_empty, List.append_nil, hread]
      rfl
    · have happend := @lexemes_append d [] table.toList u.toList fun c hc =>
        isListed_of_isAsciiWord (hword c hc)
      have hblank : (" " ++ u).toList = ' ' :: u.toList := by
        rw [String.toList_append]
        rfl
      rw [hblank, happend, hread]
      rfl
  have hname : nameOf? d table.toList = some table := by
    obtain ⟨c, hc⟩ := List.exists_mem_of_ne_nil _ hne
    have hsign : table.toList.all (signs d).contains = false :=
      List.all_eq_false.mpr ⟨c, hc, by rw [not_sign_of_isAsciiWord (hword c hc)]; decide⟩
    have hquotes : isAsciiWord d.opening = false ∧ isAsciiWord d.closing = false := by
      cases d <;> decide
    have hkept : table.toList.filter (fun c => c ≠ d.opening && c ≠ d.closing) = table.toList := by
      refine List.filter_eq_self.mpr fun c hc => ?_
      have hopening : c ≠ d.opening := fun heq => by
        rw [← heq, hword c hc] at hquotes
        exact absurd hquotes.1 (by decide)
      have hclosing : c ≠ d.closing := fun heq => by
        rw [← heq, hword c hc] at hquotes
        exact absurd hquotes.2 (by decide)
      simp [hopening, hclosing]
    rw [nameOf?, hsign, if_neg Bool.false_ne_true, hkept, String.ofList_toList]
  have hkeyword : announces "FROM".toList = true := by decide
  rw [namesAnnounced, String.toList_append, String.toList_append, List.append_assoc, hfrom, hnamed,
    announced.eq_def]
  dsimp only
  rw [hkeyword, announced, hname]
  rfl

/-- What stands in a query of a template before its table announces none. -/
theorem announcesNone_front {dataset : Dataset} : ∃ key columns,
    Template.ofDataset dataset = Template.ofColumns key columns ∧
      AnnouncesNone d ("SELECT " ++ d.topClause limit ++ columns) := by
  have hselect : AnnouncesNone d "SELECT" := announcesNone_word (by decide) (by decide)
  have hcolumns : ∃ key columns, Template.ofDataset dataset = Template.ofColumns key columns ∧
      AnnouncesNone d columns := by
    cases dataset <;> refine ⟨_, _, rfl, List.all_eq_true.mp (by decide), ?_⟩ <;>
      cases d <;> decide
  obtain ⟨key, columns, htemplate, hcolumns⟩ := hcolumns
  refine ⟨key, columns, htemplate, ?_⟩
  have hplain : AnnouncesNone d ("SELECT " ++ "" ++ columns) := hselect.blank hcolumns
  cases d with
  | postgres | mySql => exact hplain
  | msSql =>
    cases limit with
    | none => exact hplain
    | some n =>
      have htop : AnnouncesNone .msSql "TOP" := announcesNone_word (by decide) (by decide)
      have hwhole := ((hselect.blank htop).blank (announcesNone_toString n)).blank hcolumns
      have htext : "SELECT " ++ Dialect.msSql.topClause (some n) ++ columns =
          "SELECT" ++ " " ++ "TOP" ++ " " ++ toString n ++ " " ++ columns := by
        simp only [Dialect.topClause, ← String.append_assoc]
        rfl
      rw [htext]
      exact hwhole

/-- A limit at the end announces no table. -/
theorem names_limitClause : namesAnnounced d (d.limitClause limit) = [] := by
  obtain h | ⟨n, h⟩ := @limitClause_cases d limit
  · rw [h]
    rfl
  · have hempty : AnnouncesNone d "" := announcesNone_word (by decide) (by decide)
    have hlimit : AnnouncesNone d "LIMIT" := announcesNone_word (by decide) (by decide)
    have htext : " LIMIT " ++ toString n = "" ++ " " ++ "LIMIT" ++ " " ++ toString n := rfl
    rw [h, htext]
    exact ((hempty.blank hlimit).blank (announcesNone_toString n)).names_eq

end Names

end Recount.Sql

/-! ## Compiled queries and templates -/

namespace Recount.Sql

open Text

variable {c : Compiler} {known : Catalog} {q : Query} {limit : Option Nat}

section Compiled

/-- A table that passes its check is known. -/
theorem contains_of_checkTable {table : String} {u : Unit}
    (h : checkTable (some known) table = .ok u) : known.contains table = true := by
  obtain ⟨_, -, h⟩ := bind_eq_ok_iff.mp h
  dsimp only at h
  split at h
  · assumption
  · cases h

/-- The tables of a specification that is resolved are known. -/
theorem contains_of_resolve {spec : QuerySpec} {s : Select}
    (h : resolve (some known) spec = .ok s) : ∀ table ∈ spec.tables, known.contains table = true := by
  obtain ⟨_, hmain, hjoins, -⟩ := resolve_parts h
  refine List.forall_mem_cons.mpr ⟨contains_of_checkTable hmain, fun table hmem => ?_⟩
  obtain ⟨j, hj, rfl⟩ := List.mem_map.mp hmem
  obtain ⟨_, htable, -⟩ := bind_eq_ok_iff.mp (forM_eq_ok_iff.mp hjoins j hj)
  exact contains_of_checkTable htable

/-- The tables that are found in a compiled query are those of its specification, and are known. -/
theorem tables_of_compile {spec : QuerySpec} (hcatalog : c.catalog = some known)
    (h : c.compile spec = .ok q) : (tablesOf q.sql).map Prod.fst = spec.tables ∧
      ∀ table ∈ spec.tables, known.contains table = true := by
  obtain ⟨s, hresolved, rfl⟩ := compile_eq_ok h
  obtain ⟨a, hbuild, htables, -⟩ := resolve_eq_ok hresolved
  refine ⟨?_, contains_of_resolve (hcatalog ▸ hresolved)⟩
  rw [tablesOf_text hresolved, htables, Aliases.tables_map_fst (Aliases.build_eq_ok hbuild).1]
  rfl

/-- Where there is a catalog, only a query that is compiled is accepted for a mapping. -/
theorem compile_of_compileMapping {m : Mapping} (hcatalog : c.catalog = some known)
    (h : c.compileMapping m limit = .ok q) : c.compile (.ofMapping m limit) = .ok q := by
  unfold Compiler.compileMapping at h
  split at h
  · obtain ⟨_, -, h⟩ := bind_eq_ok_iff.mp h
    rw [hcatalog] at h
    cases h
  · exact h

end Compiled

section Templates

variable {template : TemplateQuery} {condition : String} {d : Dialect}

/-- What stands in the query of a template after its table. -/
def Template.afterTable (d : Dialect) (limit : Option Nat) (condition : String) : String :=
  String.ofList (replaceFrom limitMark (d.limitClause limit).toList 0 condition.toList) ++
    d.limitClause limit

theorem find?_ofDataset {dataset : Dataset} :
    Template.find? (Template.ofDataset dataset).key = some (Template.ofDataset dataset) := by
  cases dataset <;> rfl

/-- The query of a template: its table is checked by itself and with its schema. -/
theorem compileTemplate_eq_ok (h : c.compileTemplate template limit = .ok q) :
    checkTable c.catalog template.table = .ok () ∧ isIdentifier template.table.toList = true ∧
      ∃ condition, Template.whereClause template.condition = .ok condition ∧
        q = ⟨(Template.ofDataset template.dataset).text c.dialect
          ⟨template.table, template.condition, limit⟩ condition, []⟩ := by
  obtain ⟨_, htable, h⟩ := bind_eq_ok_iff.mp h
  obtain ⟨sql, hrender, h⟩ := bind_eq_ok_iff.mp h
  cases h
  obtain ⟨t, condition, hfind, hname, -, hwhere, rfl⟩ := Template.render_parts hrender
  cases find?_ofDataset.symm.trans hfind
  exact ⟨htable, checkTableName_eq_ok hname, condition, hwhere, rfl⟩

theorem afterTable_empty : Template.afterTable d limit "" = d.limitClause limit := by
  rw [Template.afterTable]
  exact String.empty_append

/-- After its table, a query is at its end or goes on with a blank. -/
theorem afterTable_cases {given : Option String} (h : Template.whereClause given = .ok condition) :
    Template.afterTable d limit condition = "" ∨
      ∃ rest, Template.afterTable d limit condition = " " ++ rest := by
  rcases whereClause_eq_ok h with ⟨-, rfl⟩ | ⟨-, rfl⟩
  · rw [afterTable_empty]
    exact limitClause_cases.imp id fun ⟨n, hn⟩ => ⟨"LIMIT " ++ toString n, hn⟩
  · have hmark : Template.limitMark = '\x7b' :: "limit\x7d".toList := by decide
    have hblank : '\x7b' ∉ " ".toList := by decide
    have htext : (" WHERE " ++ trim (given.getD "")).toList =
        " ".toList ++ ("WHERE " ++ trim (given.getD "")).toList := by
      rw [← String.toList_append, ← String.append_assoc]
      rfl
    refine .inr ⟨Template.afterTable d limit ("WHERE " ++ trim (given.getD "")), ?_⟩
    rw [Template.afterTable, Template.afterTable, htext, hmark, replaceFrom_of_head hblank,
      String.ofList_append, String.ofList_toList, String.append_assoc]

theorem names_template (h : c.compileTemplate template limit = .ok q) :
    ∃ condition, Template.whereClause template.condition = .ok condition ∧
      namesAnnounced c.dialect q.sql = template.table ::
        namesAnnounced c.dialect (Template.afterTable c.dialect limit condition) := by
  obtain ⟨-, hname, condition, hwhere, rfl⟩ := compileTemplate_eq_ok h
  refine ⟨condition, hwhere, ?_⟩
  obtain ⟨key, columns, htemplate, hfront⟩ :=
    @announcesNone_front c.dialect limit template.dataset
  have htext : (Template.ofColumns key columns).text c.dialect
      ⟨template.table, template.condition, limit⟩ condition =
      "SELECT " ++ c.dialect.topClause limit ++ columns ++ " " ++
        ("FROM " ++ template.table ++ Template.afterTable c.dialect limit condition) := by
    have hkeyword : ∀ u, " FROM " ++ u = " " ++ ("FROM " ++ u) := fun u => by
      rw [← String.append_assoc]
      rfl
    simp [Template.text, Template.ofColumns, Template.pieceText, Template.afterTable, String.join,
      String.append_assoc, hkeyword]
  rw [htemplate, htext, hfront.names_append, names_from hname (afterTable_cases hwhere)]

end Templates

/-- Where there is a catalog, the tables of a compiled query are those of its specification, and
all of them are known, whether it is compiled for a specification or for a mapping. In the query of
a template, the table itself is known, and the other names that are announced are those which its
condition brings in: all names are known exactly if these are, and without a condition there are
none. -/
theorem tables_known (c : Compiler) (known : Catalog) (hcatalog : c.catalog = some known) :
    (∀ (spec : QuerySpec) (q : Query), c.compile spec = .ok q →
      (tablesOf q.sql).map Prod.fst = spec.tables ∧
        ∀ table ∈ spec.tables, known.contains table = true) ∧
    (∀ (m : Mapping) (limit : Option Nat) (q : Query), c.compileMapping m limit = .ok q →
      (tablesOf q.sql).map Prod.fst = (QuerySpec.ofMapping m limit).tables ∧
        ∀ table ∈ (QuerySpec.ofMapping m limit).tables, known.contains table = true) ∧
    (∀ (template : TemplateQuery) (limit : Option Nat) (q : Query),
      c.compileTemplate template limit = .ok q →
      known.contains template.table = true ∧
      ∃ condition, Template.whereClause template.condition = .ok condition ∧
        namesAnnounced c.dialect q.sql = template.table ::
          namesAnnounced c.dialect (Template.afterTable c.dialect limit condition) ∧
        ((∀ name ∈ namesAnnounced c.dialect q.sql, known.contains name = true) ↔
          ∀ name ∈ namesAnnounced c.dialect (Template.afterTable c.dialect limit condition),
            known.contains name = true) ∧
        (trim (template.condition.getD "") = "" →
          namesAnnounced c.dialect q.sql = [template.table])) := by
  refine ⟨fun spec q => tables_of_compile hcatalog, fun m limit q h =>
    tables_of_compile hcatalog (compile_of_compileMapping hcatalog h), ?_⟩
  intro template limit q h
  have htable := contains_of_checkTable (hcatalog ▸ (compileTemplate_eq_ok h).1)
  obtain ⟨condition, hwhere, hnames⟩ := names_template h
  refine ⟨htable, condition, hwhere, hnames, ?_, ?_⟩
  · rw [hnames, List.forall_mem_cons, and_iff_right htable]
  · intro hblank
    have hnone : condition = "" := by
      rw [Template.whereClause, hblank] at hwhere
      exact (Except.ok.inj hwhere).symm
    rw [hnames, hnone, afterTable_empty, names_limitClause]

/-- A catalog of two tables. -/
def itemsAndStock : Catalog := .ofTables ["items", "dbo.stock"]

/-- Items with their stock. -/
def stockOfItems : QuerySpec where
  mainTable := "items"
  joins := [⟨"dbo.stock", none, .left, [⟨"items.code", "stock.code"⟩]⟩]
  columns := [⟨"stock.onHand", some "qty"⟩]
  filters := []
  limit := some 5

/-- The costs of items on a condition. -/
def costsWhere (condition : String) : TemplateQuery := ⟨.cost, "items", some condition⟩

/-- A condition with a literal that only looks as if it named a table. -/
def unitAndStock : String := "unit = 'FROM x' AND EXISTS (SELECT 1 FROM \"stock\")"

theorem tables_known_unitAndStock :
    (∃ q, Compiler.compile ⟨.postgres, some itemsAndStock⟩ stockOfItems = .ok q ∧
      (tablesOf q.sql).map Prod.fst = ["items", "dbo.stock"] ∧
      ∀ table ∈ ["items", "dbo.stock"], itemsAndStock.contains table = true) ∧
    ∃ q, Compiler.compileTemplate ⟨.postgres, some itemsAndStock⟩ (costsWhere unitAndStock)
        (some 5) = .ok q ∧
      namesAnnounced .postgres q.sql = ["items", "stock"] ∧
      ∀ name ∈ namesAnnounced .postgres q.sql, itemsAndStock.contains name = true := by
  obtain ⟨hcompile, -, htemplate⟩ := tables_known ⟨.postgres, some itemsAndStock⟩ itemsAndStock rfl
  constructor
  · have hok : (Compiler.compile ⟨.postgres, some itemsAndStock⟩ stockOfItems).isOk = true := by
      decide +kernel
    obtain ⟨q, h⟩ := isOk_iff.mp hok
    exact ⟨q, h, hcompile stockOfItems q h⟩
  · have hnames : (Compiler.compileTemplate ⟨.postgres, some itemsAndStock⟩
        (costsWhere unitAndStock) (some 5)).map (fun q => namesAnnounced .postgres q.sql) =
          .ok ["items", "stock"] := by
      decide +kernel
    obtain ⟨q, h, hfound⟩ := map_eq_ok_iff.mp hnames
    obtain ⟨-, condition, -, hsplit, hknown, -⟩ := htemplate _ _ q h
    refine ⟨q, h, hfound, hknown.mpr ?_⟩
    -- the table itself aside, the condition announces the other name
    rw [← (List.cons.inj (hfound.symm.trans hsplit)).2]
    decide

/-- A condition that reads a table of its own. -/
def fromSecrets : String := "EXISTS (SELECT 1 FROM secrets)"

/-- The condition of a template may read a table that is not known. -/
theorem not_tables_known :
    ¬ ∀ (c : Compiler) (known : Catalog), c.catalog = some known →
      (∀ (spec : QuerySpec) (q : Query), c.compile spec = .ok q →
        ∀ t ∈ tablesOf q.sql, known.contains t.1 = true) ∧
      (∀ (m : Mapping) (limit : Option Nat) (q : Query), c.compileMapping m limit = .ok q →
        ∀ t ∈ tablesOf q.sql, known.contains t.1 = true) ∧
      (∀ (template : TemplateQuery) (limit : Option Nat) (q : Query),
        c.compileTemplate template limit = .ok q →
        ∀ name ∈ namesAnnounced c.dialect q.sql, known.contains name = true) := by
  intro hall
  have hnames : (Compiler.compileTemplate ⟨.postgres, some (.ofTables ["items"])⟩
      (costsWhere fromSecrets) (some 5)).map (fun q => namesAnnounced .postgres q.sql) =
        .ok ["items", "secrets"] := by
    decide +kernel
  obtain ⟨q, h, hfound⟩ := map_eq_ok_iff.mp hnames
  have hknown := (hall _ _ rfl).2.2 (costsWhere fromSecrets) (some 5) q h "secrets"
    (hfound ▸ List.mem_cons_of_mem _ List.mem_cons_self)
  exact absurd hknown (by decide)

end Recount.Sql
