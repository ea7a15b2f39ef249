import Recount.Proofs.Sql.Limiting

/-!
# The row limit

What is checked of a statement written by hand and of the condition of a template does not keep a
literal or a comment from being left open, nor a parenthesis from closing the one around the
statement: the limit holds for exactly those texts that close what they open.
-/

namespace Recount.Sql

open Text

/-- Which limits hold. A limit that stands in front is read as code. A statement written by hand
stands in the parentheses around it, before a limit that is read as code, exactly if it closes by
itself what it opens. The limit after the condition of a template is read as code exactly if the
condition by itself leaves the reader in code: without a hash sign that opens a comment, exactly if
its quotes are even in number. -/
theorem limit_holds_iff (d : Dialect) (n : Nat) :
    ReadOutside d (Mode.code.after d "SELECT ".toList) (d.topClause (some n)).toList ∧
    (∀ (m : Mapping) (raw : String) (q : Query), m.rawQuery = some raw → isBlankText raw = false →
      Compiler.compileMapping ⟨d, none⟩ m (some n) = .ok q →
      1 ≤ n ∧ n ≤ maxRows ∧ ∃ statement : String, checkSelect raw = .ok statement ∧
        q = ⟨d.beforeStatement n ++ statement ++ ") q" ++ d.limitClause (some n), []⟩ ∧
        (Encloses d (d.beforeStatement n).toList statement.toList ") q".toList
          (d.limitClause (some n)).toList ↔ Closed d statement.toList)) ∧
    (∀ (key : String) (p : TemplateParams) (sql fragment : String), p.limit = some n →
      trim (p.condition.getD "") = fragment → Template.render key d p = .ok sql →
      1 ≤ n ∧ n ≤ maxRows ∧ ∃ lead : String,
        sql = "SELECT " ++ d.topClause (some n) ++ lead ++ placed d n fragment ++
          d.limitClause (some n) ∧
        (ReadOutside d (Mode.code.after d ("SELECT " ++ d.topClause (some n) ++ lead ++
            placed d n fragment).toList) (d.limitClause (some n)).toList ↔
          d = .msSql ∨ (Mode.code.after d fragment.toList).isOutside = true) ∧
        ((d = .mySql → '#' ∉ fragment.toList) →
          ((Mode.code.after d fragment.toList).isOutside = true ↔
            Even (fragment.toList.count '\'')))) := by
  have htop : ∀ c ∈ (d.topClause (some n)).toList, isQuiet c = true :=
    fun c hc => isQuiet_of_isPlain (isPlain_topClause c hc)
  have hlimit : ∀ c ∈ (d.limitClause (some n)).toList, isQuiet c = true :=
    fun c hc => isQuiet_of_isPlain (isPlain_limitClause c hc)
  refine ⟨?_, ?_, ?_⟩
  · rw [after_code_of_isPlain isPlain_select]
    exact readOutside_of_isQuiet htop rfl
  · intro m raw q hraw hblank h
    obtain ⟨hpos, hle, statement, hstatement, hq⟩ := compileMapping_eq_ok hraw hblank h
    obtain ⟨hafter, hopened⟩ := read_beforeStatement (d := d) (n := n)
    have htail : ∀ c ∈ ") q".toList, isQuiet c = true := List.all_eq_true.mp (by decide)
    exact ⟨hpos, hle, statement, hstatement, hq, encloses_iff hafter hopened htail hlimit⟩
  · rintro key p sql fragment hgiven rfl h
    obtain ⟨hpos, hle, hline, hblock, lead, hlead, hsql⟩ := render_eq_ok hgiven h
    refine ⟨hpos, hle, lead, hsql, ?_, isOutside_after_iff_even hline hblock⟩
    by_cases hd : d = .msSql
    · subst hd
      exact iff_of_true readOutside_nil (.inl rfl)
    · rw [readOutside_iff hlimit (limitClause_ne_nil hd), String.toList_append, Mode.after_append,
        hlead, after_placed hd]
      simp [hd]

/-- A mapping with a query that is written by hand. -/
def handWritten (raw : String) : Mapping where
  id := .nil
  tenant := .nil
  connection := .nil
  dataset := .items
  name := "items"
  mainTable := "items"
  joins := []
  fields := []
  filters := []
  rawQuery := some raw
  version := 1
  isActive := true
  createdBy := .nil
  createdAt := default
  updatedAt := default

theorem compileMapping_handWritten {d : Dialect} {n : Nat} {raw statement : String}
    (hblank : isBlankText raw = false) (hlimit : checkLimit (some n) = .ok ())
    (hstatement : checkSelect raw = .ok statement) :
    Compiler.compileMapping ⟨d, none⟩ (handWritten raw) (some n) =
      .ok ⟨d.limitStatement statement (some n), []⟩ := by
  have hgiven : (handWritten raw).rawQuery.filter (fun q => !isBlankText q) = some raw := by
    simp [handWritten, hblank]
  unfold Compiler.compileMapping
  rw [hgiven]
  dsimp only
  rw [hlimit, hstatement]
  rfl

/-- A parenthesis in a literal closes nothing, and a quote that stands twice closes no literal. -/
theorem limit_holds_iff_quoted :
    (∃ q, Compiler.compileMapping ⟨.postgres, none⟩
        (handWritten "SELECT ')' AS c FROM (SELECT 1) t;") (some 5) = .ok q ∧
      q.sql = "SELECT * FROM (SELECT ')' AS c FROM (SELECT 1) t) q LIMIT 5" ∧
      Encloses .postgres "SELECT * FROM (".toList "SELECT ')' AS c FROM (SELECT 1) t".toList
        ") q".toList " LIMIT 5".toList) ∧
    ∃ lead, Template.render "stock" .mySql ⟨"stock", some " name = 'O''Hara' ", some 5⟩ =
        .ok (lead ++ " LIMIT 5") ∧
      ReadOutside .mySql (Mode.code.after .mySql lead.toList) " LIMIT 5".toList := by
  constructor
  · have hblank : isBlankText "SELECT ')' AS c FROM (SELECT 1) t;" = false := by decide
    have hchecked : checkSelect "SELECT ')' AS c FROM (SELECT 1) t;" =
        .ok "SELECT ')' AS c FROM (SELECT 1) t" := by decide
    have hcompile := compileMapping_handWritten (d := .postgres) (n := 5) hblank rfl hchecked
    obtain ⟨-, -, statement, hstatement, -, hholds⟩ :=
      (limit_holds_iff .postgres 5).2.1 _ _ _ rfl hblank hcompile
    cases hchecked.symm.trans hstatement
    exact ⟨_, hcompile, by decide, hholds.mpr (by decide +kernel)⟩
  · have hrender : Template.render "stock" .mySql ⟨"stock", some " name = 'O''Hara' ", some 5⟩ =
        .ok "SELECT item_code, location_code, quantity FROM stock WHERE name = 'O''Hara' LIMIT 5" := by
      decide
    obtain ⟨-, -, lead, hsql, hholds, -⟩ :=
      (limit_holds_iff .mySql 5).2.2 _ _ _ _ rfl rfl hrender
    exact ⟨_, hrender.trans (congrArg Except.ok hsql), hholds.mpr (.inr (by decide))⟩

/-- A statement that closes the parenthesis around it and comments the limit out is accepted, and so
is a condition that comments the limit out by a hash sign. -/
theorem not_limit_holds :
    (¬ ∀ (d : Dialect) (n : Nat) (m : Mapping) (raw statement : String) (q : Query),
      1 ≤ n → n ≤ maxRows → m.rawQuery = some raw → isBlankText raw = false →
      Compiler.compileMapping ⟨d, none⟩ m (some n) = .ok q → checkSelect raw = .ok statement →
      Encloses d (d.beforeStatement n).toList statement.toList ") q".toList
        (d.limitClause (some n)).toList) ∧
    ¬ ∀ (d : Dialect) (n : Nat) (key : String) (p : TemplateParams) (lead : String),
      1 ≤ n → n ≤ maxRows → p.limit = some n →
      Template.render key d p = .ok (lead ++ d.limitClause (some n)) →
      ReadOutside d (Mode.code.after d lead.toList) (d.limitClause (some n)).toList := by
  constructor
  · intro hall
    have hblank : isBlankText "SELECT * FROM items) q --" = false := by decide
    have hchecked : checkSelect "SELECT * FROM items) q --" = .ok "SELECT * FROM items) q --" := by
      decide
    have hcompile := compileMapping_handWritten (d := .postgres) (n := 5) hblank rfl hchecked
    have hencloses := hall _ _ _ _ _ _ (by decide) (by decide) rfl hblank hcompile hchecked
    exact absurd hencloses.outside (by decide)
  · intro hall
    have hrender : Template.render "ITEMS" .mySql ⟨"items", some "1=1 #", some 5⟩ =
        .ok ("SELECT item_code, item_name, uom, pack_qty, barcode, category, brand FROM items" ++
          " WHERE 1=1 #" ++ Dialect.limitClause .mySql (some 5)) := by
      decide
    have hread := hall _ _ _ _ _ (by decide) (by decide) rfl hrender
    exact absurd hread (by decide)

end Recount.Sql
