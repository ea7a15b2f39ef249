import Recount.Proofs.Sql.Lexical
import Recount.Proofs.Sql.Placeholders
import Recount.Proofs.Text.Trim
import Recount.Sql.Query

/-!
# Around what is limited

A statement written by hand stands in parentheses, and the condition of a template stands between
the columns and the limit. What stands around them is read as code, whatever they are.
-/

namespace Recount.Sql

open Text

variable {d : Dialect} {n : Nat} {c : Char} {cs : List Char}

section Quiet

theorem isQuiet_of_isPlain (h : isPlain c = true) : isQuiet c = true := by
  by_contra hnot
  have hmem : c ∈ ['\'', '-', '/', '*', '#', '\n'] := by
    rwa [isQuiet, Bool.not_eq_true, Bool.not_eq_false', List.contains_iff_mem] at hnot
  simp only [List.mem_cons, List.not_mem_nil, or_false] at hmem
  rcases hmem with rfl | rfl | rfl | rfl | rfl | rfl <;> exact absurd h (by decide)

theorem weight_of_isPlain (h : isPlain c = true) : weight c = 0 := by
  unfold weight
  split
  · next hc => exact absurd (hc ▸ h) (by decide)
  · split
    · next hc => exact absurd (hc ▸ h) (by decide)
    · rfl

theorem after_code_of_isPlain (h : ∀ c ∈ cs, isPlain c = true) : Mode.code.after d cs = .code := by
  cases cs with
  | nil => rfl
  | cons c cs => exact after_of_isQuiet (fun e he => isQuiet_of_isPlain (h e he)) (List.cons_ne_nil c cs)

theorem opened_of_isPlain {m : Mode} (h : ∀ c ∈ cs, isPlain c = true) : opened d m cs = 0 := by
  induction cs generalizing m with
  | nil => rfl
  | cons c cs ih =>
    rw [opened, weight_of_isPlain (h c List.mem_cons_self),
      ih fun e he => h e (List.mem_cons_of_mem c he)]
    simp

theorem isPlain_select : ∀ c ∈ "SELECT ".toList, isPlain c = true :=
  List.all_eq_true.mp (by decide)

end Quiet

section Statement

variable {s raw : String} {head statement tail limit : List Char}

/-- In a query, a statement stands in one pair of parentheses: it leaves no literal and no comment
open, its own parentheses are balanced and never close the one before it, and the limit is read
outside of literals and comments. -/
structure Encloses (d : Dialect) (head statement tail limit : List Char) : Prop where
  outside : (Mode.code.after d (head ++ statement)).isOutside = true
  balanced : opened d .code (head ++ statement) = 1
  kept : ∀ before, before <+: statement → 1 ≤ opened d .code (head ++ before)
  limit : ReadOutside d (Mode.code.after d (head ++ statement ++ tail)) limit

/-- What stands before a statement that is limited from outside. -/
def Dialect.beforeStatement (d : Dialect) (n : Nat) : String :=
  "SELECT " ++ d.topClause (some n) ++ "* FROM ("

theorem isTrimmed_withoutSeparator : IsTrimmed (withoutSeparator raw) := by
  unfold withoutSeparator
  dsimp only
  split
  · unfold trimEnd
    rw [String.toList_ofList]
    refine @isTrimmed_dropEndWhile raw.toList _ ((List.dropLast_prefix _).trans ?_)
    rw [trim, String.toList_ofList]
    exact dropEndWhile_prefix_self
  · exact isTrimmed_trim

/-- An accepted statement has no blanks at its ends and no separator. -/
theorem checkSelect_eq_ok (h : checkSelect raw = .ok s) : IsTrimmed s ∧ ';' ∉ s.toList := by
  unfold checkSelect at h
  dsimp only at h
  split at h
  · cases h
  · split at h
    · cases h
    · split at h
      · cases h
      · next hseparator =>
        split at h
        · cases h
        · rw [← Except.ok.inj h]
          exact ⟨isTrimmed_withoutSeparator, by simpa using hseparator⟩

theorem limitStatement_eq (h : IsTrimmed s) (hseparator : ';' ∉ s.toList) :
    d.limitStatement s (some n) =
      d.beforeStatement n ++ s ++ ") q" ++ d.limitClause (some n) := by
  unfold Dialect.limitStatement
  rw [h.trim_eq, trimEndOf_of_not_mem hseparator, h.trimEnd_eq]
  rfl

theorem checkLimit_eq_ok {u : Unit} (h : checkLimit (some n) = .ok u) : 1 ≤ n ∧ n ≤ maxRows := by
  unfold checkLimit at h
  dsimp only at h
  split at h
  · cases h
  · split at h
    · cases h
    · omega

/-- The query of a statement that is written by hand. -/
theorem compileMapping_eq_ok {m : Mapping} {q : Query} (hraw : m.rawQuery = some raw)
    (hblank : isBlankText raw = false)
    (h : Compiler.compileMapping ⟨d, none⟩ m (some n) = .ok q) :
    1 ≤ n ∧ n ≤ maxRows ∧ ∃ statement, checkSelect raw = .ok statement ∧
      q = ⟨d.beforeStatement n ++ statement ++ ") q" ++ d.limitClause (some n), []⟩ := by
  have hgiven : m.rawQuery.filter (fun q => !isBlankText q) = some raw := by
    simp [hraw, hblank]
  unfold Compiler.compileMapping at h
  rw [hgiven] at h
  obtain ⟨_, hlimit, h⟩ := bind_eq_ok_iff.mp h
  obtain ⟨statement, hstatement, h⟩ := bind_eq_ok_iff.mp h
  cases h
  obtain ⟨htrimmed, hseparator⟩ := checkSelect_eq_ok hstatement
  obtain ⟨hpos, hle⟩ := checkLimit_eq_ok hlimit
  exact ⟨hpos, hle, statement, hstatement, by rw [limitStatement_eq htrimmed hseparator]⟩

/-- One parenthesis is open before the statement. -/
theorem read_beforeStatement :
    Mode.code.after d (d.beforeStatement n).toList = .code ∧
      opened d .code (d.beforeStatement n).toList = 1 := by
  have hplain : ∀ c ∈ ("SELECT " ++ d.topClause (some n)).toList, isPlain c = true := by
    rw [String.toList_append, List.forall_mem_append]
    exact ⟨isPlain_select, isPlain_topClause⟩
  have hfrom : Mode.code.after d "* FROM (".toList = .code ∧
      opened d .code "* FROM (".toList = 1 := by
    cases d <;> decide
  unfold Dialect.beforeStatement
  rw [String.toList_append, Mode.after_append, opened_append, after_code_of_isPlain hplain,
    opened_of_isPlain hplain, Int.zero_add]
  exact hfrom

/-- A statement stands in the parentheses around it exactly if it closes what it opens. -/
theorem encloses_iff (hafter : Mode.code.after d head = .code) (hopened : opened d .code head = 1)
    (htail : ∀ c ∈ tail, isQuiet c = true) (hlimit : ∀ c ∈ limit, isQuiet c = true) :
    Encloses d head statement tail limit ↔ Closed d statement := by
  have hmode : ∀ cs, Mode.code.after d (head ++ cs) = Mode.code.after d cs := by
    intro cs
    rw [Mode.after_append, hafter]
  have hdepth : ∀ cs, opened d .code (head ++ cs) = 1 + opened d .code cs := by
    intro cs
    rw [opened_append, hafter, hopened]
  constructor
  · intro h
    refine ⟨?_, ?_, fun before hbefore => ?_⟩
    · rw [← hmode]
      exact h.outside
    · have hbalanced := h.balanced
      rw [hdepth] at hbalanced
      omega
    · have hkept := h.kept before hbefore
      rw [hdepth] at hkept
      omega
  · intro h
    refine ⟨?_, ?_, fun before hbefore => ?_, ?_⟩
    · rw [hmode]
      exact h.outside
    · rw [hdepth, h.balanced]
      rfl
    · have hkept := h.kept before hbefore
      rw [hdepth]
      omega
    · refine readOutside_of_isQuiet hlimit ?_
      rw [List.append_assoc, hmode, Mode.after_append]
      exact isOutside_after_of_isQuiet htail h.outside

end Statement

section Fragment

variable {fragment condition key sql : String} {pattern replacement : List Char} {p : TemplateParams}

/-- A condition as it stands in a query: the row limit takes the place of its marks. -/
def placed (d : Dialect) (n : Nat) (condition : String) : String :=
  String.ofList
    (Template.replaceFrom Template.limitMark (d.limitClause (some n)).toList 0 condition.toList)

theorem replaceFrom_skip {skip : Nat} :
    Template.replaceFrom pattern replacement skip cs =
      Template.replaceFrom pattern replacement 0 (cs.drop skip) := by
  induction skip generalizing cs with
  | zero => rfl
  | succ skip ih =>
    cases cs with
    | nil => rfl
    | cons c cs => exact ih

/-- An occurrence of the pattern is replaced as a whole. -/
theorem replaceFrom_pattern (hne : pattern ≠ []) :
    Template.replaceFrom pattern replacement 0 (pattern ++ cs) =
      replacement ++ Template.replaceFrom pattern replacement 0 cs := by
  cases pattern with
  | nil => exact absurd rfl hne
  | cons c pattern =>
    have hstart : (afterStart? (c :: pattern) (c :: (pattern ++ cs))).isSome = true :=
      isSome_afterStart?_iff.mpr (List.prefix_append (c :: pattern) cs)
    rw [List.cons_append, Template.replaceFrom, if_pos hstart, replaceFrom_skip, List.length_cons,
      Nat.add_sub_cancel, List.drop_left]

theorem replaceFrom_of_head {first : Char} {tail : List Char} (hcs : first ∉ cs) {ds : List Char} :
    Template.replaceFrom (first :: tail) replacement 0 (cs ++ ds) =
      cs ++ Template.replaceFrom (first :: tail) replacement 0 ds := by
  induction cs with
  | nil => rfl
  | cons c cs ih =>
    have hnot : ¬ (afterStart? (first :: tail) (c :: (cs ++ ds))).isSome = true := by
      rw [isSome_afterStart?_iff, List.cons_prefix_cons]
      rintro ⟨rfl, -⟩
      exact hcs List.mem_cons_self
    rw [List.cons_append, Template.replaceFrom, if_neg hnot,
      ih fun h => hcs (List.mem_cons_of_mem c h)]
    rfl

/-- A reader does not tell a quiet text from another one that takes its place. -/
theorem after_replaceFrom {m : Mode} (hpattern : ∀ c ∈ pattern, isQuiet c = true)
    (hne : pattern ≠ []) (hreplacement : ∀ c ∈ replacement, isQuiet c = true)
    (hne' : replacement ≠ []) :
    m.after d (Template.replaceFrom pattern replacement 0 cs) = m.after d cs := by
  -- An occurrence is passed over as a whole, so the induction is on the length.
  induction hlength : cs.length using Nat.strong_induction_on generalizing cs m with
  | h length ih =>
    subst hlength
    by_cases hstart : pattern <+: cs
    · obtain ⟨rest, rfl⟩ := hstart
      have hshorter : rest.length < (pattern ++ rest).length := by
        have := List.length_pos_of_ne_nil hne
        rw [List.length_append]
        omega
      rw [replaceFrom_pattern hne, Mode.after_append, Mode.after_append,
        after_of_isQuiet hreplacement hne', after_of_isQuiet hpattern hne]
      exact ih rest.length hshorter rfl
    · cases cs with
      | nil => rfl
      | cons c cs =>
        have hnot : ¬ (afterStart? pattern (c :: cs)).isSome = true :=
          fun h => hstart (isSome_afterStart?_iff.mp h)
        rw [Template.replaceFrom, if_neg hnot]
        exact ih cs.length (Nat.lt_succ_self _) rfl

/-- A condition is read in a query as it is read by itself. -/
theorem after_placed {m : Mode} (hd : d ≠ .msSql) :
    m.after d (placed d n condition).toList = m.after d condition.toList := by
  unfold placed
  rw [String.toList_ofList]
  exact after_replaceFrom (List.all_eq_true.mp (by decide)) (by decide +kernel)
    (fun c hc => isQuiet_of_isPlain (isPlain_limitClause c hc)) (limitClause_ne_nil hd)

/-- An accepted fragment has no comments. -/
theorem checkFragment_eq_ok {u : Unit} (h : checkFragment fragment = .ok u) :
    ¬ ['-', '-'] <:+: fragment.toList ∧ ¬ ['/', '*'] <:+: fragment.toList := by
  unfold checkFragment at h
  split at h
  · cases h
  · split at h
    · cases h
    · next hcomment =>
      rw [Bool.or_eq_true, not_or] at hcomment
      exact ⟨fun hline => hcomment.1 (occursIn_iff.mpr hline),
        fun hblock => hcomment.2 (occursIn_iff.mpr hblock)⟩

theorem checkTableName_eq_ok {table : String} {u : Unit} (h : checkTableName table = .ok u) :
    isIdentifier table.toList = true := by
  unfold checkTableName at h
  split at h
  · next hident => exact hident
  · cases h

/-- The condition of a query is a checked fragment after the keyword, or nothing. -/
theorem whereClause_eq_ok {given : Option String} (h : Template.whereClause given = .ok condition) :
    (trim (given.getD "") = "" ∧ condition = "") ∨
      (checkFragment (trim (given.getD "")) = .ok () ∧
        condition = " WHERE " ++ trim (given.getD "")) := by
  unfold Template.whereClause at h
  dsimp only at h
  split at h
  · next hempty =>
    cases h
    exact .inl ⟨String.isEmpty_iff.mp hempty, rfl⟩
  · cases hcheck : checkFragment (trim (given.getD "")) with
    | error defect =>
      rw [hcheck] at h
      cases h
    | ok u =>
      rw [hcheck] at h
      cases h
      exact .inr ⟨rfl, rfl⟩

/-- What holds of the templates of all data sets and of the one for whole rows holds of all. -/
theorem Template.forall_mem_all {P : Template → Prop} (hdatasets : ∀ ds, P (ofDataset ds))
    (hrows : P (ofColumns wholeRowsKey "*")) : ∀ t ∈ all, P t := by
  intro t ht
  rcases List.mem_append.mp ht with ht | ht
  · obtain ⟨ds, -, rfl⟩ := List.mem_map.mp ht
    exact hdatasets ds
  · rw [List.mem_singleton.mp ht]
    exact hrows

/-- The columns of a template leave the reader in code. -/
theorem exists_columns : ∀ t ∈ Template.all,
    ∃ key columns, t = Template.ofColumns key columns ∧
      Mode.code.after d (columns ++ " FROM ").toList = .code := by
  refine Template.forall_mem_all (fun ds => ?_) ⟨_, _, rfl, by cases d <;> decide⟩
  cases ds <;> exact ⟨_, _, rfl, by cases d <;> decide⟩

theorem placed_where : placed d n (" WHERE " ++ fragment) = " WHERE " ++ placed d n fragment := by
  have hmark : Template.limitMark = '\x7b' :: "limit\x7d".toList := by decide
  have hkeyword : '\x7b' ∉ " WHERE ".toList := by decide
  refine String.toList_injective ?_
  simp only [placed, String.toList_append, String.toList_ofList]
  rw [hmark]
  exact replaceFrom_of_head hkeyword

theorem Template.checkLimit_eq_ok {u : Unit} (h : Template.checkLimit (some n) = .ok u) :
    1 ≤ n ∧ n ≤ maxRows := by
  unfold Template.checkLimit at h
  dsimp only at h
  split at h
  · cases h
  · next hin =>
    simp only [Bool.or_eq_true, decide_eq_true_eq, not_or, not_lt] at hin
    omega

/-- The text of a template, from its columns on. -/
theorem text_ofColumns {columns : String} (hlimit : p.limit = some n) :
    (Template.ofColumns key columns).text d p condition =
      "SELECT " ++ d.topClause (some n) ++ (columns ++ " FROM " ++ p.table) ++
        placed d n condition ++ d.limitClause (some n) := by
  simp [Template.text, Template.ofColumns, Template.pieceText, placed, hlimit, String.join,
    String.append_assoc]

/-- Before its condition, a template leaves the reader in code. -/
theorem after_columns {columns table : String}
    (hcolumns : Mode.code.after d (columns ++ " FROM ").toList = .code)
    (htable : isIdentifier table.toList = true) :
    Mode.code.after d ("SELECT " ++ d.topClause (some n) ++ (columns ++ " FROM " ++ table)).toList =
      .code := by
  have hname : ∀ c ∈ table.toList, isPlain c = true := by
    intro c hc
    simp [isPlain, (isIdentifier_iff.mp htable).2 c hc]
  rw [String.toList_append, Mode.after_append, String.toList_append, Mode.after_append,
    after_code_of_isPlain isPlain_select, after_code_of_isPlain isPlain_topClause,
    String.toList_append, Mode.after_append, hcolumns, after_code_of_isPlain hname]

/-- A template is rendered for a table and a limit that are accepted, with the clause of its
condition. -/
theorem Template.render_parts {p : TemplateParams} (h : Template.render key d p = .ok sql) :
    ∃ t condition, Template.find? key = some t ∧ checkTableName p.table = .ok () ∧
      Template.checkLimit p.limit = .ok () ∧ Template.whereClause p.condition = .ok condition ∧
      sql = t.text d p condition := by
  unfold Template.render at h
  cases hfind : Template.find? key with
  | none =>
    rw [hfind] at h
    cases h
  | some t =>
    rw [hfind] at h
    obtain ⟨_, htable, h⟩ := bind_eq_ok_iff.mp h
    obtain ⟨_, hlimit, h⟩ := bind_eq_ok_iff.mp h
    obtain ⟨condition, hwhere, h⟩ := bind_eq_ok_iff.mp h
    exact ⟨t, condition, rfl, htable, hlimit, hwhere, (Except.ok.inj h).symm⟩

/-- The query of a template: some code, the fragment, and the limit. -/
theorem render_eq_ok (hlimit : p.limit = some n) (h : Template.render key d p = .ok sql) :
    1 ≤ n ∧ n ≤ maxRows ∧
      ¬ ['-', '-'] <:+: (trim (p.condition.getD "")).toList ∧
      ¬ ['/', '*'] <:+: (trim (p.condition.getD "")).toList ∧
      ∃ lead, Mode.code.after d ("SELECT " ++ d.topClause (some n) ++ lead).toList = .code ∧
        sql = "SELECT " ++ d.topClause (some n) ++ lead ++
          placed d n (trim (p.condition.getD "")) ++ d.limitClause (some n) := by
  obtain ⟨t, condition, hfind, htable, hrange, hwhere, rfl⟩ := Template.render_parts h
  obtain ⟨key, columns, rfl, hcolumns⟩ := exists_columns (d := d) _ (List.mem_of_find?_eq_some hfind)
  obtain ⟨hpos, hle⟩ := Template.checkLimit_eq_ok (hlimit ▸ hrange)
  have hlead := after_columns (n := n) hcolumns (checkTableName_eq_ok htable)
  have hkeyword : ∀ c ∈ " WHERE ".toList, isPlain c = true :=
    List.all_eq_true.mp (by decide)
  rw [text_ofColumns hlimit]
  refine ⟨hpos, hle, ?_⟩
  rcases whereClause_eq_ok hwhere with ⟨hfragment, rfl⟩ | ⟨hcheck, rfl⟩
  · rw [hfragment]
    exact ⟨by decide, by decide +kernel, _, hlead, rfl⟩
  · obtain ⟨hline, hblock⟩ := checkFragment_eq_ok hcheck
    refine ⟨hline, hblock, columns ++ " FROM " ++ p.table ++ " WHERE ", ?_, ?_⟩
    · rw [← String.append_assoc, String.toList_append, Mode.after_append, hlead,
        after_code_of_isPlain hkeyword]
    · rw [placed_where]
      simp only [String.append_assoc]

end Fragment

end Recount.Sql
