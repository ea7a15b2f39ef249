import Mathlib.Logic.Basic
import Recount.Proofs.Sql.Limiting

/-!
# The parts of a template

A template is written with a mark for each part that varies. The marks are replaced one kind after
the other, that of the row limit last, when the condition stands in the text already. So what looks
like this mark in a condition is replaced as well; every other part is in the query once, as it is
given.
-/

/-! ## Replacing marks

A mark begins with a character that it does not have again, so no two of its occurrences overlap,
and none begins in front of a mark and ends inside of it. -/

namespace Recount.Sql.Template

open Text

variable {mark value cs ds tail : List Char} {first : Char} {pieces : List (List Char)}

theorem replaceFrom_of_not_infix (h : ¬ mark <:+: cs) : replaceFrom mark value 0 cs = cs := by
  induction cs with
  | nil => rfl
  | cons c cs ih =>
    have hnot : ¬ (afterStart? mark (c :: cs)).isSome = true := fun hstart =>
      h (isSome_afterStart?_iff.mp hstart).isInfix
    rw [replaceFrom, if_neg hnot,
      ih fun hwithin => h (hwithin.trans (List.suffix_cons c cs).isInfix)]

/-- What stands before a mark and what stands after it are replaced apart from each other. -/
theorem replaceFrom_append_mark (htail : first ∉ tail) :
    replaceFrom (first :: tail) value 0 (cs ++ (first :: tail ++ ds)) =
      replaceFrom (first :: tail) value 0 cs ++
        (value ++ replaceFrom (first :: tail) value 0 ds) := by
  -- An occurrence is passed over as a whole, so the induction is on the length.
  induction hlength : cs.length using Nat.strong_induction_on generalizing cs with
  | h length ih =>
    subst hlength
    by_cases hstart : first :: tail <+: cs
    · obtain ⟨rest, rfl⟩ := hstart
      have hshorter : rest.length < (first :: tail ++ rest).length := by simp
      rw [List.append_assoc, replaceFrom_pattern (List.cons_ne_nil _ _),
        replaceFrom_pattern (List.cons_ne_nil _ _), ih rest.length hshorter rfl, List.append_assoc]
    · cases cs with
      | nil =>
        rw [List.nil_append, replaceFrom_pattern (List.cons_ne_nil _ _)]
        rfl
      | cons c cs =>
        have hnot : ¬ first :: tail <+: c :: (cs ++ (first :: tail ++ ds)) := by
          rintro ⟨rest, hrest⟩
          rw [← List.cons_append] at hrest
          rcases List.append_eq_append_iff.mp hrest with ⟨more, hmore, -⟩ | ⟨inner, hinner, hds⟩
          · exact hstart ⟨more, hmore.symm⟩
          · cases inner with
            | nil => exact hstart (by rw [hinner, List.append_nil])
            | cons e inner =>
              obtain ⟨rfl, -⟩ := List.cons.inj hds
              obtain ⟨-, rfl⟩ := List.cons.inj hinner
              exact htail (List.mem_append_right _ List.mem_cons_self)
        have hnot' : ¬ (afterStart? (first :: tail) (c :: cs)).isSome = true :=
          fun h => hstart (isSome_afterStart?_iff.mp h)
        rw [List.cons_append, replaceFrom, if_neg (fun h => hnot (isSome_afterStart?_iff.mp h)),
          replaceFrom, if_neg hnot', ih cs.length (Nat.lt_succ_self _) rfl]
        rfl

/-- What replaces marks stands between the same pieces as they did. -/
theorem replaceFrom_intercalate (htail : first ∉ tail)
    (hpieces : ∀ piece ∈ pieces, ¬ first :: tail <:+: piece) :
    replaceFrom (first :: tail) value 0 ((first :: tail).intercalate pieces) =
      value.intercalate pieces := by
  induction pieces with
  | nil => rfl
  | cons piece rest ih =>
    obtain ⟨hpiece, hrest⟩ := List.forall_mem_cons.mp hpieces
    cases rest with
    | nil =>
      rw [List.intercalate_singleton, List.intercalate_singleton, replaceFrom_of_not_infix hpiece]
    | cons next rest =>
      rw [List.intercalate_cons_cons, List.append_assoc, replaceFrom_append_mark htail,
        replaceFrom_of_not_infix hpiece, ih hrest, List.intercalate_cons_cons, List.append_assoc]

theorem intercalate_append {ps qs : List (List Char)} (hps : ps ≠ []) (hqs : qs ≠ []) :
    mark.intercalate (ps ++ qs) = mark.intercalate ps ++ mark ++ mark.intercalate qs := by
  induction ps with
  | nil => exact absurd rfl hps
  | cons p ps ih =>
    cases ps with
    | nil => rw [List.singleton_append, List.intercalate_cons_of_ne_nil hqs,
        List.intercalate_singleton]
    | cons next ps =>
      rw [List.cons_append, List.cons_append, List.intercalate_cons_cons, ← List.cons_append,
        ih (List.cons_ne_nil _ _), List.intercalate_cons_cons]
      simp only [List.append_assoc]

/-- A text consists of pieces that hold no mark, with marks between them. -/
theorem exists_intercalate (mark cs : List Char) (hne : mark ≠ []) :
    ∃ pieces, pieces ≠ [] ∧ mark.intercalate pieces = cs ∧
      ∀ piece ∈ pieces, ¬ mark <:+: piece := by
  induction hlength : cs.length using Nat.strong_induction_on generalizing cs with
  | h length ih =>
    subst hlength
    by_cases hwithin : mark <:+: cs
    · obtain ⟨before, after, rfl⟩ := hwithin
      have hpos := List.length_pos_of_ne_nil hne
      obtain ⟨ps, hps, rfl, hbefore⟩ := ih before.length (by simp; omega) before rfl
      obtain ⟨qs, hqs, rfl, hafter⟩ := ih after.length (by simp; omega) after rfl
      refine ⟨ps ++ qs, by simp [hps], ?_, fun piece hpiece => ?_⟩
      · exact intercalate_append hps hqs
      · exact (List.mem_append.mp hpiece).elim (hbefore piece) (hafter piece)
    · exact ⟨[cs], by simp, List.intercalate_singleton, by simpa using hwithin⟩

/-- Where marks are replaced by what has none, one mark less is a text that has changed. -/
theorem count_intercalate (hvalue : first ∉ value) (htail : first ∉ tail) (hpieces : pieces ≠ []) :
    (value.intercalate pieces).count first + (pieces.length - 1) =
      ((first :: tail).intercalate pieces).count first := by
  induction pieces with
  | nil => exact absurd rfl hpieces
  | cons piece rest ih =>
    cases rest with
    | nil => simp
    | cons next rest =>
      have hih := ih (List.cons_ne_nil _ _)
      have hnone := List.count_eq_zero_of_not_mem hvalue
      have hone := List.count_eq_zero_of_not_mem htail
      simp only [List.intercalate_cons_cons, List.count_append, List.count_cons_self,
        List.length_cons] at hih ⊢
      omega

/-- A text is left as it is just if it holds no mark. -/
theorem replaceFrom_eq_self_iff (hvalue : first ∉ value) (htail : first ∉ tail) :
    replaceFrom (first :: tail) value 0 cs = cs ↔ ¬ first :: tail <:+: cs := by
  refine ⟨fun heq => ?_, replaceFrom_of_not_infix⟩
  obtain ⟨pieces, hne, rfl, hpieces⟩ := exists_intercalate (first :: tail) cs (List.cons_ne_nil _ _)
  rw [replaceFrom_intercalate htail hpieces] at heq
  have hcount := count_intercalate hvalue htail hne
  rw [heq] at hcount
  match pieces, hne with
  | [piece], _ =>
    rw [List.intercalate_singleton]
    exact hpieces piece List.mem_cons_self
  | _ :: _ :: _, _ =>
    simp only [List.length_cons] at hcount
    omega

end Recount.Sql.Template

/-! ## Filling in

The marks before the condition are replaced where only the template has them: the clause of the
limit and the name of a table hold no character that a mark begins with. The mark of the limit at
the end is the only one that is looked for in a condition as well. -/

namespace Recount.Sql

open Text

/-- A piece as it is written in a template: what varies has a mark. -/
def TemplatePiece.written : TemplatePiece → String
  | .text sql => sql
  | .top => "\x7btop\x7d"
  | .table => "\x7btable\x7d"
  | .condition => "\x7bwhere\x7d"
  | .limit => "\x7blimit\x7d"

/-- A template as it is written. -/
def Template.written (t : Template) : String := String.join (t.pieces.map TemplatePiece.written)

/-- Replaces the mark of a piece. -/
def TemplatePiece.replaced (piece : TemplatePiece) (value s : String) : String :=
  String.ofList (Template.replaceFrom piece.written.toList value.toList 0 s.toList)

/-- The condition without blanks at its ends. -/
def TemplateParams.fragment (p : TemplateParams) : String := trim (p.condition.getD "")

/-- The condition after its keyword, where there is one. -/
def TemplateParams.clause (p : TemplateParams) : String :=
  if p.fragment = "" then "" else " WHERE " ++ p.fragment

/-- A text without the character that a mark begins with. -/
def IsMarkless (s : String) : Prop := '\x7b' ∉ s.toList

/-- A part that is filled in. -/
def TemplatePiece.Varies : TemplatePiece → Prop
  | .text _ => False
  | .top | .table | .condition | .limit => True

instance (s : String) : Decidable (IsMarkless s) := inferInstanceAs (Decidable (¬ _))

variable {piece : TemplatePiece} {value before after s t condition key columns sql : String}
  {d : Dialect} {p : TemplateParams}

theorem isMarkless_append : IsMarkless (s ++ t) ↔ IsMarkless s ∧ IsMarkless t := by
  simp [IsMarkless]

theorem isMarkless_of_isPlain (h : ∀ c ∈ s.toList, isPlain c = true) : IsMarkless s := by
  intro hmem
  exact absurd (h _ hmem) (by decide)

/-- A mark has the character that it begins with only once. -/
theorem TemplatePiece.Varies.exists_tail (h : piece.Varies) :
    ∃ tail, piece.written.toList = '\x7b' :: tail ∧ '\x7b' ∉ tail := by
  cases piece with
  | text sql => exact h.elim
  | top | table | condition | limit => exact ⟨_, rfl, by decide⟩

namespace TemplatePiece

theorem varies_limit : TemplatePiece.limit.Varies := trivial

theorem not_infix_append (h : piece.Varies) (hbefore : IsMarkless before)
    (hafter : ¬ piece.written.toList <:+: after.toList) :
    ¬ piece.written.toList <:+: (before ++ after).toList := by
  obtain ⟨tail, hmark, -⟩ := h.exists_tail
  rw [String.toList_append]
  rintro ⟨left, right, hsplit⟩
  rw [List.append_assoc] at hsplit
  rcases List.append_eq_append_iff.mp hsplit with ⟨inner, hinner, hrest⟩ | ⟨inner, -, hrest⟩
  · cases inner with
    | nil => exact hafter ⟨[], right, hrest⟩
    | cons c inner =>
      rw [hmark] at hrest
      refine hbefore ?_
      rw [hinner, (List.cons.inj hrest).1]
      exact List.mem_append_right _ List.mem_cons_self
  · exact hafter ⟨inner, right, by rw [hrest, List.append_assoc]⟩

/-- A mark that is there once is replaced once. -/
theorem replaced_append (h : piece.Varies) (hbefore : IsMarkless before)
    (hafter : ¬ piece.written.toList <:+: after.toList) :
    piece.replaced value (before ++ (piece.written ++ after)) = before ++ (value ++ after) := by
  obtain ⟨tail, hmark, -⟩ := h.exists_tail
  refine String.toList_injective ?_
  rw [hmark] at hafter
  simp only [replaced, String.toList_append, String.toList_ofList, hmark]
  rw [replaceFrom_of_head hbefore, replaceFrom_pattern (List.cons_ne_nil _ _),
    Template.replaceFrom_of_not_infix hafter]

/-- Replacing a mark by what holds none changes just the texts with this mark. -/
theorem replaced_eq_self_iff (h : piece.Varies) (hvalue : IsMarkless value) :
    piece.replaced value s = s ↔ ¬ piece.written.toList <:+: s.toList := by
  obtain ⟨tail, hmark, htail⟩ := h.exists_tail
  rw [← String.toList_inj, replaced, String.toList_ofList, hmark,
    Template.replaceFrom_eq_self_iff hvalue htail]

/-- The mark after a text is replaced, as are those in the text. -/
theorem replaced_append_written (h : piece.Varies) (hbefore : IsMarkless before) :
    piece.replaced value (before ++ (s ++ piece.written)) =
      before ++ (piece.replaced value s ++ value) := by
  obtain ⟨tail, hmark, htail⟩ := h.exists_tail
  refine String.toList_injective ?_
  simp only [replaced, String.toList_append, String.toList_ofList, hmark]
  have hlast := @Template.replaceFrom_append_mark value.toList s.toList [] tail _ htail
  rw [List.append_nil] at hlast
  rw [replaceFrom_of_head hbefore, hlast]
  simp [Template.replaceFrom]

end TemplatePiece

namespace Template

/-- A template is made of columns that hold no mark. -/
theorem exists_markless : ∀ t ∈ all,
    ∃ key columns, t = ofColumns key columns ∧ IsMarkless (columns ++ " FROM ") := by
  refine forall_mem_all (fun ds => ?_) ⟨_, _, rfl, by decide⟩
  cases ds <;> exact ⟨_, _, rfl, by decide⟩

/-- The marks of a template are replaced in the order top, table, condition and limit. -/
def replaced (t : Template) (d : Dialect) (p : TemplateParams) (condition : String) : String :=
  TemplatePiece.limit.replaced (d.limitClause p.limit)
    (TemplatePiece.condition.replaced condition
      (TemplatePiece.table.replaced p.table
        (TemplatePiece.top.replaced (d.topClause p.limit) t.written)))

/-- The text of a template with a part in each of its places. -/
def filled (t : Template) (d : Dialect) (p : TemplateParams) (condition : String) : String :=
  String.join (t.pieces.map fun
    | .text sql => sql
    | .top => d.topClause p.limit
    | .table => p.table
    | .condition => condition
    | .limit => d.limitClause p.limit)

/-- What stands before the condition. -/
def lead (columns : String) (d : Dialect) (p : TemplateParams) : String :=
  "SELECT " ++ d.topClause p.limit ++ (columns ++ " FROM ") ++ p.table

theorem filled_ofColumns : (ofColumns key columns).filled d p condition =
    lead columns d p ++ (condition ++ d.limitClause p.limit) := by
  simp [filled, lead, ofColumns, String.join, String.append_assoc]

theorem written_ofColumns : (ofColumns key columns).written =
    "SELECT " ++ (TemplatePiece.top.written ++ (columns ++ " FROM " ++
      (TemplatePiece.table.written ++
        (TemplatePiece.condition.written ++ TemplatePiece.limit.written)))) := by
  simp only [written, ofColumns, String.join, List.map_cons, List.map_nil, List.foldl_cons,
    List.foldl_nil, String.empty_append, String.append_assoc, TemplatePiece.written.eq_1]

example : (ofDataset .cost).written =
    "SELECT \x7btop\x7ditem_code, cost FROM \x7btable\x7d\x7bwhere\x7d\x7blimit\x7d" := by
  decide

/-- A template is filled with different texts for different conditions. -/
theorem filled_inj {t : Template} {other : String} (ht : t ∈ all) :
    t.filled d p condition = t.filled d p other ↔ condition = other := by
  obtain ⟨key, columns, rfl, -⟩ := exists_markless t ht
  rw [filled_ofColumns, filled_ofColumns, String.append_right_inj, String.append_left_inj]

/-- Only in the condition is there something else to be replaced. -/
theorem text_eq_filled (t : Template) : t.text d p condition =
    t.filled d p (TemplatePiece.limit.replaced (d.limitClause p.limit) condition) := by
  unfold text filled
  congr 2

/-- Replacing the marks one kind after the other fills in a template whose table is named by a
word. -/
theorem replaced_eq_text {t : Template} (ht : t ∈ all) (htable : checkTableName p.table = .ok ()) :
    t.replaced d p condition = t.text d p condition := by
  obtain ⟨key, columns, rfl, hcolumns⟩ := exists_markless t ht
  have hselect : IsMarkless "SELECT " := by decide
  have htop : IsMarkless (d.topClause p.limit) := isMarkless_of_isPlain isPlain_topClause
  have hname : IsMarkless p.table := isMarkless_of_isPlain fun c hc => by
    simp [isPlain, (isIdentifier_iff.mp (checkTableName_eq_ok htable)).2 c hc]
  have hlead : IsMarkless ("SELECT " ++ d.topClause p.limit ++ (columns ++ " FROM ")) := by
    simp only [isMarkless_append] at hcolumns ⊢
    exact ⟨⟨hselect, htop⟩, hcolumns⟩
  have hleads : IsMarkless (lead columns d p) := isMarkless_append.mpr ⟨hlead, hname⟩
  calc (ofColumns key columns).replaced d p condition
    _ = TemplatePiece.limit.replaced (d.limitClause p.limit)
          (TemplatePiece.condition.replaced condition
            (TemplatePiece.table.replaced p.table
              ("SELECT " ++ d.topClause p.limit ++ (columns ++ " FROM ") ++
                (TemplatePiece.table.written ++
                  (TemplatePiece.condition.written ++ TemplatePiece.limit.written))))) := by
        rw [replaced, written_ofColumns, TemplatePiece.replaced_append (by trivial) hselect
          (TemplatePiece.not_infix_append (by trivial) hcolumns (by decide))]
        simp only [String.append_assoc]
    _ = TemplatePiece.limit.replaced (d.limitClause p.limit)
          (TemplatePiece.condition.replaced condition
            (lead columns d p ++
              (TemplatePiece.condition.written ++ TemplatePiece.limit.written))) := by
        rw [TemplatePiece.replaced_append (by trivial) hlead (by decide), lead]
        simp only [String.append_assoc]
    _ = TemplatePiece.limit.replaced (d.limitClause p.limit)
          (lead columns d p ++ (condition ++ TemplatePiece.limit.written)) := by
        rw [TemplatePiece.replaced_append (by trivial) hleads (by decide)]
    _ = (ofColumns key columns).text d p condition := by
        rw [TemplatePiece.replaced_append_written TemplatePiece.varies_limit hleads, text_eq_filled,
          filled_ofColumns]

theorem text_of_render (h : render key d p = .ok sql) :
    ∃ t, find? key = some t ∧ t ∈ all ∧ checkTableName p.table = .ok () ∧
      sql = t.text d p p.clause := by
  obtain ⟨t, condition, hfind, htable, -, hwhere, rfl⟩ := render_parts h
  have hclause : condition = p.clause := by
    unfold TemplateParams.clause
    split
    · next hnone =>
      rw [TemplateParams.fragment] at hnone
      rw [whereClause, hnone] at hwhere
      exact (Except.ok.inj hwhere).symm
    · next hsome =>
      rcases whereClause_eq_ok hwhere with ⟨hnone, -⟩ | ⟨-, rfl⟩
      · exact absurd hnone hsome
      · rfl
  exact ⟨t, hfind, List.mem_of_find?_eq_some hfind, htable, by rw [hclause]⟩

theorem isMarkless_limitClause : IsMarkless (d.limitClause p.limit) :=
  isMarkless_of_isPlain isPlain_limitClause

theorem toList_written_limit : TemplatePiece.limit.written.toList = limitMark := rfl

/-- A condition with marks of the row limit in it. -/
theorem exists_pieces (p : TemplateParams) (value : String) (h : p.fragment ≠ "") :
    ∃ pieces : List (List Char), limitMark.intercalate pieces = p.fragment.toList ∧
      (∀ piece ∈ pieces, ¬ limitMark <:+: piece) ∧
      TemplatePiece.limit.replaced value p.clause =
        " WHERE " ++ String.ofList (value.toList.intercalate pieces) := by
  obtain ⟨pieces, -, hpieces, hmarkless⟩ :=
    exists_intercalate limitMark p.fragment.toList (by decide)
  obtain ⟨tail, hmark, htail⟩ := TemplatePiece.varies_limit.exists_tail
  have hkeyword : IsMarkless " WHERE " := by decide
  refine ⟨pieces, hpieces, hmarkless, String.toList_injective ?_⟩
  rw [toList_written_limit] at hmark
  rw [TemplateParams.clause, if_neg h, TemplatePiece.replaced, toList_written_limit, hmark,
    String.toList_ofList, String.toList_append, replaceFrom_of_head hkeyword, ← hpieces, hmark,
    replaceFrom_intercalate htail (hmark ▸ hmarkless)]
  simp

theorem infix_clause_iff :
    TemplatePiece.limit.written.toList <:+: p.clause.toList ↔ limitMark <:+: p.fragment.toList := by
  have hkeyword : IsMarkless " WHERE " := by decide
  rw [← toList_written_limit]
  unfold TemplateParams.clause
  split
  · next hnone => rw [hnone]
  · refine ⟨fun h => ?_, fun h => ?_⟩
    · by_contra hnot
      exact TemplatePiece.not_infix_append TemplatePiece.varies_limit hkeyword hnot h
    · rw [String.toList_append]
      exact h.trans (List.suffix_append _ _).isInfix

/-- A query is its template with the marks replaced one kind after the other. Each part is in it as
it is given just if the condition does not hold the mark of the row limit: the clause of the limit
comes in place of every such mark. This clause has one of two places, by the dialect. -/
theorem filled_verbatim_iff (h : render key d p = .ok sql) :
    ∃ t, find? key = some t ∧ (∃ columns, t = ofColumns t.key columns) ∧
      sql = t.replaced d p p.clause ∧
      (sql = t.filled d p p.clause ↔ ¬ limitMark <:+: p.fragment.toList) ∧
      (p.fragment ≠ "" → ∃ pieces, limitMark.intercalate pieces = p.fragment.toList ∧
        (∀ piece ∈ pieces, ¬ limitMark <:+: piece) ∧
        sql = t.filled d p
          (" WHERE " ++ String.ofList ((d.limitClause p.limit).toList.intercalate pieces))) ∧
      (d.topClause p.limit = "" ∨ d.limitClause p.limit = "") ∧
      (d.topClause p.limit = "" ∧ d.limitClause p.limit = "" ↔ p.limit = none) := by
  obtain ⟨t, hfind, ht, htable, hsql⟩ := text_of_render h
  obtain ⟨key, columns, hcolumns, -⟩ := exists_markless t ht
  have hfilled := hsql.trans (text_eq_filled t)
  refine ⟨t, hfind, ⟨columns, by rw [hcolumns]; rfl⟩, hsql.trans (replaced_eq_text ht htable).symm,
    ?_, fun hsome => ?_, ?_, ?_⟩
  · rw [hfilled, filled_inj ht, TemplatePiece.replaced_eq_self_iff TemplatePiece.varies_limit
      isMarkless_limitClause, infix_clause_iff]
  · obtain ⟨pieces, hpieces, hmarkless, hclause⟩ := exists_pieces p (d.limitClause p.limit) hsome
    exact ⟨pieces, hpieces, hmarkless, hclause ▸ hfilled⟩
  · cases d <;> simp [Dialect.topClause, Dialect.limitClause]
  · cases d <;> cases p.limit <;> simp [Dialect.topClause, Dialect.limitClause]

/-- A condition on a text that looks like the mark of a condition. -/
def whereQuoted : TemplateParams := ⟨"stock", some " n = '\x7bwhere\x7d' ", some 5⟩

theorem filled_verbatim_iff_whereQuoted :
    ∃ t, find? "stock" = some t ∧ t.filled .mySql whereQuoted " WHERE n = '\x7bwhere\x7d'" =
      "SELECT item_code, location_code, quantity FROM stock WHERE n = '\x7bwhere\x7d' LIMIT 5" := by
  have hrender : render "stock" .mySql whereQuoted = .ok
      "SELECT item_code, location_code, quantity FROM stock WHERE n = '\x7bwhere\x7d' LIMIT 5" := by
    decide
  have hclause : whereQuoted.clause = " WHERE n = '\x7bwhere\x7d'" := by decide
  obtain ⟨t, hfind, -, -, hverbatim, -⟩ := filled_verbatim_iff hrender
  exact ⟨t, hfind, (hclause ▸ hverbatim.mpr (by decide)).symm⟩

/-- A condition on a text that looks like the mark of the row limit. -/
def limitQuoted : TemplateParams := ⟨"stock", some "n = '\x7blimit\x7d'", some 5⟩

/-- The clause of the limit comes into the literal as well. -/
theorem not_filled_verbatim :
    ∃ t, find? "STOCK" = some t ∧
      render "STOCK" .postgres limitQuoted = .ok
        "SELECT item_code, location_code, quantity FROM stock WHERE n = ' LIMIT 5' LIMIT 5" ∧
      t.filled .postgres limitQuoted limitQuoted.clause =
        "SELECT item_code, location_code, quantity FROM stock WHERE n = '\x7blimit\x7d' LIMIT 5" :=
  ⟨ofDataset .stock, rfl, by decide, by decide⟩

end Template
end Recount.Sql
