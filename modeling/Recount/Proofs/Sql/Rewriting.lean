import Recount.Proofs.Sql.Alias

/-!
# How references are rewritten

A checked reference takes the alias of its table if none of its parts begins with a digit. Otherwise
it keeps its table, and a part of it may be taken for a table by itself.
-/

namespace Recount.Sql

open Text

variable {a : Aliases} {part reference qualifier schema table column name : String}

/-- No part of a reference begins with a digit. -/
def Plain (reference : String) : Prop :=
  ∀ part ∈ segments reference, ∀ c ∈ part.head?, c.isDigit = false

instance (reference : String) : Decidable (Plain reference) :=
  inferInstanceAs (Decidable (∀ part ∈ segments reference, ∀ c ∈ part.head?, c.isDigit = false))

section Parts

theorem toList_qualified :
    (qualifier ++ "." ++ column).toList = qualifier.toList ++ '.' :: column.toList := by
  simp [String.toList_append]

theorem joinParts_two :
    Aliases.joinParts [table.toList, column.toList] = (table ++ "." ++ column).toList := by
  rw [toList_qualified, joinParts_cons]
  simp [dotted]

theorem joinParts_three :
    Aliases.joinParts [schema.toList, table.toList, column.toList] =
      (schema ++ "." ++ table ++ "." ++ column).toList := by
  rw [toList_qualified, toList_qualified, joinParts_cons]
  simp [dotted]

theorem segments_append :
    segments (qualifier ++ "." ++ column) = segments qualifier ++ segments column := by
  rw [segments, toList_qualified, splitChars_append]
  rfl

theorem plain_append : Plain (qualifier ++ "." ++ column) ↔ Plain qualifier ∧ Plain column := by
  unfold Plain
  rw [segments_append, List.forall_mem_append]

theorem segments_of_dot_not_mem (h : '.' ∉ name.toList) : segments name = [name.toList] :=
  splitChars_of_not_mem h

theorem IsPart.dot_not_mem {part : List Char} (h : IsPart part) : '.' ∉ part := by
  rcases h with h | rfl
  · intro hmem
    exact absurd ((isIdentifier_iff.mp h).2 '.' hmem) (by decide)
  · decide

/-- An identifier begins with a letter, an underscore or a digit. -/
theorem startsName_eq {c : Char} (h : isAsciiWord c = true) : Aliases.startsName c = !c.isDigit := by
  cases hdigit : c.isDigit with
  | false => simpa [isAsciiWord, Char.isAlphanum, Aliases.startsName, hdigit] using h
  | true =>
    have hne : c ≠ '_' := by
      rintro rfl
      cases hdigit
    have halpha : c.isAlpha = false := by
      have hlast : ('9'.val).toNat = 57 := rfl
      have hupper : ('A'.val).toNat = 65 := rfl
      have hlower : ('a'.val).toNat = 97 := rfl
      simp only [Char.isDigit, Bool.and_eq_true, decide_eq_true_eq, UInt32.le_iff_toNat_le] at hdigit
      simp only [Char.isAlpha, Char.isUpper, Char.isLower, Bool.or_eq_false_iff,
        Bool.and_eq_false_iff, decide_eq_false_iff_not, ge_iff_le, UInt32.le_iff_toNat_le]
      omega
    simp [Aliases.startsName, halpha, hne]

/-- A name begins a reference or goes on with it unless it begins with a digit. -/
theorem plain_iff (h : IsPart name.toList) : Plain name ↔ startsPart name.toList = true := by
  unfold Plain
  rw [segments_of_dot_not_mem h.dot_not_mem]
  rcases h with h | h
  · cases hname : name.toList with
    | nil =>
      rw [hname] at h
      cases h
    | cons c cs =>
      rw [hname] at h
      have hword := (isIdentifier_iff.mp h).2 c List.mem_cons_self
      simp [startsPart_cons h, startsName_eq hword]
  · simp [h, startsPart]

theorem areColumnSegments_concat {allowStar : Bool} {parts : List (List Char)} {last : List Char} :
    areColumnSegments allowStar (parts ++ [last]) =
      (parts.all isIdentifier && areColumnSegments allowStar [last]) := by
  induction parts with
  | nil => rfl
  | cons part parts ih =>
    rw [List.all_cons, Bool.and_assoc, ← ih]
    cases parts <;> rfl

/-- What a checked reference consists of. -/
theorem isPart_of_areColumnSegments {allowStar : Bool} {parts : List (List Char)} {last : List Char}
    (h : areColumnSegments allowStar (parts ++ [last]) = true) :
    (∀ part ∈ parts, isIdentifier part = true) ∧ IsPart last := by
  rw [areColumnSegments_concat, Bool.and_eq_true, List.all_eq_true] at h
  refine ⟨h.1, ?_⟩
  have hlast := h.2
  simp only [areColumnSegments, Bool.or_eq_true, Bool.and_eq_true, beq_iff_eq] at hlast
  exact hlast.imp_right And.right

theorem checkColumnReference_eq_ok_iff {allowStar : Bool} {u : Unit} :
    checkColumnReference reference allowStar = .ok u ↔
      (segments reference).length ≤ 3 ∧ areColumnSegments allowStar (segments reference) = true := by
  unfold checkColumnReference
  dsimp only
  split
  · next h => simpa using h
  · next h => simpa using h

theorem checkTableReference_eq_ok_iff :
    checkTableReference qualifier = .ok () ↔
      (segments qualifier).length ≤ 2 ∧ (segments qualifier).all isIdentifier = true := by
  unfold checkTableReference
  dsimp only
  split
  · next h => simpa using h
  · next h => simpa using h

theorem checkTableReference_bare (h : isIdentifier qualifier.toList = true) :
    checkTableReference qualifier = .ok () := by
  rw [checkTableReference_eq_ok_iff, segments_of_dot_not_mem (IsPart.dot_not_mem (.inl h))]
  simp [h]

theorem checkTableReference_pair (hschema : isIdentifier schema.toList = true)
    (htable : isIdentifier table.toList = true) :
    checkTableReference (schema ++ "." ++ table) = .ok () := by
  rw [checkTableReference_eq_ok_iff, segments_append,
    segments_of_dot_not_mem (IsPart.dot_not_mem (.inl hschema)),
    segments_of_dot_not_mem (IsPart.dot_not_mem (.inl htable))]
  simp [hschema, htable]

/-- A reference to a column of a table is checked like the column. -/
theorem checkColumnReference_qualified {allowStar : Bool}
    (hqualifier : checkTableReference qualifier = .ok ()) (hcolumn : '.' ∉ column.toList) :
    checkColumnReference (qualifier ++ "." ++ column) allowStar = .ok () ↔
      checkColumnReference column allowStar = .ok () := by
  obtain ⟨hlength, hident⟩ := checkTableReference_eq_ok_iff.mp hqualifier
  rw [checkColumnReference_eq_ok_iff, checkColumnReference_eq_ok_iff, segments_append,
    segments_of_dot_not_mem hcolumn, areColumnSegments_concat, hident, Bool.true_and,
    List.length_append, List.length_singleton]
  simp [Nat.succ_le_succ hlength]

/-- A checked reference with a qualifier is one to a column of a table, which may be in a schema. -/
theorem qualified_cases {allowStar : Bool} (hcolumn : '.' ∉ column.toList)
    (h : checkColumnReference (qualifier ++ "." ++ column) allowStar = .ok ()) :
    IsPart column.toList ∧ (isIdentifier qualifier.toList = true ∨ ∃ schema table : String,
      qualifier = schema ++ "." ++ table ∧ isIdentifier schema.toList = true ∧
        isIdentifier table.toList = true) := by
  obtain ⟨hlength, hsegments⟩ := checkColumnReference_eq_ok_iff.mp h
  rw [segments_append, segments_of_dot_not_mem hcolumn] at hlength hsegments
  obtain ⟨hparts, hlast⟩ := isPart_of_areColumnSegments hsegments
  have hjoined : ['.'].intercalate (segments qualifier) = qualifier.toList := intercalate_splitChars
  refine ⟨hlast, ?_⟩
  match hqualifier : segments qualifier with
  | [] => exact absurd hqualifier (splitChars_ne_nil '.' qualifier.toList)
  | [table] =>
    rw [hqualifier] at hparts hjoined
    refine .inl (hjoined ▸ ?_)
    simpa [List.intercalate] using hparts table List.mem_cons_self
  | [schema, table] =>
    rw [hqualifier] at hparts hjoined
    refine .inr ⟨String.ofList schema, String.ofList table, ?_, ?_, ?_⟩
    · refine String.toList_injective (hjoined.symm.trans ?_)
      simp [String.toList_append, List.intercalate]
    · rw [String.toList_ofList]
      exact hparts schema List.mem_cons_self
    · rw [String.toList_ofList]
      exact hparts table (List.mem_cons_of_mem _ List.mem_cons_self)
  | _ :: _ :: _ :: rest =>
    rw [hqualifier] at hlength
    simp only [List.length_append, List.length_cons, List.length_nil] at hlength
    omega

/-- A checked reference is a column, a column of a table, or one of a table in a schema. -/
theorem reference_cases {allowStar : Bool} {u : Unit}
    (h : checkColumnReference reference allowStar = .ok u) :
    IsPart reference.toList ∨
      (∃ table column : String, reference = table ++ "." ++ column ∧
        isIdentifier table.toList = true ∧ IsPart column.toList) ∨
      ∃ schema table column : String, reference = schema ++ "." ++ table ++ "." ++ column ∧
        isIdentifier schema.toList = true ∧ isIdentifier table.toList = true ∧
          IsPart column.toList := by
  obtain ⟨hlength, hsegments⟩ := checkColumnReference_eq_ok_iff.mp h
  have hjoined : Aliases.joinParts (segments reference) = reference.toList := intercalate_splitChars
  obtain ⟨parts, last, hparts⟩ :=
    (List.eq_nil_or_concat' (segments reference)).resolve_left (splitChars_ne_nil '.' _)
  rw [hparts] at hlength hsegments hjoined
  obtain ⟨hidents, hlast⟩ := isPart_of_areColumnSegments hsegments
  match parts with
  | [] =>
    refine .inl ?_
    rwa [← hjoined, List.nil_append, Aliases.joinParts, List.intercalate_singleton]
  | [table] =>
    refine .inr (.inl ⟨String.ofList table, String.ofList last, ?_, ?_, ?_⟩)
    · exact String.toList_injective (hjoined.symm.trans (by simp [Aliases.joinParts, List.intercalate]))
    · rw [String.toList_ofList]
      exact hidents table List.mem_cons_self
    · rwa [String.toList_ofList]
  | [schema, table] =>
    refine .inr (.inr ⟨String.ofList schema, String.ofList table, String.ofList last, ?_, ?_, ?_, ?_⟩)
    · exact String.toList_injective (hjoined.symm.trans (by simp [Aliases.joinParts, List.intercalate]))
    · rw [String.toList_ofList]
      exact hidents schema List.mem_cons_self
    · rw [String.toList_ofList]
      exact hidents table (List.mem_cons_of_mem _ List.mem_cons_self)
    · rwa [String.toList_ofList]
  | _ :: _ :: _ :: rest =>
    simp only [List.length_append, List.length_cons, List.length_nil] at hlength
    omega

end Parts

section Rewriting

theorem quote_not_mem_joinParts {part : List Char} {parts : List (List Char)} (hpart : IsPart part)
    (hparts : ∀ p ∈ parts, IsPart p) : '\'' ∉ Aliases.joinParts (part :: parts) := by
  have hnot : ∀ p, IsPart p → '\'' ∉ p := by
    rintro p (h | rfl)
    · intro hmem
      exact absurd ((isIdentifier_iff.mp h).2 _ hmem) (by decide)
    · decide
  rw [joinParts_cons, List.mem_append, not_or]
  refine ⟨hnot part hpart, fun hmem => ?_⟩
  obtain ⟨p, hp, hmem⟩ := List.mem_flatMap.mp hmem
  rcases List.mem_cons.mp hmem with heq | hmem
  · exact absurd heq (by decide)
  · exact hnot p (hparts p hp) hmem

/-- A reference stands outside of quotes. -/
theorem toList_rewrite {part : List Char} {parts : List (List Char)} (hpart : IsPart part)
    (hparts : ∀ p ∈ parts, IsPart p) (h : reference.toList = Aliases.joinParts (part :: parts)) :
    (a.rewrite reference).toList = a.rewriteFrom false 0 (Aliases.joinParts (part :: parts)) := by
  unfold Aliases.rewrite
  rw [h, splitChars_of_not_mem (quote_not_mem_joinParts hpart hparts), String.toList_ofList]
  simp [Aliases.rewritePieces, List.intercalate]

/-- A column without a qualifier is left as it is. -/
theorem rewrite_column (h : IsPart column.toList) : a.rewrite column = column := by
  have hparts : column.toList = Aliases.joinParts [column.toList] := by
    rw [joinParts_cons]
    exact (List.append_nil _).symm
  refine String.toList_injective ?_
  rw [toList_rewrite h (fun p hp => absurd hp List.not_mem_nil) hparts, joinParts_cons]
  exact rewriteFrom_part h

theorem rewriteReference_two :
    a.rewriteReference [table.toList, column.toList] =
      ((a.resolve? table).getD table ++ "." ++ column).toList := by
  unfold Aliases.rewriteReference
  dsimp only
  rw [joinParts_two, String.ofList_toList]
  cases a.resolve? table with
  | some name => exact toList_qualified.symm
  | none => rfl

theorem rewriteReference_three :
    a.rewriteReference [schema.toList, table.toList, column.toList] =
      ((a.resolve? (schema ++ "." ++ table)).getD (schema ++ "." ++ table) ++ "." ++ column).toList := by
  unfold Aliases.rewriteReference
  dsimp only
  rw [joinParts_two, joinParts_three, String.ofList_toList]
  cases a.resolve? (schema ++ "." ++ table) with
  | some name => exact toList_qualified.symm
  | none => rfl

/-- The reference to a column of a table takes the alias of the table, if it is plain. -/
theorem rewrite_two (htable : isIdentifier table.toList = true) (hcolumn : IsPart column.toList) :
    a.rewrite (table ++ "." ++ column) =
      if Plain table ∧ Plain column then (a.resolve? table).getD table ++ "." ++ column
      else table ++ "." ++ column := by
  have hparts : ∀ p ∈ [column.toList], IsPart p := by
    intro p hp
    rwa [List.mem_singleton.mp hp]
  refine String.toList_injective ?_
  rw [toList_rewrite (.inl htable) hparts joinParts_two.symm, rewriteFrom_two htable hcolumn,
    rewriteReference_two, joinParts_two]
  simp only [plain_iff (.inl htable), plain_iff hcolumn]
  split <;> rfl

/-- The reference to a column of a table in a schema takes the alias of the table, if it is plain. If
only the schema or only the column begins with a digit, the rest is taken for a reference. -/
theorem rewrite_three (hschema : isIdentifier schema.toList = true)
    (htable : isIdentifier table.toList = true) (hcolumn : IsPart column.toList) :
    a.rewrite (schema ++ "." ++ table ++ "." ++ column) =
      if Plain table then
        if Plain schema then
          if Plain column then
            (a.resolve? (schema ++ "." ++ table)).getD (schema ++ "." ++ table) ++ "." ++ column
          else (a.resolve? schema).getD schema ++ "." ++ table ++ "." ++ column
        else if Plain column then schema ++ "." ++ (a.resolve? table).getD table ++ "." ++ column
        else schema ++ "." ++ table ++ "." ++ column
      else schema ++ "." ++ table ++ "." ++ column := by
  have hparts : ∀ p ∈ [table.toList, column.toList], IsPart p := by
    intro p hp
    rcases List.mem_cons.mp hp with rfl | hp
    · exact .inl htable
    · rwa [List.mem_singleton.mp hp]
  refine String.toList_injective ?_
  rw [toList_rewrite (.inl hschema) hparts joinParts_three.symm,
    rewriteFrom_three hschema htable hcolumn, rewriteReference_two, rewriteReference_two,
    rewriteReference_three, joinParts_three]
  simp only [plain_iff (.inl hschema), plain_iff (.inl htable), plain_iff hcolumn]
  split
  · split
    · split
      · rfl
      · simp [String.toList_append]
    · split
      · simp [String.toList_append]
      · rfl
  · rfl

variable {allowStar : Bool}

/-- A plain reference takes the alias of its table. -/
theorem rewrite_of_plain (hcolumn : '.' ∉ column.toList)
    (hcheck : checkColumnReference (qualifier ++ "." ++ column) allowStar = .ok ())
    (hplain : Plain (qualifier ++ "." ++ column)) :
    a.rewrite (qualifier ++ "." ++ column) = (a.resolve? qualifier).getD qualifier ++ "." ++ column := by
  rw [plain_append] at hplain
  obtain ⟨hpart, htable | ⟨schema, table, rfl, hschema, htable⟩⟩ := qualified_cases hcolumn hcheck
  · rw [rewrite_two htable hpart, if_pos hplain]
  · rw [plain_append] at hplain
    rw [rewrite_three hschema htable hpart, if_pos hplain.1.2, if_pos hplain.1.1, if_pos hplain.2]

/-- A reference that is not plain keeps its table, or still has one with a schema. -/
theorem rewrite_of_not_plain (hcolumn : '.' ∉ column.toList)
    (hcheck : checkColumnReference (qualifier ++ "." ++ column) allowStar = .ok ())
    (hplain : ¬ Plain (qualifier ++ "." ++ column)) :
    ∃ kept : String, a.rewrite (qualifier ++ "." ++ column) = kept ++ "." ++ column ∧
      (kept = qualifier ∨ '.' ∈ kept.toList ∧ '.' ∈ qualifier.toList) := by
  have hdot : ∀ left right : String, '.' ∈ (left ++ "." ++ right).toList := fun left right => by
    rw [toList_qualified]
    exact List.mem_append_cons_self
  rw [plain_append] at hplain
  obtain ⟨hpart, htable | ⟨schema, table, rfl, hschema, htable⟩⟩ := qualified_cases hcolumn hcheck
  · exact ⟨qualifier, by rw [rewrite_two htable hpart, if_neg hplain], .inl rfl⟩
  · rw [rewrite_three hschema htable hpart]
    split
    · split
      · split
        · next h3 h2 h1 => exact absurd ⟨plain_append.mpr ⟨h2, h3⟩, h1⟩ hplain
        · exact ⟨_, rfl, .inr ⟨hdot _ _, hdot _ _⟩⟩
      · split
        · exact ⟨_, rfl, .inr ⟨hdot _ _, hdot _ _⟩⟩
        · exact ⟨_, rfl, .inl rfl⟩
    · exact ⟨_, rfl, .inl rfl⟩

/-- A reference that is not plain has an alias for its table only if this is the name of the table. -/
theorem rewrite_eq_alias_iff (hcolumn : '.' ∉ column.toList)
    (hcheck : checkColumnReference (qualifier ++ "." ++ column) allowStar = .ok ())
    (hplain : ¬ Plain (qualifier ++ "." ++ column)) (hname : '.' ∉ name.toList) :
    a.rewrite (qualifier ++ "." ++ column) = name ++ "." ++ column ↔ name = qualifier := by
  obtain ⟨kept, hrewrite, hkept⟩ := rewrite_of_not_plain (a := a) hcolumn hcheck hplain
  rw [hrewrite, String.append_left_inj, String.append_left_inj]
  constructor
  · rintro rfl
    exact hkept.resolve_right fun h => hname h.1
  · rintro rfl
    exact hkept.resolve_right fun h => hname h.2

/-- The part of a reference that is taken for a table by itself: its schema if only the column begins
with a digit, and its table if only the schema does. -/
def misread? (reference : String) : Option String :=
  match (segments reference).map String.ofList with
  | [schema, table, column] =>
    if Plain table then
      if Plain schema then if Plain column then none else some schema
      else if Plain column then some table else none
    else none
  | _ => none

theorem misread?_two (htable : '.' ∉ table.toList) (hcolumn : '.' ∉ column.toList) :
    misread? (table ++ "." ++ column) = none := by
  unfold misread?
  rw [segments_append, segments_of_dot_not_mem htable, segments_of_dot_not_mem hcolumn]
  rfl

theorem misread?_three (hschema : '.' ∉ schema.toList) (htable : '.' ∉ table.toList)
    (hcolumn : '.' ∉ column.toList) :
    misread? (schema ++ "." ++ table ++ "." ++ column) =
      if Plain table then
        if Plain schema then if Plain column then none else some schema
        else if Plain column then some table else none
      else none := by
  unfold misread?
  rw [segments_append, segments_append, segments_of_dot_not_mem hschema,
    segments_of_dot_not_mem htable, segments_of_dot_not_mem hcolumn]
  simp only [List.cons_append, List.nil_append, List.map_cons, List.map_nil, String.ofList_toList]

/-- A name stays as it is unless it is resolved to another one. -/
theorem resolve?_getD_eq_iff :
    (a.resolve? name).getD name = name ↔ ∀ other, a.resolve? name = some other → other = name := by
  cases a.resolve? name with
  | none => simp
  | some other => simp

/-- A reference that is not plain is left as it is unless a part of it is taken for a table that has
another alias. -/
theorem rewrite_eq_self_iff (hcolumn : '.' ∉ column.toList)
    (hcheck : checkColumnReference (qualifier ++ "." ++ column) allowStar = .ok ())
    (hplain : ¬ Plain (qualifier ++ "." ++ column)) :
    a.rewrite (qualifier ++ "." ++ column) = qualifier ++ "." ++ column ↔
      ∀ part, misread? (qualifier ++ "." ++ column) = some part →
        ∀ other, a.resolve? part = some other → other = part := by
  rw [plain_append] at hplain
  obtain ⟨hpart, htable | ⟨schema, table, rfl, hschema, htable⟩⟩ := qualified_cases hcolumn hcheck
  · rw [rewrite_two htable hpart, if_neg hplain,
      misread?_two (IsPart.dot_not_mem (.inl htable)) hcolumn]
    simp
  · rw [rewrite_three hschema htable hpart, misread?_three (IsPart.dot_not_mem (.inl hschema))
      (IsPart.dot_not_mem (.inl htable)) hcolumn]
    split
    · split
      · split
        · next h3 h2 h1 => exact absurd ⟨plain_append.mpr ⟨h2, h3⟩, h1⟩ hplain
        · simp [← resolve?_getD_eq_iff]
      · split
        · simp [← resolve?_getD_eq_iff]
        · simp
    · simp

end Rewriting

end Recount.Sql
