import Recount.Proofs.Sql.Columns
import Recount.Proofs.Sql.Rereading

/-!
# References to tables

A compiled query refers to its tables by their aliases. A reference is taken for one to a table
only if no part of it begins with a digit, though tables and columns with such names are accepted.
It goes to the first table that it names, even if this one has the name as its bare name only and a
later one is declared by it.
-/

/-! ## Specifications in alias form

The references of a specification that was resolved can be written with the aliases that its tables
have got. It is accepted like this as well, and it is resolved to the same statement if rewriting
leaves these references alone. -/

namespace Recount

/-- A join with its references rewritten. -/
def Join.aliasForm (a : Sql.Aliases) (j : Join) : Join :=
  { j with conditions := j.conditions.map fun c => ⟨a.rewrite c.left, a.rewrite c.right⟩ }

namespace Sql

open Text
open List (Forall₂)

variable {a : Aliases} {allowStar : Bool} {reference qualifier column : String}

/-- A specification with its references rewritten. -/
def QuerySpec.aliasForm (a : Aliases) (spec : QuerySpec) : QuerySpec where
  mainTable := spec.mainTable
  joins := spec.joins.map (Join.aliasForm a)
  columns := spec.columns.map fun c => { c with expression := a.rewrite c.expression }
  filters := spec.filters.map fun f => { f with column := a.rewrite f.column }
  limit := spec.limit

theorem QuerySpec.references_aliasForm {spec : QuerySpec} :
    (spec.aliasForm a).references = spec.references.map a.rewrite := by
  simp [QuerySpec.references, QuerySpec.aliasForm, Join.aliasForm, Join.references,
    List.flatMap_map, List.map_flatMap, Function.comp_def]

/-! ## Aliases of joins with other conditions -/

section Joins

variable {g : Join → Join} {joins : List Join} {used : List String}

theorem explicit_map (halias : ∀ j, (g j).alias? = j.alias?) :
    Aliases.explicit used (joins.map g) = Aliases.explicit used joins := by
  induction joins generalizing used with
  | nil => rfl
  | cons j joins ih =>
    rw [List.map_cons, Aliases.explicit, Aliases.explicit, halias]
    cases j.alias? with
    | none => exact ih
    | some name => simp only [ih]

theorem ofJoins_map (halias : ∀ j, (g j).alias? = j.alias?) (htable : ∀ j, (g j).table = j.table) :
    Aliases.ofJoins used (joins.map g) = Aliases.ofJoins used joins := by
  induction joins generalizing used with
  | nil => rfl
  | cons j joins ih =>
    rw [List.map_cons, Aliases.ofJoins, Aliases.ofJoins, halias, htable]
    cases j.alias? with
    | none => exact congrArg _ ih
    | some name => exact congrArg _ ih

/-- Aliases are assigned by the tables and the aliases that joins bring. -/
theorem build_map (halias : ∀ j, (g j).alias? = j.alias?) (htable : ∀ j, (g j).table = j.table)
    (mainTable : String) :
    Aliases.build mainTable (joins.map g) = Aliases.build mainTable joins := by
  have htables : (joins.map g).map (·.table) = joins.map (·.table) := by
    rw [List.map_map]
    exact List.map_congr_left fun j _ => htable j
  unfold Aliases.build
  simp only [explicit_map halias, ofJoins_map halias htable, htables]

end Joins

/-! ## References that are checked again -/

section Rewritten

variable (hident : ∀ name other, a.resolve? name = some other → isIdentifier other.toList = true)
include hident

theorem checkTableReference_getD (h : checkTableReference qualifier = .ok ()) :
    checkTableReference ((a.resolve? qualifier).getD qualifier) = .ok () := by
  cases hresolve : a.resolve? qualifier with
  | none => exact h
  | some name => exact checkTableReference_bare (hident qualifier name hresolve)

theorem isIdentifier_getD (h : isIdentifier qualifier.toList = true) :
    isIdentifier ((a.resolve? qualifier).getD qualifier).toList = true := by
  cases hresolve : a.resolve? qualifier with
  | none => exact h
  | some name => exact hident qualifier name hresolve

/-- A checked reference keeps its column, behind a table. -/
theorem exists_kept (hcolumn : '.' ∉ column.toList)
    (h : checkColumnReference (qualifier ++ "." ++ column) allowStar = .ok ()) :
    checkTableReference qualifier = .ok () ∧ ∃ kept, checkTableReference kept = .ok () ∧
      a.rewrite (qualifier ++ "." ++ column) = kept ++ "." ++ column := by
  obtain ⟨hpart, htable | ⟨schema, table, rfl, hschema, htable⟩⟩ := qualified_cases hcolumn h
  · have hbare := checkTableReference_bare htable
    refine ⟨hbare, ?_⟩
    rw [rewrite_two htable hpart]
    split
    · exact ⟨_, checkTableReference_getD hident hbare, rfl⟩
    · exact ⟨_, hbare, rfl⟩
  · have hpair := checkTableReference_pair hschema htable
    refine ⟨hpair, ?_⟩
    rw [rewrite_three hschema htable hpart]
    split
    · split
      · split
        · exact ⟨_, checkTableReference_getD hident hpair, rfl⟩
        · exact ⟨_, checkTableReference_pair (isIdentifier_getD hident hschema) htable, rfl⟩
      · split
        · exact ⟨_, checkTableReference_pair hschema (isIdentifier_getD hident htable), rfl⟩
        · exact ⟨_, hpair, rfl⟩
    · exact ⟨_, hpair, rfl⟩

/-- A checked reference that is rewritten can be checked again, and ends as it did. -/
theorem checkColumnReference_rewrite (h : checkColumnReference reference allowStar = .ok ()) :
    checkColumnReference (a.rewrite reference) allowStar = .ok () ∧
      (a.rewrite reference).toList.getLast? = reference.toList.getLast? := by
  rcases checked_cases h with hpart | ⟨qualifier, column, rfl, hcolumn, -⟩
  · rw [rewrite_column hpart]
    exact ⟨h, rfl⟩
  · obtain ⟨hqualifier, kept, hkept, hrewrite⟩ := exists_kept hident hcolumn h
    rw [hrewrite, checkColumnReference_qualified hkept hcolumn,
      ← checkColumnReference_qualified hqualifier hcolumn]
    refine ⟨h, ?_⟩
    rw [toList_qualified, toList_qualified, List.getLast?_append_of_ne_nil _ (by simp),
      List.getLast?_append_of_ne_nil _ (by simp)]

end Rewritten

/-! ## Statements -/

section Statements

variable {catalog : Option Catalog} {spec : QuerySpec} {s : Select}

section Parts

variable (hident : ∀ name other, a.resolve? name = some other → isIdentifier other.toList = true)
include hident

theorem resolveColumn_aliasForm {c : SelectColumn} {o : OutputColumn}
    (h : resolveColumn a c = .ok o)
    (hidem : a.rewrite (a.rewrite c.expression) = a.rewrite c.expression) :
    resolveColumn a { c with expression := a.rewrite c.expression } = .ok o := by
  obtain ⟨_, hcheck, h⟩ := bind_eq_ok_iff.mp h
  obtain ⟨hcheck', hlast⟩ := checkColumnReference_rewrite hident hcheck
  have hends : endsWith (a.rewrite c.expression) "*" = endsWith c.expression "*" := by
    rw [Bool.eq_iff_iff, endsWith_star_iff, endsWith_star_iff, hlast]
  refine bind_eq_ok_iff.mpr ⟨(), hcheck', ?_⟩
  dsimp only
  rw [hidem, hends]
  exact h

theorem resolveJoinCondition_aliasForm {c : JoinCondition} {p : String × String}
    (h : resolveJoinCondition a c = .ok p) (hleft : a.rewrite (a.rewrite c.left) = a.rewrite c.left)
    (hright : a.rewrite (a.rewrite c.right) = a.rewrite c.right) :
    resolveJoinCondition a ⟨a.rewrite c.left, a.rewrite c.right⟩ = .ok p := by
  obtain ⟨_, hcheck, h⟩ := bind_eq_ok_iff.mp h
  obtain ⟨_, hcheck', h⟩ := bind_eq_ok_iff.mp h
  refine bind_eq_ok_iff.mpr ⟨(), (checkColumnReference_rewrite hident hcheck).1, ?_⟩
  refine bind_eq_ok_iff.mpr ⟨(), (checkColumnReference_rewrite hident hcheck').1, ?_⟩
  rw [hleft, hright]
  exact h

theorem resolveJoin_aliasForm {j : Join} {name : String} {t : JoinedTable}
    (h : resolveJoin a j name = .ok t)
    (hidem : ∀ reference ∈ j.references, a.rewrite (a.rewrite reference) = a.rewrite reference) :
    resolveJoin a (j.aliasForm a) name = .ok t := by
  obtain ⟨conditions, hconditions, h⟩ := bind_eq_ok_iff.mp h
  refine bind_eq_ok_iff.mpr ⟨conditions, mapM_eq_ok_iff.mpr ?_, h⟩
  have hsides : ∀ c ∈ j.conditions, a.rewrite (a.rewrite c.left) = a.rewrite c.left ∧
      a.rewrite (a.rewrite c.right) = a.rewrite c.right := fun c hc =>
    ⟨hidem _ (List.mem_flatMap.mpr ⟨c, hc, List.mem_cons_self⟩),
      hidem _ (List.mem_flatMap.mpr ⟨c, hc, List.mem_cons_of_mem _ List.mem_cons_self⟩)⟩
  rw [Join.aliasForm, List.forall₂_map_left_iff]
  refine ((List.forall₂_and_left _ _).mpr ⟨hsides, mapM_eq_ok_iff.mp hconditions⟩).imp ?_
  exact fun c p hp => resolveJoinCondition_aliasForm hident hp.2 hp.1.1 hp.1.2

theorem resolveFilter_aliasForm {f : Filter} {c : Condition} (h : resolveFilter a f = .ok c)
    (hidem : a.rewrite (a.rewrite f.column) = a.rewrite f.column) :
    resolveFilter a { f with column := a.rewrite f.column } = .ok c := by
  obtain ⟨column, operator, operand⟩ := f
  obtain ⟨_, hcheck, h⟩ := bind_eq_ok_iff.mp h
  refine bind_eq_ok_iff.mpr ⟨(), (checkColumnReference_rewrite hident hcheck).1, ?_⟩
  have hscalar : ∀ {operand}, checkScalar column operand = .ok () →
      checkScalar (a.rewrite column) operand = .ok () := by
    intro operand hok
    unfold checkScalar at hok ⊢
    cases hvalue : isScalar operand with
    | true => rfl
    | false => simp [hvalue] at hok
  dsimp only at h hidem ⊢
  rw [hidem]
  cases operator with
  | isNull | isNotNull => exact h
  | oneOf =>
    dsimp only at h ⊢
    split at h
    · obtain ⟨_, hscalars, h⟩ := bind_eq_ok_iff.mp h
      refine bind_eq_ok_iff.mpr ⟨(), forM_eq_ok_iff.mpr fun operand hmem => ?_, h⟩
      exact hscalar (forM_eq_ok_iff.mp hscalars operand hmem)
    · cases h
  | _ =>
    obtain ⟨_, hok, h⟩ := bind_eq_ok_iff.mp h
    exact bind_eq_ok_iff.mpr ⟨(), hscalar hok, h⟩

end Parts

/-- A statement has the references of its specification, rewritten. -/
theorem references_eq_map (hbuild : Aliases.build spec.mainTable spec.joins = .ok a)
    (h : resolve catalog spec = .ok s) : s.references = spec.references.map a.rewrite := by
  obtain ⟨b, hb, -, hwritten⟩ := resolve_eq_ok h
  cases hbuild.symm.trans hb
  rw [← List.forall₂_eq_eq_eq, List.forall₂_map_right_iff]
  exact hwritten.flip.imp fun _ _ hemitted => hemitted.1

theorem checkJoin_aliasForm {j : Join} :
    checkJoin catalog (j.aliasForm a) = checkJoin catalog j := by
  simp [checkJoin, Join.aliasForm]

/-- A specification in alias form gets the aliases that it is written with. -/
theorem build_aliasForm (hbuild : Aliases.build spec.mainTable spec.joins = .ok a) :
    Aliases.build (spec.aliasForm a).mainTable (spec.aliasForm a).joins = .ok a :=
  (build_map (g := Join.aliasForm a) (fun _ => rfl) (fun _ => rfl) spec.mainTable).trans hbuild

/-- A specification in alias form is resolved to the same statement if rewriting leaves its
references alone. -/
theorem resolve_aliasForm (h : resolve catalog spec = .ok s)
    (hbuild : Aliases.build spec.mainTable spec.joins = .ok a)
    (hidem : ∀ reference ∈ spec.references, a.rewrite (a.rewrite reference) = a.rewrite reference) :
    resolve catalog (spec.aliasForm a) = .ok s := by
  have hident : ∀ name other, a.resolve? name = some other → isIdentifier other.toList = true :=
    fun _ _ => Aliases.isIdentifier_of_resolve? hbuild
  obtain ⟨hlimit, htable, hjoined, b, columns, joins, conditions, hb, hcolumns, hjoins, hconditions,
    rfl⟩ := resolve_eq_ok_iff.mp h
  cases hbuild.symm.trans hb
  obtain ⟨⟨hcolumn, hjoin⟩, hfilter⟩ :
      ((∀ c ∈ spec.columns, a.rewrite (a.rewrite c.expression) = a.rewrite c.expression) ∧
        ∀ j ∈ spec.joins, ∀ reference ∈ j.references,
          a.rewrite (a.rewrite reference) = a.rewrite reference) ∧
      ∀ f ∈ spec.filters, a.rewrite (a.rewrite f.column) = a.rewrite f.column := by
    simpa only [QuerySpec.references, List.forall_mem_append, List.forall_mem_map,
      List.forall_mem_flatMap] using hidem
  have hjoined' : (spec.aliasForm a).joins.forM (checkJoin catalog) = .ok () := by
    refine forM_eq_ok_iff.mpr (List.forall_mem_map.mpr fun j hj => ?_)
    rw [checkJoin_aliasForm]
    exact forM_eq_ok_iff.mp hjoined j hj
  have hcolumns' : (spec.aliasForm a).columns.mapM (resolveColumn a) = .ok columns := by
    rw [mapM_eq_ok_iff, QuerySpec.aliasForm, List.forall₂_map_left_iff]
    refine ((List.forall₂_and_left _ _).mpr ⟨hcolumn, mapM_eq_ok_iff.mp hcolumns⟩).imp ?_
    exact fun c o ho => resolveColumn_aliasForm hident ho.2 ho.1
  have hjoins' : ((spec.aliasForm a).joins.zip a.joins).mapM
      (fun j => resolveJoin a j.1 j.2) = .ok joins := by
    have hmembers : ∀ j ∈ spec.joins.zip a.joins, ∀ reference ∈ j.1.references,
        a.rewrite (a.rewrite reference) = a.rewrite reference := fun j hj =>
      hjoin j.1 (List.of_mem_zip hj).1
    rw [mapM_eq_ok_iff, QuerySpec.aliasForm, List.zip_map_left, List.forall₂_map_left_iff]
    refine ((List.forall₂_and_left _ _).mpr ⟨hmembers, mapM_eq_ok_iff.mp hjoins⟩).imp ?_
    exact fun j t ht => resolveJoin_aliasForm hident ht.2 ht.1
  have hconditions' : (spec.aliasForm a).filters.mapM (resolveFilter a) = .ok conditions := by
    rw [mapM_eq_ok_iff, QuerySpec.aliasForm, List.forall₂_map_left_iff]
    refine ((List.forall₂_and_left _ _).mpr ⟨hfilter, mapM_eq_ok_iff.mp hconditions⟩).imp ?_
    exact fun f c hc => resolveFilter_aliasForm hident hc.2 hc.1
  exact resolve_eq_ok_iff.mpr ⟨hlimit, htable, hjoined', a, columns, joins, conditions,
    build_aliasForm hbuild, hcolumns', hjoins', hconditions', rfl⟩

/-- A specification in alias form is resolved to the same statement just if rewriting leaves its
references alone. -/
theorem resolve_aliasForm_iff (h : resolve catalog spec = .ok s)
    (hbuild : Aliases.build spec.mainTable spec.joins = .ok a) :
    resolve catalog (spec.aliasForm a) = .ok s ↔
      ∀ reference ∈ spec.references, a.rewrite (a.rewrite reference) = a.rewrite reference := by
  refine ⟨fun h' => ?_, resolve_aliasForm h hbuild⟩
  have htwice := (references_eq_map (build_aliasForm hbuild) h').symm.trans
    (references_eq_map hbuild h)
  rw [QuerySpec.references_aliasForm, List.map_map] at htwice
  exact List.map_inj_left.mp htwice

end Statements

end Sql
end Recount

/-! ## What a reference is written as -/

namespace Recount.Sql

open Aliases (IsNameOf IsBareNameOf Names firstNamed? firstNamed?_of_first firstNamed?_of_earlier
  firstNamed?_eq_none_iff exists_of_firstNamed?_eq_some)
open Text (asciiLower)
open List (Forall₂)

/-- What a reference to a column is written as, given the tables of the query with their aliases. -/
structure Rewritten (tables : List (String × String)) (qualifier column emitted : String) : Prop where
  /-- The declared name of a table leads to it, unless it is the bare name of a table before. -/
  declared : ∀ earlier table name later, tables = earlier ++ (table, name) :: later →
    IsNameOf qualifier table → (emitted = name ++ "." ++ column ↔
      if Plain (qualifier ++ "." ++ column) then ∀ t ∈ earlier, ¬ IsBareNameOf qualifier t.1
      else name = qualifier)
  /-- The bare name of one table leads to it where it is no declared name. -/
  bare : ∀ table name, (∀ t ∈ tables, ¬ IsNameOf qualifier t.1) →
    (∀ t, t ∈ tables ∧ IsBareNameOf qualifier t.1 ↔ t = (table, name)) →
    (emitted = name ++ "." ++ column ↔ Plain (qualifier ++ "." ++ column) ∨ name = qualifier)
  /-- A reference that names no table stays as it is, unless a part of it is taken for a table. -/
  unnamed : (∀ t ∈ tables, ¬ Names qualifier t.1) →
    (emitted = qualifier ++ "." ++ column ↔ Plain (qualifier ++ "." ++ column) ∨
      ∀ part, misread? (qualifier ++ "." ++ column) = some part →
        ∀ name, firstNamed? tables part = some name → name = part)

section Rewritten

variable {a : Aliases} {ts earlier later : List (String × String)} {t u : String × String}
  {qualifier column emitted name : String}

theorem apply_ne_of_earlier {f : String × String → String}
    (h : ((earlier ++ t :: later).map f).Nodup) (hu : u ∈ earlier) : f u ≠ f t := by
  rw [List.map_append, List.nodup_append] at h
  exact h.2.2 _ (List.mem_map_of_mem hu) _ (List.mem_map_of_mem List.mem_cons_self)

/-- The declared name of a table leads to it iff it is not the bare name of a table before. -/
theorem firstNamed?_eq_some_iff (hnames : ((earlier ++ t :: later).map fun t => asciiLower t.1).Nodup)
    (haliases : ((earlier ++ t :: later).map fun t => asciiLower t.2).Nodup)
    (h : IsNameOf name t.1) :
    (firstNamed? (earlier ++ t :: later) name).getD name = t.2 ↔
      ∀ u ∈ earlier, ¬ IsBareNameOf name u.1 := by
  constructor
  · intro hfirst u hu hbare
    obtain ⟨v, hv, hother⟩ :=
      @firstNamed?_of_earlier name earlier (t :: later) ⟨u, hu, .inr hbare⟩
    rw [hother, Option.getD_some] at hfirst
    exact apply_ne_of_earlier haliases hv (congrArg asciiLower hfirst)
  · intro hbare
    have hearlier : ∀ u ∈ earlier, ¬ Names name u.1 := fun u hu =>
      not_or.mpr ⟨fun hname => apply_ne_of_earlier hnames hu (hname.trans h.symm), hbare u hu⟩
    rw [firstNamed?_of_first hearlier (.inl h), Option.getD_some]

/-- A bare name that is no declared name leads to the only table that has it. -/
theorem firstNamed?_of_bare (hnames : ∀ t ∈ ts, ¬ IsNameOf name t.1)
    (hbare : ∀ u, u ∈ ts ∧ IsBareNameOf name u.1 ↔ u = t) : firstNamed? ts name = some t.2 := by
  obtain ⟨hmem, ht⟩ := (hbare t).mpr rfl
  cases hfirst : firstNamed? ts name with
  | none => exact absurd (.inr ht) (firstNamed?_eq_none_iff.mp hfirst t hmem)
  | some other =>
    obtain ⟨u, hu, hnamed, rfl⟩ := exists_of_firstNamed?_eq_some hfirst
    rw [(hbare u).mp ⟨hu, hnamed.resolve_left (hnames u hu)⟩]

/-- References are written as the aliases of their tables have it. -/
theorem WrittenAs.rewritten (hresolve : ∀ name, a.resolve? name = firstNamed? ts name)
    (hnames : (ts.map fun t => asciiLower t.1).Nodup)
    (haliases : (ts.map fun t => asciiLower t.2).Nodup)
    (hident : ∀ t ∈ ts, isIdentifier t.2.toList = true) (hcolumn : '.' ∉ column.toList)
    (h : WrittenAs a (qualifier ++ "." ++ column) emitted) : Rewritten ts qualifier column emitted := by
  obtain ⟨rfl, allowStar, hcheck⟩ := h
  have hdot : ∀ t ∈ ts, '.' ∉ t.2.toList := fun t ht => IsPart.dot_not_mem (.inl (hident t ht))
  refine ⟨?_, ?_, ?_⟩
  · rintro earlier table name later rfl hname
    split
    · next hplain =>
      rw [rewrite_of_plain hcolumn hcheck hplain, String.append_left_inj, String.append_left_inj,
        hresolve]
      exact firstNamed?_eq_some_iff hnames haliases hname
    · next hplain =>
      exact rewrite_eq_alias_iff hcolumn hcheck hplain (hdot _ List.mem_append_cons_self)
  · intro table name hnone hbare
    by_cases hplain : Plain (qualifier ++ "." ++ column)
    · rw [rewrite_of_plain hcolumn hcheck hplain, hresolve, firstNamed?_of_bare hnone hbare]
      simp [hplain]
    · rw [rewrite_eq_alias_iff hcolumn hcheck hplain (hdot _ ((hbare _).mpr rfl).1)]
      simp [hplain]
  · intro hnone
    by_cases hplain : Plain (qualifier ++ "." ++ column)
    · rw [rewrite_of_plain hcolumn hcheck hplain, hresolve, firstNamed?_eq_none_iff.mpr hnone]
      simp [hplain]
    · rw [rewrite_eq_self_iff hcolumn hcheck hplain]
      simp only [hresolve, hplain, false_or]

end Rewritten

/-- Every reference of a compiled query is written as the aliases of its tables have it, and these
are aliases of their own. -/
theorem references_rewritten (c : Compiler) (spec : QuerySpec) (q : Query)
    (h : c.compile spec = .ok q) (hdistinct : (spec.tables.map asciiLower).Nodup) :
    ∃ s, resolve c.catalog spec = .ok s ∧ q = ⟨s.text c.dialect, s.parameters⟩ ∧
      s.tables.map Prod.fst = spec.tables ∧ (s.tables.map fun t => asciiLower t.2).Nodup ∧
      Forall₂ (fun reference emitted => ∀ qualifier column, reference = qualifier ++ "." ++ column →
        '.' ∉ column.toList → Rewritten s.tables qualifier column emitted)
        spec.references s.references := by
  obtain ⟨s, hresolved, rfl⟩ := compile_eq_ok h
  obtain ⟨a, hbuild, htables, hwritten⟩ := resolve_eq_ok hresolved
  obtain ⟨hlength, hentries, haliases, hident⟩ := Aliases.build_eq_ok hbuild
  have hnames : s.tables.map Prod.fst = spec.tables := by
    rw [htables, Aliases.tables_map_fst hlength]
    rfl
  have hassigned : s.tables.map Prod.snd = a.main :: a.joins := by
    rw [htables, Aliases.tables_map_snd hlength]
  have haliases : (s.tables.map fun t => asciiLower t.2).Nodup := by
    rwa [← hassigned, List.map_map] at haliases
  have hident : ∀ t ∈ s.tables, isIdentifier t.2.toList = true := fun t ht =>
    hident t.2 (hassigned ▸ List.mem_map_of_mem ht)
  have hdistinct : (s.tables.map fun t => asciiLower t.1).Nodup := by
    rwa [← hnames, List.map_map] at hdistinct
  refine ⟨s, hresolved, rfl, hnames, haliases, hwritten.imp ?_⟩
  rintro _ emitted hemitted qualifier column rfl hcolumn
  exact hemitted.rewritten (fun _ => Aliases.resolve?_eq (htables ▸ hentries)) hdistinct haliases
    hident hcolumn

/-- Items with their stock. The joined table is in a schema, and the filter names no table. -/
def itemsWithStock : QuerySpec where
  mainTable := "OITM"
  joins := [⟨"dbo.OITW", none, .inner, [⟨"OITM.ItemCode", "OITW.ItemCode"⟩]⟩]
  columns := [⟨"oitm.*", none⟩, ⟨"dbo.OITW.OnHand", some "qty"⟩]
  filters := [⟨"x.y", .isNull, .null⟩]
  limit := none

theorem references_rewritten_itemsWithStock :
    ∃ q, Compiler.compile ⟨.postgres, none⟩ itemsWithStock = .ok q ∧
      (itemsWithStock.tables.map asciiLower).Nodup ∧
      q.sql = "SELECT o.*, oi.OnHand AS \"qty\" FROM OITM o INNER JOIN dbo.OITW oi " ++
        "ON o.ItemCode = oi.ItemCode WHERE x.y IS NULL" ∧
      ∃ s, resolve none itemsWithStock = .ok s ∧ q = ⟨s.text .postgres, s.parameters⟩ ∧
        s.tables.map Prod.fst = itemsWithStock.tables ∧
        (s.tables.map fun t => asciiLower t.2).Nodup ∧
        Forall₂ (fun reference emitted => ∀ qualifier column,
          reference = qualifier ++ "." ++ column → '.' ∉ column.toList →
            Rewritten s.tables qualifier column emitted)
          itemsWithStock.references s.references := by
  have hdistinct : (itemsWithStock.tables.map asciiLower).Nodup := by decide
  have hsql : (Compiler.compile ⟨.postgres, none⟩ itemsWithStock).map (·.sql) =
      .ok ("SELECT o.*, oi.OnHand AS \"qty\" FROM OITM o INNER JOIN dbo.OITW oi " ++
        "ON o.ItemCode = oi.ItemCode WHERE x.y IS NULL") := by decide
  cases h : Compiler.compile ⟨.postgres, none⟩ itemsWithStock with
  | error defect =>
    rw [h] at hsql
    cases hsql
  | ok q =>
    rw [h] at hsql
    exact ⟨q, rfl, hdistinct, Except.ok.inj hsql, references_rewritten _ _ q h hdistinct⟩

/-- Stock of two schemas and of a year. -/
def stockOfYears : QuerySpec where
  mainTable := "dbo.stock"
  joins := [⟨"stock", none, .inner, [⟨"dbo.stock.code", "stock.code"⟩]⟩,
    ⟨"2024_stock", none, .left, [⟨"dbo.stock.code", "2024_stock.code"⟩]⟩]
  columns := [⟨"stock.qty", none⟩, ⟨"2024_stock.qty", none⟩]
  filters := []
  limit := none

/-- The references to a declared table are not always written with its alias. -/
theorem not_references_rewritten :
    ¬ ∀ (c : Compiler) (spec : QuerySpec) (q : Query), c.compile spec = .ok q →
      (spec.tables.map asciiLower).Nodup →
      ∃ s, resolve c.catalog spec = .ok s ∧ q = ⟨s.text c.dialect, s.parameters⟩ ∧
        Forall₂ (fun reference emitted => ∀ qualifier column,
          reference = qualifier ++ "." ++ column → '.' ∉ column.toList →
            ∀ table name, (table, name) ∈ s.tables → IsNameOf qualifier table →
              emitted = name ++ "." ++ column)
          spec.references s.references := by
  intro hall
  have hresolved : (resolve none stockOfYears).map (fun s => (s.tables, s.references)) =
      .ok ([("dbo.stock", "s"), ("stock", "st"), ("2024_stock", "t2")],
        ["s.qty", "2024_stock.qty", "s.code", "s.code", "s.code", "2024_stock.code"]) := by
    decide
  cases h : resolve none stockOfYears with
  | error defect =>
    rw [h] at hresolved
    cases hresolved
  | ok s =>
    rw [h] at hresolved
    obtain ⟨htables, hreferences⟩ := Prod.mk.inj (Except.ok.inj hresolved)
    have hcompile : Compiler.compile ⟨.postgres, none⟩ stockOfYears =
        .ok ⟨s.text .postgres, s.parameters⟩ := by rw [Compiler.compile, h]; rfl
    obtain ⟨s', hs', -, hwritten⟩ := hall _ _ _ hcompile (by decide)
    cases h.symm.trans hs'
    rw [htables, hreferences] at hwritten
    cases hwritten with
    | cons hfirst _ =>
      have heq := hfirst "stock" "qty" (by decide) (by decide +kernel) "stock" "st"
        (by decide) rfl
      exact absurd heq (by decide)

end Recount.Sql

/-! ## Rewriting twice

The aliases of a query differ from each other, but not from the names of its tables. A reference
that was rewritten is left alone the second time unless its alias names a table that has another
one.
-/

namespace Recount.Sql.Aliases

open Text

/-- Rewriting a second time changes nothing iff no alias that a reference is given names a table
with another alias. A reference that is in alias form stays as it is iff its own alias does not, and
a specification whose references are put into alias form is resolved to the same statement iff none
of these is changed. -/
theorem rewrite_idempotent_iff (mainTable : String) (joins : List Join) (a : Aliases)
    (h : build mainTable joins = .ok a) :
    ((∀ expression, a.rewrite (a.rewrite expression) = a.rewrite expression) ↔
      ∀ qualifier name other, IsQualifier qualifier →
        firstNamed? (tables mainTable joins a) qualifier = some name → Plain name →
          firstNamed? (tables mainTable joins a) name = some other → other = name) ∧
    (∀ t ∈ tables mainTable joins a, ∀ column : String, IsPart column.toList →
      (a.rewrite (t.2 ++ "." ++ column) = t.2 ++ "." ++ column ↔ (Plain t.2 → Plain column →
        ∀ other, firstNamed? (tables mainTable joins a) t.2 = some other → other = t.2))) ∧
    ∀ (catalog : Option Catalog) (spec : QuerySpec) (s : Select), spec.mainTable = mainTable →
      spec.joins = joins → resolve catalog spec = .ok s →
        (resolve catalog (spec.aliasForm a) = .ok s ↔ ∀ reference ∈ spec.references,
          a.rewrite (a.rewrite reference) = a.rewrite reference) := by
  obtain ⟨hlength, hentries, -, haliases⟩ := build_eq_ok h
  have hresolve : ∀ name, a.resolve? name = firstNamed? (tables mainTable joins a) name :=
    fun _ => resolve?_eq hentries
  have hassigned : (tables mainTable joins a).map Prod.snd = a.main :: a.joins :=
    tables_map_snd hlength
  have halias : ∀ t ∈ tables mainTable joins a, isIdentifier t.2.toList = true := fun t ht =>
    haliases t.2 (hassigned ▸ List.mem_map_of_mem ht)
  have hident : ∀ name other, a.resolve? name = some other → isIdentifier other.toList = true :=
    fun _ _ => isIdentifier_of_resolve? h
  refine ⟨(rewrite_rewrite_iff hident).trans ?_, fun t ht column hcolumn => ?_, ?_⟩
  · simp only [Settled, ← hresolve]
    refine forall₅_congr fun qualifier name other hqualifier hname => ?_
    rw [plain_iff (.inl (hident qualifier name hname))]
  · rw [rewrite_two (halias t ht) hcolumn]
    split
    · next hplain =>
      rw [String.append_left_inj, String.append_left_inj, resolve?_getD_eq_iff, hresolve]
      simp [hplain.1, hplain.2]
    · next hplain => exact iff_of_true rfl fun h1 h2 => absurd ⟨h1, h2⟩ hplain
  · rintro catalog spec s rfl rfl hresolved
    exact resolve_aliasForm_iff hresolved h

/-- Items with their stock, for which the join brings an alias. -/
def stockByAlias : QuerySpec where
  mainTable := "OITM"
  joins := [⟨"OITW", some "w", .inner, [⟨"OITM.ItemCode", "w.ItemCode"⟩]⟩]
  columns := [⟨"OITM.*", none⟩, ⟨"OITW.OnHand", some "qty"⟩]
  filters := []
  limit := none

theorem rewrite_idempotent_iff_stockByAlias :
    ∃ a s, build stockByAlias.mainTable stockByAlias.joins = .ok a ∧
      (∀ expression, a.rewrite (a.rewrite expression) = a.rewrite expression) ∧
      (∀ column : String, IsPart column.toList →
        a.rewrite ("w" ++ "." ++ column) = "w" ++ "." ++ column) ∧
      s.references = ["o.*", "w.OnHand", "o.ItemCode", "w.ItemCode"] ∧
      resolve none stockByAlias = .ok s ∧ resolve none (stockByAlias.aliasForm a) = .ok s := by
  obtain ⟨hidem, halias, hform⟩ :=
    rewrite_idempotent_iff stockByAlias.mainTable stockByAlias.joins _ rfl
  have hevery := hidem.mpr fun qualifier name other _ hname _ hother => by
    obtain ⟨t, ht, -, rfl⟩ := exists_of_firstNamed?_eq_some hname
    fin_cases ht <;> cases hother
  refine ⟨_, _, rfl, hevery, fun column hcolumn => ?_, ?_, rfl,
    (hform none stockByAlias _ rfl rfl rfl).mpr fun reference _ => hevery reference⟩
  · refine (halias ("OITW", "w") (by decide) column hcolumn).mpr fun _ _ other hother => ?_
    cases hother
  · rfl

/-- The alias of the first table may be the name of the second one. -/
theorem not_rewrite_idempotent :
    ¬ ∀ (mainTable : String) (joins : List Join) (a : Aliases), build mainTable joins = .ok a →
      ∀ expression, a.rewrite (a.rewrite expression) = a.rewrite expression := by
  intro hall
  have htwice := hall "items" [⟨"i", none, .inner, []⟩] _ rfl "items.code"
  exact absurd htwice (by decide)

end Recount.Sql.Aliases
