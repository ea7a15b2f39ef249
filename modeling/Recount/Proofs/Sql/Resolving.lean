import Recount.Proofs.Sql.Rewriting
import Recount.Sql.Query

/-!
# What a resolved statement refers to

A specification that is resolved becomes a statement over the same tables. Each of them has the
alias that it is assigned, and each reference has been checked and is rewritten for these aliases.
-/

namespace Recount

/-- The values that a filter binds: none, each element of a list, or its operand. -/
def Filter.operands (f : Filter) : List Json :=
  match f.operator with
  | .isNull | .isNotNull => []
  | .oneOf => f.operand.elements
  | _ => [f.operand]

/-- The references of a join. -/
def Join.references (j : Join) : List String := j.conditions.flatMap fun c => [c.left, c.right]

namespace Sql

open List (Forall₂)

/-- The references of a joined table. -/
def JoinedTable.references (j : JoinedTable) : List String :=
  j.conditions.flatMap fun c => [c.1, c.2]

/-- The tables that a specification declares. -/
def QuerySpec.tables (spec : QuerySpec) : List String := spec.mainTable :: spec.joins.map (·.table)

/-- The references of a specification in the order of the query. -/
def QuerySpec.references (spec : QuerySpec) : List String :=
  spec.columns.map (·.expression) ++ spec.joins.flatMap Join.references ++ spec.filters.map (·.column)

/-- The tables of a statement with their aliases. -/
def Select.tables (s : Select) : List (String × String) :=
  (s.table, s.alias_) :: s.joins.map fun j => (j.table, j.alias_)

/-- The references of a statement in the order of the query. -/
def Select.references (s : Select) : List String :=
  s.columns.map (·.reference) ++ s.joins.flatMap JoinedTable.references ++
    s.conditions.map (·.reference)

/-- A reference is checked and written as it is rewritten. -/
def WrittenAs (a : Aliases) (reference emitted : String) : Prop :=
  emitted = a.rewrite reference ∧ ∃ allowStar, checkColumnReference reference allowStar = .ok ()

variable {a : Aliases} {catalog : Option Catalog} {spec : QuerySpec} {s : Select}

theorem resolveColumn_eq_ok {c : SelectColumn} {o : OutputColumn} (h : resolveColumn a c = .ok o) :
    WrittenAs a c.expression o.reference := by
  obtain ⟨_, hcheck, h⟩ := bind_eq_ok_iff.mp h
  refine ⟨?_, true, hcheck⟩
  dsimp only at h
  split at h
  · split at h
    · cases h
      rfl
    · obtain ⟨_, -, h⟩ := bind_eq_ok_iff.mp h
      cases h
      rfl
  · cases h
    rfl

theorem resolveJoinCondition_eq_ok {c : JoinCondition} {p : String × String}
    (h : resolveJoinCondition a c = .ok p) : WrittenAs a c.left p.1 ∧ WrittenAs a c.right p.2 := by
  obtain ⟨_, hleft, h⟩ := bind_eq_ok_iff.mp h
  obtain ⟨_, hright, h⟩ := bind_eq_ok_iff.mp h
  cases h
  exact ⟨⟨rfl, false, hleft⟩, ⟨rfl, false, hright⟩⟩

theorem resolveJoin_eq_ok {j : Join} {name : String} {t : JoinedTable}
    (h : resolveJoin a j name = .ok t) :
    t.table = j.table ∧ t.alias_ = name ∧ Forall₂ (WrittenAs a) j.references t.references := by
  obtain ⟨conditions, hconditions, h⟩ := bind_eq_ok_iff.mp h
  cases h
  refine ⟨rfl, rfl, List.rel_flatMap (mapM_eq_ok_iff.mp hconditions) fun c p hp => ?_⟩
  obtain ⟨hleft, hright⟩ := resolveJoinCondition_eq_ok hp
  exact .cons hleft (.cons hright .nil)

/-- A filter is resolved with its operands, to a test for null, a comparison or a list. -/
theorem resolveFilter_eq_ok {f : Filter} {c : Condition} (h : resolveFilter a f = .ok c) :
    WrittenAs a f.column c.reference ∧ c.operands = f.operands ∧
      (c.test = .null f.operator.sql ∨ c.test = .compare f.operator.sql f.operand ∨
        ∃ operands, c.test = .among operands) := by
  obtain ⟨_, hcheck, h⟩ := bind_eq_ok_iff.mp h
  dsimp only at h
  split at h
  · next hoperator =>
    cases h
    exact ⟨⟨rfl, false, hcheck⟩, by simp [Condition.operands, Filter.operands, hoperator], .inl rfl⟩
  · next hoperator =>
    cases h
    exact ⟨⟨rfl, false, hcheck⟩, by simp [Condition.operands, Filter.operands, hoperator], .inl rfl⟩
  · next hoperator =>
    split at h
    · next operand operands hoperand =>
      obtain ⟨_, -, h⟩ := bind_eq_ok_iff.mp h
      cases h
      refine ⟨⟨rfl, false, hcheck⟩, ?_, .inr (.inr ⟨_, rfl⟩)⟩
      simp [Condition.operands, Filter.operands, hoperator, hoperand, Json.elements]
    · cases h
  · next hnull hnotNull hlist =>
    obtain ⟨_, -, h⟩ := bind_eq_ok_iff.mp h
    cases h
    refine ⟨⟨rfl, false, hcheck⟩, ?_, .inr (.inl rfl)⟩
    cases hoperator : f.operator <;> simp_all [Condition.operands, Filter.operands]

/-- A specification is resolved where it passes its checks, part by part for the aliases of its
tables. -/
theorem resolve_eq_ok_iff : resolve catalog spec = .ok s ↔
    checkLimit spec.limit = .ok () ∧ checkTable catalog spec.mainTable = .ok () ∧
      spec.joins.forM (checkJoin catalog) = .ok () ∧
      ∃ a columns joins conditions, Aliases.build spec.mainTable spec.joins = .ok a ∧
        spec.columns.mapM (resolveColumn a) = .ok columns ∧
        ((spec.joins.zip a.joins).mapM fun j => resolveJoin a j.1 j.2) = .ok joins ∧
        spec.filters.mapM (resolveFilter a) = .ok conditions ∧
        s = ⟨spec.mainTable, a.main, columns, joins, conditions, spec.limit⟩ := by
  constructor
  · intro h
    obtain ⟨_, hlimit, h⟩ := bind_eq_ok_iff.mp h
    obtain ⟨_, htable, h⟩ := bind_eq_ok_iff.mp h
    obtain ⟨_, hjoined, h⟩ := bind_eq_ok_iff.mp h
    obtain ⟨a, hbuild, h⟩ := bind_eq_ok_iff.mp h
    obtain ⟨columns, hcolumns, h⟩ := bind_eq_ok_iff.mp h
    obtain ⟨joins, hjoins, h⟩ := bind_eq_ok_iff.mp h
    obtain ⟨conditions, hconditions, h⟩ := bind_eq_ok_iff.mp h
    exact ⟨hlimit, htable, hjoined, a, columns, joins, conditions, hbuild, hcolumns, hjoins,
      hconditions, (Except.ok.inj h).symm⟩
  · rintro ⟨hlimit, htable, hjoined, a, columns, joins, conditions, hbuild, hcolumns, hjoins,
      hconditions, rfl⟩
    refine bind_eq_ok_iff.mpr ⟨(), hlimit, bind_eq_ok_iff.mpr ⟨(), htable, ?_⟩⟩
    refine bind_eq_ok_iff.mpr ⟨(), hjoined, bind_eq_ok_iff.mpr ⟨a, hbuild, ?_⟩⟩
    refine bind_eq_ok_iff.mpr ⟨columns, hcolumns, bind_eq_ok_iff.mpr ⟨joins, hjoins, ?_⟩⟩
    exact bind_eq_ok_iff.mpr ⟨conditions, hconditions, rfl⟩

theorem resolve_parts (h : resolve catalog spec = .ok s) :
    ∃ a, checkTable catalog spec.mainTable = .ok () ∧ spec.joins.forM (checkJoin catalog) = .ok () ∧
      Aliases.build spec.mainTable spec.joins = .ok a ∧
      Forall₂ (fun c o => resolveColumn a c = .ok o) spec.columns s.columns ∧
      Forall₂ (fun j t => resolveJoin a j.1 j.2 = .ok t) (spec.joins.zip a.joins) s.joins ∧
      Forall₂ (fun f c => resolveFilter a f = .ok c) spec.filters s.conditions ∧
      s.table = spec.mainTable ∧ s.alias_ = a.main := by
  obtain ⟨-, htable, hjoined, a, columns, joins, conditions, hbuild, hcolumns, hjoins, hconditions,
    rfl⟩ := resolve_eq_ok_iff.mp h
  exact ⟨a, htable, hjoined, hbuild, mapM_eq_ok_iff.mp hcolumns, mapM_eq_ok_iff.mp hjoins,
    mapM_eq_ok_iff.mp hconditions, rfl, rfl⟩

/-- The tables of a statement are those of its specification with their aliases, and its references
are those of its specification, rewritten. -/
theorem resolve_eq_ok (h : resolve catalog spec = .ok s) :
    ∃ a, Aliases.build spec.mainTable spec.joins = .ok a ∧
      s.tables = Aliases.tables spec.mainTable spec.joins a ∧
      Forall₂ (WrittenAs a) spec.references s.references := by
  obtain ⟨a, -, -, hbuild, hcolumns, hjoins, hconditions, htable, halias⟩ := resolve_parts h
  have hlength : a.joins.length = spec.joins.length := (Aliases.build_eq_ok hbuild).1
  have hzip : (spec.joins.zip a.joins).map Prod.fst = spec.joins :=
    List.map_fst_zip (Nat.le_of_eq hlength.symm)
  have hjoined := hjoins.imp fun _ _ => resolveJoin_eq_ok
  refine ⟨a, hbuild, ?_, ?_⟩
  · rw [Select.tables, Aliases.tables, htable, halias, List.zip_map_left, List.cons.injEq,
      ← List.forall₂_eq_eq_eq, List.forall₂_map_left_iff, List.forall₂_map_right_iff]
    exact ⟨rfl, hjoined.flip.imp fun _ _ hjoin => Prod.ext hjoin.1 hjoin.2.1⟩
  · refine List.rel_append (List.rel_append ?_ ?_) ?_
    · rw [List.forall₂_map_left_iff, List.forall₂_map_right_iff]
      exact hcolumns.imp fun _ _ => resolveColumn_eq_ok
    · have hreferences : Forall₂ (WrittenAs a)
          ((spec.joins.zip a.joins).flatMap fun j => j.1.references)
          (s.joins.flatMap JoinedTable.references) :=
        List.rel_flatMap hjoined fun _ _ hjoin => hjoin.2.2
      rwa [← List.flatMap_map Prod.fst Join.references, hzip] at hreferences
    · rw [List.forall₂_map_left_iff, List.forall₂_map_right_iff]
      exact hconditions.imp fun _ _ hcondition => (resolveFilter_eq_ok hcondition).1

/-- A query that is compiled is a statement that was resolved. -/
theorem compile_eq_ok {c : Compiler} {q : Query} (h : c.compile spec = .ok q) :
    ∃ s, resolve c.catalog spec = .ok s ∧ q = ⟨s.text c.dialect, s.parameters⟩ := by
  obtain ⟨s, hresolved, rfl⟩ := map_eq_ok_iff.mp h
  exact ⟨s, hresolved, rfl⟩

/-- Without a query written by hand, the one of a mapping is compiled. -/
theorem compileMapping_eq_compile {c : Compiler} {m : Mapping} {limit : Option Nat}
    (hraw : ∀ raw, m.rawQuery = some raw → Text.isBlankText raw = true) :
    c.compileMapping m limit = c.compile (.ofMapping m limit) := by
  have hnone : (m.rawQuery.filter fun q => !Text.isBlankText q) = none := by
    rw [Option.filter_eq_none_iff]
    intro raw hraw'
    simp [hraw raw hraw']
  rw [Compiler.compileMapping, hnone]

end Sql
end Recount
