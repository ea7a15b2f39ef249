import Recount.Sql.Alias
import Recount.Sql.Catalog
import Recount.Sql.Template
import Recount.Mapping.Basic

/-!
# Queries

A query is specified by its tables, columns, filters and row limit. It is first resolved into a
statement whose parts have been checked and refer to aliases; the statement is then written in a
dialect. Operands of filters become numbered parameters and never part of the text.
-/

namespace Recount.Sql

/-- A column to answer, under its own name or another one. -/
structure SelectColumn where
  expression : String
  alias? : Option String

/-- What to read. -/
structure QuerySpec where
  mainTable : String
  joins : List Join
  columns : List SelectColumn
  filters : List Filter
  limit : Option Nat

/-- A written query with the values of its parameters in order. -/
structure Query where
  sql : String
  parameters : List Json

/-- An output column of a statement. -/
structure OutputColumn where
  reference : String
  alias? : Option String

/-- A joined table of a statement. -/
structure JoinedTable where
  keyword : String
  table : String
  alias_ : String
  conditions : List (String × String)

/-- What a condition of a statement asks of a column. -/
inductive Test where
  | null (operator : String)
  | compare (operator : String) (operand : Json)
  | among (operands : List Json)

/-- A condition of a statement. -/
structure Condition where
  reference : String
  test : Test

/-- A statement whose references are resolved. -/
structure Select where
  table : String
  alias_ : String
  /-- No columns stand for all columns of the main table. -/
  columns : List OutputColumn
  joins : List JoinedTable
  conditions : List Condition
  limit : Option Nat

/-- The specification of a mapping's query. -/
def QuerySpec.ofMapping (m : Mapping) (limit : Option Nat) : QuerySpec where
  mainTable := m.mainTable
  joins := m.joins
  columns := m.fields.map fun f => ⟨f.source, some f.target⟩
  filters := m.filters
  limit := limit

/-- A table is well named and, where there is a catalog, known to it. -/
def checkTable (catalog : Option Catalog) (table : String) : Except Defect Unit := do
  checkTableReference table
  match catalog with
  | some c => if c.contains table then .ok () else .error (.unknownTable table)
  | none => .ok ()

/-- The table of a join is checked, and the join has a condition. -/
def checkJoin (catalog : Option Catalog) (j : Join) : Except Defect Unit := do
  checkTable catalog j.table
  if j.conditions.isEmpty then .error (.joinWithoutCondition j.table) else .ok ()

/-- Resolves an output column; a star keeps no alias. -/
def resolveColumn (a : Aliases) (c : SelectColumn) : Except Defect OutputColumn := do
  checkColumnReference c.expression true
  let reference := a.rewrite c.expression
  match c.alias? with
  | some name =>
    if Text.endsWith c.expression "*" then .ok ⟨reference, none⟩
    else
      checkAlias name
      .ok ⟨reference, some name⟩
  | none => .ok ⟨reference, none⟩

/-- Resolves a join condition. -/
def resolveJoinCondition (a : Aliases) (c : JoinCondition) :
    Except Defect (String × String) := do
  checkColumnReference c.left false
  checkColumnReference c.right false
  .ok (a.rewrite c.left, a.rewrite c.right)

/-- Resolves a join with its alias. -/
def resolveJoin (a : Aliases) (j : Join) (name : String) : Except Defect JoinedTable := do
  let conditions ← j.conditions.mapM (resolveJoinCondition a)
  .ok ⟨j.kind.keyword, j.table, name, conditions⟩

/-- A text, a number or a truth value. -/
def isScalar : Json → Bool
  | .str _ => true
  | .num _ => true
  | .bool _ => true
  | _ => false

/-- An operand of a filter is a scalar. -/
def checkScalar (column : String) (operand : Json) : Except Defect Unit :=
  if isScalar operand then .ok () else .error (.scalarNeeded column)

/-- Resolves a filter. -/
def resolveFilter (a : Aliases) (f : Filter) : Except Defect Condition := do
  checkColumnReference f.column false
  let reference := a.rewrite f.column
  match f.operator with
  | .isNull | .isNotNull => .ok ⟨reference, .null f.operator.sql⟩
  | .oneOf =>
    match f.operand with
    | .arr (operand :: operands) =>
      (operand :: operands).forM (checkScalar f.column)
      .ok ⟨reference, .among (operand :: operands)⟩
    | _ => .error (.listNeeded f.column)
  | operator =>
    checkScalar f.column f.operand
    .ok ⟨reference, .compare operator.sql f.operand⟩

/-- Resolves a specification. -/
def resolve (catalog : Option Catalog) (spec : QuerySpec) : Except Defect Select := do
  checkLimit spec.limit
  checkTable catalog spec.mainTable
  spec.joins.forM (checkJoin catalog)
  let a ← Aliases.build spec.mainTable spec.joins
  let columns ← spec.columns.mapM (resolveColumn a)
  let joins ← (spec.joins.zip a.joins).mapM fun (j, name) => resolveJoin a j name
  let conditions ← spec.filters.mapM (resolveFilter a)
  .ok { table := spec.mainTable, alias_ := a.main, columns, joins, conditions, limit := spec.limit }

/-- The operands of a condition in the order of their placeholders. -/
def Condition.operands (c : Condition) : List Json :=
  match c.test with
  | .null _ => []
  | .compare _ operand => [operand]
  | .among operands => operands

/-- The placeholders of so many parameters, numbered from `first`. -/
def placeholders (d : Dialect) (first count : Nat) : List String :=
  (List.range count).map fun i => d.placeholder (first + i)

/-- The text of an output column. -/
def OutputColumn.text (d : Dialect) (c : OutputColumn) : String :=
  match c.alias? with
  | some name => c.reference ++ " AS " ++ d.quoteAlias name
  | none => c.reference

/-- The text of a join. -/
def JoinedTable.text (j : JoinedTable) : String :=
  " " ++ j.keyword ++ " JOIN " ++ j.table ++ " " ++ j.alias_ ++ " ON " ++
    Text.join " AND " (j.conditions.map fun (left, right) => left ++ " = " ++ right)

/-- The text of a condition whose parameters are numbered from `first`. -/
def Condition.text (d : Dialect) (first : Nat) (c : Condition) : String :=
  match c.test with
  | .null operator => c.reference ++ " " ++ operator
  | .compare operator _ => c.reference ++ " " ++ operator ++ " " ++ d.placeholder first
  | .among operands => c.reference ++ " IN (" ++
      Text.join ", " (placeholders d first operands.length) ++ ")"

/-- The texts of conditions whose parameters are numbered from `first`. -/
def conditionTexts (d : Dialect) : Nat → List Condition → List String
  | _, [] => []
  | first, c :: cs => c.text d first :: conditionTexts d (first + c.operands.length) cs

namespace Select

/-- The values of the parameters in order. -/
def parameters (s : Select) : List Json := s.conditions.flatMap Condition.operands

/-- The text of a statement. -/
def text (d : Dialect) (s : Select) : String :=
  let columns :=
    if s.columns.isEmpty then s.alias_ ++ ".*"
    else Text.join ", " (s.columns.map (OutputColumn.text d))
  let conditions :=
    if s.conditions.isEmpty then ""
    else " WHERE " ++ Text.join " AND " (conditionTexts d 1 s.conditions)
  "SELECT " ++ d.topClause s.limit ++ columns ++ " FROM " ++ s.table ++ " " ++ s.alias_ ++
    String.join (s.joins.map JoinedTable.text) ++ conditions ++ d.limitClause s.limit

end Select

/-- What queries are written for: a dialect and, where tables are checked, a catalog. -/
structure Compiler where
  dialect : Dialect
  catalog : Option Catalog

namespace Compiler

/-- The query of a specification. -/
def compile (c : Compiler) (spec : QuerySpec) : Except Defect Query :=
  (resolve c.catalog spec).map fun s => ⟨s.text c.dialect, s.parameters⟩

/-- The query of a mapping. A query written by hand takes the place of the compiled one; it is
limited from outside and is refused where tables are to be checked. -/
def compileMapping (c : Compiler) (m : Mapping) (limit : Option Nat) : Except Defect Query :=
  match m.rawQuery.filter fun q => !Text.isBlankText q with
  | some raw => do
    checkLimit limit
    if c.catalog.isSome then .error (.uncheckedRawQuery m.name)
    else
      let statement ← checkSelect raw
      .ok ⟨c.dialect.limitStatement statement limit, []⟩
  | none => c.compile (.ofMapping m limit)

/-- The query of a data set that is read through its template. -/
def compileTemplate (c : Compiler) (q : TemplateQuery) (limit : Option Nat) :
    Except Defect Query := do
  checkTable c.catalog q.table
  let sql ← Template.render (Template.ofDataset q.dataset).key c.dialect
    ⟨q.table, q.condition, limit⟩
  .ok ⟨sql, []⟩

end Compiler

section Codec

open Json Json.Decode

/-- Decodes a column. -/
def SelectColumn.decode : Decoder SelectColumn :=
  record (SelectColumn.mk <$> field "expr" Decode.text
    <*> fieldWithDefault none "alias" (optional Decode.text))

/-- Decodes a row limit. -/
def decodeLimit : Decoder (Option Nat) := optional (natOfBits 32)

/-- Decodes a specification. -/
def QuerySpec.decode : Decoder QuerySpec :=
  record (QuerySpec.mk <$> field "main_table" Decode.text
    <*> fieldWithDefault [] "joins" (list Join.decode)
    <*> fieldWithDefault [] "columns" (list SelectColumn.decode)
    <*> fieldWithDefault [] "filters" (list Filter.decode)
    <*> fieldWithDefault none "limit" decodeLimit)

/-- Decodes a template query. -/
def TemplateQuery.decode : Decoder TemplateQuery :=
  record (TemplateQuery.mk <$> field "dataset_type" Dataset.naming.decode
    <*> field "table" Decode.text <*> fieldWithDefault none "where_clause" (optional Decode.text))

/-- Decodes what is filled into a template. -/
def TemplateParams.decode : Decoder TemplateParams :=
  record (TemplateParams.mk <$> field "table" Decode.text
    <*> fieldWithDefault none "where_clause" (optional Decode.text)
    <*> fieldWithDefault none "limit" decodeLimit)

/-- A query as JSON; the parameters are named by their numbers. -/
def Query.toJson (q : Query) : Json :=
  let parameter (value : Json) (index : Nat) : Json :=
    ofMembers [("name", .str ("p" ++ toString (index + 1))), ("value", value)]
  ofMembers [("sql", .str q.sql),
    ("parameters", .arr (q.parameters.zipIdx.map fun (value, index) => parameter value index))]

end Codec
end Recount.Sql
