import Recount.Name
import Recount.Text.Letter

/-!
# Parts of a mapping

A mapping says how items are read from the tables of a resource planning system: which tables are
joined, which columns become which fields of an item, and which rows are left out.
-/

namespace Recount

/-- A kind of data that is read, each with a mapping of its own. -/
inductive Dataset where
  | items
  | stock
  | cost
  | price
  | destination
deriving DecidableEq, Repr, Inhabited

namespace Dataset

/-- The name of a data set. -/
def name : Dataset → String
  | items => "ITEMS"
  | stock => "STOCK"
  | cost => "COST"
  | price => "PRICE"
  | destination => "DESTINATION"

/-- The names of the data sets. -/
def naming : Naming Dataset := ⟨[items, stock, cost, price, destination], name⟩

/-- Reads the name of a data set in any case. -/
def parse (s : String) : Except UnknownName Dataset :=
  naming.parse "Unknown dataset type" (Text.asciiUpper s)

end Dataset

/-- Which rows without a partner a join keeps. -/
inductive JoinKind where
  | inner
  | left
  | right
  | full
deriving DecidableEq, Repr, Inhabited

/-- The word before `JOIN`. -/
def JoinKind.keyword : JoinKind → String
  | inner => "INNER"
  | left => "LEFT"
  | right => "RIGHT"
  | full => "FULL"

/-- The names of the joins are their keywords. -/
def JoinKind.naming : Naming JoinKind := ⟨[.inner, .left, .right, .full], keyword⟩

/-- Two column references whose values must be equal. -/
structure JoinCondition where
  left : String
  right : String
deriving DecidableEq, Repr

/-- A table that is joined to the main table. -/
structure Join where
  table : String
  /-- The alias to use; without one it is generated. -/
  alias? : Option String
  kind : JoinKind
  conditions : List JoinCondition
deriving DecidableEq, Repr

/-- What the values of a mapped column are read as. -/
inductive FieldType where
  | string
  | integer
  | decimal
  | boolean
deriving DecidableEq, Repr, Inhabited

/-- The names of the field types. -/
def FieldType.naming : Naming FieldType where
  all := [.string, .integer, .decimal, .boolean]
  name
    | .string => "string"
    | .integer => "integer"
    | .decimal => "decimal"
    | .boolean => "boolean"

/-- A change made to the text of a mapped column. -/
inductive FieldTransform where
  | trim
  | uppercase
  | lowercase
deriving DecidableEq, Repr

/-- The names of the transforms. -/
def FieldTransform.naming : Naming FieldTransform where
  all := [.trim, .uppercase, .lowercase]
  name
    | .trim => "trim"
    | .uppercase => "uppercase"
    | .lowercase => "lowercase"

/-- Which column becomes which field of an item, and how its values are read. -/
structure FieldMapping where
  source : String
  target : String
  type : FieldType
  transform : Option FieldTransform
deriving DecidableEq, Repr

/-- A comparison that a filter makes. -/
inductive FilterOperator where
  | eq
  | ne
  | gt
  | gte
  | lt
  | lte
  | like
  | oneOf
  | isNull
  | isNotNull
deriving DecidableEq, Repr

namespace FilterOperator

/-- The names of the comparisons. -/
def naming : Naming FilterOperator where
  all := [eq, ne, gt, gte, lt, lte, like, oneOf, isNull, isNotNull]
  name
    | eq => "eq"
    | ne => "ne"
    | gt => "gt"
    | gte => "gte"
    | lt => "lt"
    | lte => "lte"
    | like => "like"
    | oneOf => "in"
    | isNull => "is_null"
    | isNotNull => "is_not_null"

/-- The comparison in SQL. -/
def sql : FilterOperator → String
  | eq => "="
  | ne => "<>"
  | gt => ">"
  | gte => ">="
  | lt => "<"
  | lte => "<="
  | like => "LIKE"
  | oneOf => "IN"
  | isNull => "IS NULL"
  | isNotNull => "IS NOT NULL"

end FilterOperator

/-- A condition on the rows that are read. -/
structure Filter where
  column : String
  operator : FilterOperator
  operand : Json
deriving Repr

section Codec

open Json Json.Decode

/-- Decodes a join condition. -/
def JoinCondition.decode : Decoder JoinCondition :=
  record (JoinCondition.mk <$> field "left" text <*> field "right" text)

/-- A join condition as JSON. -/
def JoinCondition.toJson (c : JoinCondition) : Json :=
  ofMembers [("left", .str c.left), ("right", .str c.right)]

/-- Decodes a join. -/
def Join.decode : Decoder Join :=
  record (Join.mk <$> field "table" text
    <*> fieldWithDefault none "alias" (optional text)
    <*> fieldWithDefault .inner "join_type" JoinKind.naming.decode
    <*> field "on" (list JoinCondition.decode))

/-- A join as JSON. -/
def Join.toJson (j : Join) : Json :=
  ofMembers [("table", .str j.table), ("alias", ofText? j.alias?),
    ("join_type", JoinKind.naming.toJson j.kind), ("on", ofList JoinCondition.toJson j.conditions)]

/-- Decodes a field mapping. -/
def FieldMapping.decode : Decoder FieldMapping :=
  record (FieldMapping.mk <$> field "source" text <*> field "target" text
    <*> fieldWithDefault .string "data_type" FieldType.naming.decode
    <*> fieldWithDefault none "transform" (optional FieldTransform.naming.decode))

/-- A field mapping as JSON. -/
def FieldMapping.toJson (m : FieldMapping) : Json :=
  ofMembers [("source", .str m.source), ("target", .str m.target),
    ("data_type", FieldType.naming.toJson m.type),
    ("transform", ofOption FieldTransform.naming.toJson m.transform)]

/-- Decodes a filter. -/
def Filter.decode : Decoder Filter :=
  record (Filter.mk <$> field "field" text <*> field "operator" FilterOperator.naming.decode
    <*> fieldWithDefault .null "value" value)

/-- A filter as JSON. -/
def Filter.toJson (f : Filter) : Json :=
  ofMembers [("field", .str f.column), ("operator", FilterOperator.naming.toJson f.operator),
    ("value", f.operand)]

end Codec
end Recount
