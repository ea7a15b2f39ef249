/-!
# Defects of queries

Why a query, or a part of one, is refused.
-/

namespace Recount.Sql

/-- The most rows that one query may answer. -/
def maxRows : Nat := 10000

/-- A reason to refuse a query. -/
inductive Defect where
  | tableName (name : String)
  | tableReference (reference : String)
  | columnReference (reference : String)
  | alias_ (name : String)
  | separatorInFragment
  | commentInFragment
  | keywordInFragment (keyword : String)
  | emptyQuery
  | notASelect
  | severalStatements
  | forbiddenOperation (keyword : String)
  | duplicateAlias (name : String)
  | limitNotPositive
  | limitTooLarge (limit : Nat)
  | limitOutOfRange
  | unknownTemplate (key : String)
  | unknownTable (name : String)
  | joinWithoutCondition (table : String)
  | listNeeded (column : String)
  | scalarNeeded (column : String)
  | uncheckedRawQuery (mapping : String)
deriving DecidableEq, Repr

/-- The wording of a defect. -/
def Defect.message : Defect → String
  | tableName name => "Invalid table name: " ++ name
  | tableReference reference => "Invalid table reference: " ++ reference
  | columnReference reference => "Invalid column reference: " ++ reference
  | alias_ name => "Invalid alias: " ++ name
  | separatorInFragment => "WHERE clause must not contain a statement separator"
  | commentInFragment => "WHERE clause must not contain comments"
  | keywordInFragment keyword => "Forbidden SQL keyword in WHERE clause: " ++ keyword
  | emptyQuery => "Query is empty"
  | notASelect => "Only SELECT queries are allowed"
  | severalStatements => "Multiple statements are not allowed"
  | forbiddenOperation keyword => "Forbidden SQL operation: " ++ keyword
  | duplicateAlias name => "Duplicate join alias: " ++ name
  | limitNotPositive => "Row limit must be positive"
  | limitTooLarge limit =>
    "Row limit " ++ toString limit ++ " exceeds maximum of " ++ toString maxRows
  | limitOutOfRange => "Row limit must be between 1 and " ++ toString maxRows
  | unknownTemplate key => "Unknown query template: " ++ key
  | unknownTable name => "Unknown table: " ++ name
  | joinWithoutCondition table => "Join on " ++ table ++ " has no condition"
  | listNeeded column => "Filter on " ++ column ++ " needs a non-empty list for IN"
  | scalarNeeded column => "Filter on " ++ column ++ " needs a scalar value"
  | uncheckedRawQuery mapping => "Mapping " ++ mapping ++
      " uses a raw query, which cannot be checked against the schema catalog"

end Recount.Sql
