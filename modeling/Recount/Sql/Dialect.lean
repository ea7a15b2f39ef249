import Recount.Name
import Recount.Text.Letter
import Recount.Text.Trim

/-!
# Dialects of SQL

The systems that queries are written for differ in their placeholders, in the quotes around an
alias and in the place of the row limit.
-/

namespace Recount.Sql

/-- A dialect of SQL. -/
inductive Dialect where
  | postgres
  | mySql
  | msSql
deriving DecidableEq, Repr, Inhabited

namespace Dialect

/-- All dialects. -/
def all : List Dialect := [postgres, mySql, msSql]

/-- The name of a dialect. -/
def name : Dialect → String
  | postgres => "postgres"
  | mySql => "mysql"
  | msSql => "mssql"

/-- The names by which records refer to dialects. -/
def naming : Naming Dialect where
  all := all
  name
    | postgres => "postgres"
    | mySql => "my_sql"
    | msSql => "ms_sql"

/-- The names by which settings refer to a dialect. -/
def settingNames : Dialect → List String
  | postgres => ["postgres", "postgresql", "pg"]
  | mySql => ["mysql", "mariadb"]
  | msSql => ["mssql", "sqlserver", "tsql"]

/-- Reads the name of a dialect in any case. -/
def parse (s : String) : Except UnknownName Dialect :=
  let given := Text.asciiLower s
  (all.find? fun d => d.settingNames.contains given).elim
    (.error ⟨"Unsupported SQL dialect", given⟩) .ok

/-- The placeholder of a parameter, counted from one. -/
def placeholder (d : Dialect) (index : Nat) : String :=
  match d with
  | postgres => "$" ++ toString index
  | mySql => "?"
  | msSql => "@p" ++ toString index

/-- The placeholder of a quantity, which is bound as an integer or as text. -/
def decimalPlaceholder (d : Dialect) (index : Nat) : String :=
  match d with
  | postgres => "CAST(" ++ d.placeholder index ++ " AS NUMERIC)"
  | mySql | msSql => "CAST(" ++ d.placeholder index ++ " AS DECIMAL(38, 10))"

/-- The quotes around the alias of an output column. -/
def aliasQuotes : Dialect → String × String
  | postgres => ("\"", "\"")
  | mySql => ("\x60", "\x60")
  | msSql => ("[", "]")

/-- The alias of an output column in its quotes. -/
def quoteAlias (d : Dialect) (name : String) : String :=
  d.aliasQuotes.1 ++ name ++ d.aliasQuotes.2

/-- The row limit, where it stands after `SELECT`. -/
def topClause (d : Dialect) (limit : Option Nat) : String :=
  match d, limit with
  | msSql, some n => "TOP " ++ toString n ++ " "
  | _, _ => ""

/-- The row limit, where it stands at the end of the statement. -/
def limitClause (d : Dialect) (limit : Option Nat) : String :=
  match d, limit with
  | msSql, _ => ""
  | _, none => ""
  | _, some n => " LIMIT " ++ toString n

/-- A statement that answers at most so many rows of the given one. -/
def limitStatement (d : Dialect) (statement : String) (limit : Option Nat) : String :=
  let statement := Text.trimEnd (Text.trimEndOf ';' (Text.trim statement))
  match limit with
  | none => statement
  | some _ =>
    "SELECT " ++ d.topClause limit ++ "* FROM (" ++ statement ++ ") q" ++ d.limitClause limit

end Dialect
end Recount.Sql
