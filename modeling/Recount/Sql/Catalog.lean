import Recount.Sql.Dialect

/-!
# Catalogs of tables

The tables that a connection is known to have, by their names with and without schema and
whatever the case of their letters.
-/

namespace Recount

/-- A row of an answer: its columns with their values. -/
abbrev Row := List (String × Json)

namespace Sql

/-- The names of known tables in lower case, in ascending order. -/
structure Catalog where
  tables : List String

namespace Catalog

/-- No table. -/
def empty : Catalog := ⟨[]⟩

/-- Enters a name at its place, once. -/
def insertName (name : String) : List String → List String
  | [] => [name]
  | n :: rest =>
    if name < n then name :: n :: rest
    else if name = n then n :: rest
    else n :: insertName name rest

/-- The form in which a name is kept and looked up. -/
def key (table : String) : String := Text.asciiLower (Text.trim table)

/-- Enters a table, and without its schema if it has one. -/
def insert (c : Catalog) (table : String) : Catalog :=
  let name := key table
  if name.isEmpty then c
  else
    let parts := Text.split '.' name
    let bare := parts.getLast?.getD name
    ⟨insertName name (if 1 < parts.length then insertName bare c.tables else c.tables)⟩

/-- The catalog of a list of tables. -/
def ofTables (tables : List String) : Catalog := tables.foldl insert empty

/-- The table is known. -/
def contains (c : Catalog) (table : String) : Bool := c.tables.contains (key table)

/-- The text in the first column with a name, whatever the case of its letters. -/
def textIn? (row : Row) (name : String) : Option String :=
  ((row.find? fun (column, _) => Text.eqIgnoringAsciiCase column name).map (·.2)).bind Json.str?

/-- The catalog of the rows that a connection answers about its tables. -/
def ofRows (rows : List Row) : Catalog :=
  rows.foldl (fun c row =>
    match textIn? row "table_name", textIn? row "table_schema" with
    | some table, some schema => c.insert (if schema.isEmpty then table else schema ++ "." ++ table)
    | some table, none => c.insert table
    | none, _ => c) empty

/-- The query that asks a connection for its tables. -/
def introspection : Dialect → String
  | .postgres => "SELECT table_schema, table_name FROM information_schema.tables " ++
      "WHERE table_schema NOT IN ('pg_catalog', 'information_schema')"
  | .mySql => "SELECT table_schema, table_name FROM information_schema.tables " ++
      "WHERE table_schema = DATABASE()"
  | .msSql => "SELECT TABLE_SCHEMA AS table_schema, TABLE_NAME AS table_name " ++
      "FROM INFORMATION_SCHEMA.TABLES"

end Catalog
end Sql
end Recount
