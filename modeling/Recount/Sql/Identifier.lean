import Recount.Sql.Defect
import Recount.Text.Trim
import Recount.Text.Letter

/-!
# Identifiers and fragments

Values travel as parameters; only identifiers and a few written fragments become part of a query.
An identifier is a run of ASCII letters, digits and underscores, a reference joins identifiers by
points, and a fragment is searched for separators, comments and words that change data.
-/

namespace Recount.Sql

/-- A non-empty run of ASCII letters, digits and underscores. -/
def isIdentifier (cs : List Char) : Bool := !cs.isEmpty && cs.all Text.isAsciiWord

/-- The parts of a reference. -/
def segments (reference : String) : List (List Char) := Text.splitChars '.' reference.toList

/-- A table without a schema. -/
def checkTableName (name : String) : Except Defect Unit :=
  if isIdentifier name.toList then .ok () else .error (.tableName name)

/-- A table, with or without a schema. -/
def checkTableReference (reference : String) : Except Defect Unit :=
  let parts := segments reference
  if parts.length ≤ 2 && parts.all isIdentifier then .ok () else .error (.tableReference reference)

/-- The parts of a column reference: identifiers, of which the last may be a star. -/
def areColumnSegments (allowStar : Bool) : List (List Char) → Bool
  | [] => false
  | [last] => isIdentifier last || (allowStar && last == ['*'])
  | part :: parts => isIdentifier part && areColumnSegments allowStar parts

/-- A column, which may be qualified by a table and that by a schema. -/
def checkColumnReference (reference : String) (allowStar : Bool) : Except Defect Unit :=
  let parts := segments reference
  if parts.length ≤ 3 && areColumnSegments allowStar parts then .ok ()
  else .error (.columnReference reference)

/-- The alias of an output column or of a joined table. -/
def checkAlias (name : String) : Except Defect Unit :=
  if isIdentifier name.toList then .ok () else .error (.alias_ name)

/-- The words that change data or run procedures. -/
def destructiveWords : List String :=
  ["INSERT", "UPDATE", "DELETE", "DROP", "ALTER", "TRUNCATE", "CREATE", "GRANT", "REVOKE", "EXEC",
    "EXECUTE", "MERGE", "CALL", "ATTACH", "DETACH"]

/-- Folds the case of a letter; the long s and the Kelvin sign fold onto ASCII letters. -/
def foldCase (c : Char) : Char :=
  if c.toNat = 0x17F then 'S' else if c.toNat = 0x212A then 'K' else c.toUpper

/-- A word that changes data, in any case. -/
def isDestructive (word : List Char) : Bool :=
  destructiveWords.any fun w => w.toList == word.map foldCase

/-- The words of a text: its longest runs of word characters. -/
def words : List Char → List (List Char)
  | [] => []
  | c :: cs =>
    if Text.isWord c then
      match cs with
      | [] => [[c]]
      | d :: _ =>
        if Text.isWord d then
          match words cs with
          | word :: rest => (c :: word) :: rest
          | [] => [[c]]
        else [c] :: words cs
    else words cs

/-- The first word of a text that changes data, in upper case. -/
def destructiveWord? (s : String) : Option String :=
  ((words s.toList).find? isDestructive).map fun word => String.ofList (word.map Char.toUpper)

/-- A condition that becomes part of a query as it is written. -/
def checkFragment (fragment : String) : Except Defect Unit :=
  if fragment.toList.contains ';' then .error .separatorInFragment
  else if Text.occurs "--" fragment || Text.occurs "/*" fragment then .error .commentInFragment
  else match destructiveWord? fragment with
    | some word => .error (.keywordInFragment word)
    | none => .ok ()

/-- A text without blanks at its ends and without one semicolon at its end. -/
def withoutSeparator (s : String) : String :=
  let trimmed := Text.trim s
  if Text.endsWith trimmed ";" then Text.trimEnd (String.ofList trimmed.toList.dropLast)
  else trimmed

/-- A single statement that only reads, without the separator that may follow it. -/
def checkSelect (sql : String) : Except Defect String :=
  let statement := withoutSeparator sql
  let upper := Text.asciiUpper statement
  if statement.isEmpty then .error .emptyQuery
  else if !(Text.startsWith upper "SELECT" || Text.startsWith upper "WITH") then
    .error .notASelect
  else if statement.toList.contains ';' then .error .severalStatements
  else match destructiveWord? statement with
    | some word => .error (.forbiddenOperation word)
    | none => .ok statement

/-- A row limit, where there is one, is positive and not above the maximum. -/
def checkLimit : Option Nat → Except Defect Unit
  | none => .ok ()
  | some limit =>
    if limit = 0 then .error .limitNotPositive
    else if maxRows < limit then .error (.limitTooLarge limit)
    else .ok ()

end Recount.Sql
