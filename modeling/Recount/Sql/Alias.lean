import Recount.Mapping.Parts
import Recount.Sql.Identifier

/-!
# Table aliases

Every table of a query has an alias. Joins may bring theirs; the others are generated from the
names of the tables and made distinct from all before them. References to a table are rewritten
to references to its alias, outside of quoted texts.
-/

namespace Recount.Sql

/-- The aliases of the tables of a query. -/
structure Aliases where
  main : String
  joins : List String
  /-- Names of tables in lower case with their aliases; the first entry of a name counts. -/
  entries : List (String × String)

namespace Aliases

/-- The aliases that joins bring, in lower case; no two are equal. -/
def explicit : List String → List Join → Except Defect (List String)
  | used, [] => .ok used
  | used, j :: js =>
    match j.alias? with
    | none => explicit used js
    | some name => do
      checkAlias name
      let key := Text.asciiLower name
      if used.contains key then .error (.duplicateAlias name) else explicit (key :: used) js

/-- The last part of a table's name in lower case. -/
def bareName (table : String) : List Char :=
  ((Text.splitChars '.' (Text.asciiLower table).toList).getLast?).getD []

/-- The beginnings of an alias: the first letter of the bare name, and the first two characters. A
name that does not begin with a letter gets one. -/
def candidates (table : String) : String × String :=
  let cs := (bareName table).filter Text.isAsciiWord
  let first := cs.head?.getD 't'
  let base := if first.isAlpha || first == '_' then [first] else ['t', first]
  let two := match cs.drop 1 with
    | second :: _ => base ++ [second]
    | [] => base ++ base
  (String.ofList base, String.ofList two)

/-- An alias for a table that is not used yet: a beginning, or the longer one with a number. -/
def generate (table : String) (used : List String) : String :=
  let (base, two) := candidates table
  if !used.contains base then base
  else if !used.contains two then two
  else
    let numbered := (List.range (used.length + 1)).map fun n => two ++ toString (n + 2)
    (numbered.find? fun name => !used.contains name).getD two

/-- The aliases of joined tables, given those used before. -/
def ofJoins : List String → List Join → List String
  | _, [] => []
  | used, j :: js =>
    match j.alias? with
    | some name => name :: ofJoins used js
    | none =>
      let name := generate j.table used
      name :: ofJoins (Text.asciiLower name :: used) js

/-- A table is found by its name as it is written and by its bare name. -/
def entriesOf (table name : String) : List (String × String) :=
  [(Text.asciiLower table, name), (String.ofList (bareName table), name)]

/-- Assigns an alias to every table. -/
def build (mainTable : String) (joins : List Join) : Except Defect Aliases := do
  let used ← explicit [] joins
  let main := generate mainTable used
  let others := ofJoins (Text.asciiLower main :: used) joins
  let tables := (mainTable, main) :: (joins.map (·.table)).zip others
  .ok ⟨main, others, tables.flatMap fun (table, name) => entriesOf table name⟩

/-- The alias of a table. -/
def resolve? (a : Aliases) (table : String) : Option String :=
  (a.entries.find? (·.1 == Text.asciiLower table)).map (·.2)

/-- A character that a name inside a reference begins with. -/
def startsName (c : Char) : Bool := c.isAlpha || c == '_'

/-- The parts of a reference after its first one; each step takes a part. -/
def moreParts : Nat → List Char → List (List Char)
  | 0, _ => []
  | fuel + 1, '.' :: '*' :: rest => ['*'] :: moreParts fuel rest
  | fuel + 1, '.' :: c :: rest =>
    if startsName c then
      let name := c :: rest.takeWhile Text.isAsciiWord
      name :: moreParts fuel (rest.dropWhile Text.isAsciiWord)
    else []
  | _ + 1, _ => []

/-- The parts of the reference at the start of a text: a name, and names or stars after points. -/
def reference? : List Char → Option (List (List Char))
  | [] => none
  | c :: cs =>
    if startsName c then
      let rest := cs.dropWhile Text.isAsciiWord
      match moreParts rest.length rest with
      | [] => none
      | parts => some ((c :: cs.takeWhile Text.isAsciiWord) :: parts)
    else none

/-- The parts of a reference joined by points. -/
def joinParts (parts : List (List Char)) : List Char := ['.'].intercalate parts

/-- A reference with its table replaced by the alias, or unchanged if the table is unknown. -/
def rewriteReference (a : Aliases) (parts : List (List Char)) : List Char :=
  let qualified := match parts with
    | [table, column] => (a.resolve? (String.ofList table)).map fun name => (name, column)
    | [schema, table, column] =>
      (a.resolve? (String.ofList (joinParts [schema, table]))).map fun name => (name, column)
    | _ => none
  match qualified with
  | some (name, column) => name.toList ++ '.' :: column
  | none => joinParts parts

/-- Rewrites the references of a text. A reference begins where no word is under way; `skip`
characters still belong to the reference that was rewritten last. -/
def rewriteFrom (a : Aliases) (inWord : Bool) : Nat → List Char → List Char
  | _, [] => []
  | skip + 1, c :: cs => rewriteFrom a (Text.isWord c) skip cs
  | 0, c :: cs =>
    match if inWord then none else reference? (c :: cs) with
    | some parts =>
      rewriteReference a parts ++
        rewriteFrom a (Text.isWord c) ((joinParts parts).length - 1) cs
    | none => c :: rewriteFrom a (Text.isWord c) 0 cs

/-- Rewrites every other piece of a text, beginning with the first one. -/
def rewritePieces (a : Aliases) : Bool → List (List Char) → List (List Char)
  | _, [] => []
  | quoted, piece :: pieces =>
    (if quoted then piece else rewriteFrom a false 0 piece) :: rewritePieces a (!quoted) pieces

/-- Rewrites the references of an expression that stand outside of quotes. -/
def rewrite (a : Aliases) (expression : String) : String :=
  String.ofList
    (['\''].intercalate (rewritePieces a false (Text.splitChars '\'' expression.toList)))

end Aliases
end Recount.Sql
