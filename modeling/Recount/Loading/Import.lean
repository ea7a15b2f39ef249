import Recount.File.Export
import Recount.File.Items
import Recount.Loading.Load

/-!
# Importing and exporting files

The rows of a file become items in the same way as rows of a planning system. The items of a
version can be taken out as separated values.
-/

namespace Recount.Loading

/-- What an import did. -/
structure ImportSummary where
  kind : File.Kind
  hash : String
  warnings : List String
  load : Summary

/-- Imports a file into the current version of a count. -/
def importItems (tenant count : Id) (content : File.Content) (filename : String)
    (location mapping : Option Id) : Action ImportSummary := do
  let seen ← Counting.editableCount tenant count
  let mapping ← Mapping.getGiven tenant mapping
  let fields := (mapping.map (·.fields)).getD []
  let items ← Action.check (Error.ofFile (File.readItems content filename fields))
  let summary : Summary :=
    { source := .file, version := seen.currentVersion, rowsRead := items.rowsRead
      rowErrors := items.rowErrors }
  let load ← storeRecords seen (location.getD seen.warehouse) summary items.records
  return ⟨items.kind, items.hash, items.warnings, load⟩

/-- The items of a version of a count, by default the current one, as separated values. -/
def exportItems (tenant count : Id) (version : Option Int) (mapping : Option Id) :
    Action String := do
  let seen ← Counting.getCount tenant count
  let mapping ← Mapping.getGiven tenant mapping
  let items ← Action.counts (.listItems count (some (version.getD seen.currentVersion)))
  return File.exportItems items mapping

open Json in
/-- The summary of an import as JSON: that of its load, with what is known of the file. -/
def ImportSummary.toJson (s : ImportSummary) : Json :=
  let load := match s.load.toJson with
    | .obj members => members
    | _ => []
  ofMembers ([("file_type", .str s.kind.name), ("file_hash", .str s.hash),
    ("warnings", ofList .str s.warnings)] ++ load)

end Recount.Loading
