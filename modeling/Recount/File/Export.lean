import Recount.Count.Item
import Recount.File.Csv
import Recount.Load.Field
import Recount.Mapping.Basic

/-!
# Exporting items

Items are written as separated values under the names of their fields, or under the columns that
a mapping reads the fields from.
-/

namespace Recount.File

/-- A column of an export. -/
structure ExportColumn where
  title : String
  value : Item → String

/-- A quantity without zeros at its end; nothing for one that is not there. -/
def quantityText (qty : Option Decimal) : String := (qty.map fun d => d.normalize.toNumeral).getD ""

/-- The columns of an export. -/
def exportColumns : List ExportColumn :=
  [⟨"itemCode", (·.code)⟩, ⟨"itemName", (·.name)⟩, ⟨"uom", (·.uom.getD "")⟩,
    ⟨"packQty", fun i => quantityText i.packQty⟩,
    ⟨"systemQty", fun i => quantityText (some i.systemQty)⟩,
    ⟨"countedQty", fun i => quantityText i.countedQty⟩,
    ⟨"difference", fun i => quantityText i.difference⟩,
    ⟨"variancePercent", fun i => quantityText i.variancePercent⟩,
    ⟨"status", fun i => ItemStatus.naming.name i.status⟩, ⟨"version", fun i => toString i.version⟩,
    ⟨"locationId", (·.location.text)⟩]

/-- The header of a column. -/
def ExportColumn.header (mapping : Option Mapping) (c : ExportColumn) : String :=
  ((mapping.bind fun m => m.sourceFor? c.title).map bareColumn).getD c.title

/-- Writes items as separated values. -/
def exportItems (items : List Item) (mapping : Option Mapping) : String :=
  Csv.write (exportColumns.map (ExportColumn.header mapping) ::
    items.map fun i => exportColumns.map (·.value i))

end Recount.File
