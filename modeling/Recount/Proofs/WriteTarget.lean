import Recount.Proofs.Sql.Columns
import Recount.Proofs.WriteBack.Sending

/-!
# Where quantities are written

By default quantities are written to the main table of the active mapping of stock, to the column
that the source of the quantity ends with. This is the column that is read for the quantity, but of
a joined table it may be read as well: then the main table is written all the same.
-/

namespace Recount.WriteBack

open Concurrent (Scene Ending)
open Sql (Compiler Select)

variable {m : Mapping} {limit : Option Nat} {s : Select} {name source : String}

/-- What a query answers under the name of a field is read in a column, and just where the source of
the field leads to the main table in this column of the main table. -/
structure ReadAs (s : Select) (name source column : String) : Prop where
  output : ∃ o, s.output? name = some o ∧ bareColumn o.reference = column
  main_iff : s.answered? name = some (s.table, column) ↔ s.ReadsMain source

theorem readAs_of_sourceFor? {catalog : Option Sql.Catalog}
    (h : Sql.resolve catalog (.ofMapping m limit) = .ok s) (hsource : m.sourceFor? name = some source)
    (hstar : bareColumn source ≠ "*") : ReadAs s name source (bareColumn source) := by
  obtain ⟨hcheck, a, o, hbuild, houtput, hreference⟩ := Sql.output?_of_sourceFor? h hsource hstar
  obtain ⟨a', hbuild', htables, -⟩ := Sql.resolve_eq_ok h
  cases hbuild.symm.trans hbuild'
  replace htables : s.tables = Sql.Aliases.tables m.mainTable m.joins a := htables
  obtain ⟨hlength, hentries, haliases, hident⟩ := Sql.Aliases.build_eq_ok hbuild
  have hassigned : s.tables.map Prod.snd = a.main :: a.joins := by
    rw [htables, Sql.Aliases.tables_map_snd hlength]
  rw [← hassigned, List.map_map] at haliases
  have hwritten := Sql.WrittenAs.columnOf? (a := a)
    (fun _ => Sql.Aliases.resolve?_eq (htables ▸ hentries)) haliases
    (fun t ht => hident t.2 (hassigned ▸ List.mem_map_of_mem ht)) ⟨hreference, true, hcheck⟩
  refine ⟨⟨o, houtput, hwritten.1⟩, ?_⟩
  rw [Select.answered?, houtput]
  exact hwritten.2

/-- What comes of a request that gives no target, by the active mapping of stock and its query. -/
inductive Targeted (m : Mapping) (s : Select) (connection : Id) : Ending (Target × Id) → Prop
  /-- A field is missing, or a star is its source. -/
  | refused {e : Error} (hwhy : ∀ quantity key, m.sourceFor? "systemQty" = some quantity →
      m.sourceFor? "itemCode" = some key → bareColumn quantity = "*" ∨ bareColumn key = "*") :
      Targeted m s connection (.failure e)
  | derived {quantity key : String} (hquantity : m.sourceFor? "systemQty" = some quantity)
      (hkey : m.sourceFor? "itemCode" = some key) (hstar : bareColumn quantity ≠ "*")
      (hstar' : bareColumn key ≠ "*")
      (hquantityRead : ReadAs s "systemQty" quantity (bareColumn quantity))
      (hkeyRead : ReadAs s "itemCode" key (bareColumn key)) :
      Targeted m s connection
        (.success (⟨s.table, bareColumn quantity, bareColumn key⟩, connection))

/-- The names of a target are well formed, as those of a query that is compiled are, unless one of
them is a star. -/
theorem check_targetOfMapping {catalog : Option Sql.Catalog} {quantity key : String}
    (h : Sql.resolve catalog (.ofMapping m limit) = .ok s)
    (hquantity : m.sourceFor? "systemQty" = some quantity)
    (hkey : m.sourceFor? "itemCode" = some key) :
    (⟨m.mainTable, bareColumn quantity, bareColumn key⟩ : Target).check = .ok () ↔
      bareColumn quantity ≠ "*" ∧ bareColumn key ≠ "*" := by
  obtain ⟨a, htable, -⟩ := Sql.resolve_parts h
  obtain ⟨_, hname, -⟩ := bind_eq_ok_iff.mp htable
  have hidentifier : ∀ {name source}, m.sourceFor? name = some source →
      (Sql.checkAlias (bareColumn source) = .ok () ↔ bareColumn source ≠ "*") := by
    intro name source hsource
    rw [Sql.Aliases.checkAlias_eq_ok_iff]
    constructor
    · intro hident hstar
      rw [hstar] at hident
      cases hident
    · intro hstar
      obtain ⟨hcheck, -⟩ := Sql.output?_of_sourceFor? h hsource hstar
      exact Sql.isIdentifier_bareColumn hcheck hstar
  have hname : Sql.checkTableReference m.mainTable = .ok () := hname
  rw [← hidentifier hquantity, ← hidentifier hkey, Target.check, hname]
  constructor
  · intro hcheck
    obtain ⟨_, -, hcheck⟩ := bind_eq_ok_iff.mp hcheck
    obtain ⟨_, hfirst, hsecond⟩ := bind_eq_ok_iff.mp hcheck
    exact ⟨hfirst, hsecond⟩
  · rintro ⟨hfirst, hsecond⟩
    exact bind_eq_ok_iff.mpr ⟨(), rfl, bind_eq_ok_iff.mpr ⟨(), hfirst, hsecond⟩⟩

/-- By default quantities are written to the main table of the active mapping of stock, and to the
columns that are read for the quantity and the code of an item, unless one of them is missing or a
star. That these columns are read in the main table is not asked for. -/
theorem default_target_columns {c : Compiler} {q : Sql.Query} {σ : Scene} {tenant : Id}
    {default : Option Id} {r : SendRequest} (hactive : σ.store.activeMapping? tenant .stock = some m)
    (hraw : ∀ raw, m.rawQuery = some raw → Text.isBlankText raw = true)
    (hcompile : c.compileMapping m limit = .ok q) (hdefault : r.target = none) :
    ∃ s, Sql.resolve c.catalog (.ofMapping m limit) = .ok s ∧
      q = ⟨s.text c.dialect, s.parameters⟩ ∧ s.table = m.mainTable ∧
      Action.Leads (fun ending _ => Targeted m s (r.connection.getD m.connection) ending)
        (resolveTarget tenant default r) σ := by
  rw [Sql.compileMapping_eq_compile hraw] at hcompile
  obtain ⟨s, hresolve, rfl⟩ := Sql.compile_eq_ok hcompile
  obtain ⟨a, -, -, -, -, -, -, htable, -⟩ := Sql.resolve_parts hresolve
  replace htable : s.table = m.mainTable := htable
  refine ⟨s, hresolve, rfl, htable, ?_⟩
  refine leads_readMapping (fun _ => rfl) fun σ' _ => ?_
  rw [hactive, hdefault, chooseTarget, targetOfMapping]
  cases hquantity : m.sourceFor? "systemQty" with
  | none => exact .refused fun _ _ hsome => by cases hquantity.symm.trans hsome
  | some quantity =>
    cases hkey : m.sourceFor? "itemCode" with
    | none => exact .refused fun _ _ _ hsome => by cases hkey.symm.trans hsome
    | some key =>
      have hcheck := check_targetOfMapping hresolve hquantity hkey
      refine Action.leads_check_bind.mpr (Action.leads_bind.mpr ?_)
      cases hchecked : (⟨m.mainTable, bareColumn quantity, bareColumn key⟩ : Target).check with
      | error defect =>
        refine .refused fun quantity' key' hsome hsome' => ?_
        cases hquantity.symm.trans hsome
        cases hkey.symm.trans hsome'
        by_contra hstars
        cases hchecked.symm.trans (hcheck.mpr (not_or.mp hstars))
      | ok u =>
        obtain ⟨hstar, hstar'⟩ := hcheck.mp hchecked
        have hconnection : (r.connection.or (some m.connection)).or default =
            some (r.connection.getD m.connection) := by
          cases r.connection <;> rfl
        rw [Option.map_some, hconnection, ← htable]
        exact .derived hquantity hkey hstar hstar' (readAs_of_sourceFor? hresolve hquantity hstar)
          (readAs_of_sourceFor? hresolve hkey hstar')

/-- Stock of warehouses is joined to items. -/
def stockOfItems (quantity key : String) : Mapping where
  id := .ofNat 1
  tenant := .ofNat 1
  connection := .ofNat 2
  dataset := .stock
  name := "stock"
  mainTable := "OITM"
  joins := [⟨"OITW", none, .inner, [⟨"OITM.ItemCode", "OITW.ItemCode"⟩]⟩]
  fields := [⟨key, "itemCode", .string, none⟩, ⟨quantity, "systemQty", .decimal, none⟩]
  filters := []
  rawQuery := none
  version := 1
  isActive := true
  createdBy := .ofNat 3
  createdAt := ⟨0, 0⟩
  updatedAt := ⟨0, 0⟩

/-- A request that leaves the target to the active mapping. -/
def defaultRequest : SendRequest := ⟨.replace, none, none⟩

/-- The store of a tenant with one mapping. -/
def mappedOnly (m : Mapping) : Scene := ⟨{ mappings := [m] }, [], []⟩

theorem default_target_columns_main :
    ∃ s, Sql.resolve none (.ofMapping (stockOfItems "oitm.OnHand" "ItemCode") none) = .ok s ∧
      s.answered? "systemQty" = some ("OITM", "OnHand") ∧
      Action.Leads (fun ending _ => ending = .success (⟨"OITM", "OnHand", "ItemCode"⟩, .ofNat 2) ∧
          (s.answered? "systemQty" = some (s.table, "OnHand") ↔ s.ReadsMain "oitm.OnHand"))
        (resolveTarget (.ofNat 1) none defaultRequest)
        (mappedOnly (stockOfItems "oitm.OnHand" "ItemCode")) := by
  have hcompile : (Compiler.compileMapping ⟨.postgres, none⟩
      (stockOfItems "oitm.OnHand" "ItemCode") none).isOk = true := by decide
  have hanswered : (Sql.resolve none (.ofMapping (stockOfItems "oitm.OnHand" "ItemCode") none)).map
      (·.answered? "systemQty") = .ok (some ("OITM", "OnHand")) := by decide
  obtain ⟨q, h⟩ := isOk_iff.mp hcompile
  obtain ⟨s, hresolve, -, htable, hleads⟩ := @default_target_columns _ _ _ q
    (mappedOnly (stockOfItems "oitm.OnHand" "ItemCode")) (.ofNat 1) none defaultRequest rfl
    (fun raw hraw => by cases hraw) h rfl
  rw [hresolve] at hanswered
  refine ⟨s, hresolve, Except.ok.inj hanswered, hleads.mono ?_⟩
  rintro ending σ' (hwhy | ⟨hquantity, hkey, -, -, hread, -⟩)
  · exact absurd (hwhy "oitm.OnHand" "ItemCode" rfl rfl) (by decide)
  · cases hquantity
    cases hkey
    have hcolumn : bareColumn "oitm.OnHand" = "OnHand" := by decide
    refine ⟨?_, hcolumn ▸ hread.main_iff⟩
    rw [htable]
    rfl

/-- The column that is read for the quantity is not always the one that is written. -/
theorem not_default_target_columns :
    ¬ ∀ (c : Compiler) (m : Mapping) (limit : Option Nat) (q : Sql.Query) (σ : Scene) (tenant : Id)
        (default : Option Id) (r : SendRequest),
      σ.store.activeMapping? tenant .stock = some m →
      (∀ raw, m.rawQuery = some raw → Text.isBlankText raw = true) →
      c.compileMapping m limit = .ok q → r.target = none →
      ∃ s, Sql.resolve c.catalog (.ofMapping m limit) = .ok s ∧
        q = ⟨s.text c.dialect, s.parameters⟩ ∧
        Action.Leads (fun ending _ => ∀ t connection, ending = .success (t, connection) →
            s.answered? "systemQty" = some (t.table, t.quantityColumn) ∧
              s.answered? "itemCode" = some (t.table, t.keyColumn))
          (resolveTarget tenant default r) σ := by
  intro hall
  have hcompile : (Compiler.compileMapping ⟨.postgres, none⟩
      (stockOfItems "OITW.OnHand" "OITM.ItemCode") none).isOk = true := by decide
  have hanswered : (Sql.resolve none
      (.ofMapping (stockOfItems "OITW.OnHand" "OITM.ItemCode") none)).map
        (·.answered? "systemQty") = .ok (some ("OITW", "OnHand")) := by decide
  obtain ⟨q, h⟩ := isOk_iff.mp hcompile
  obtain ⟨s, hresolve, -, hleads⟩ := hall _ _ _ q
    (mappedOnly (stockOfItems "OITW.OnHand" "OITM.ItemCode")) (.ofNat 1) none defaultRequest rfl
    (fun raw hraw => by cases hraw) h rfl
  rw [hresolve] at hanswered
  have hended := Action.leads_mappings.mp (Action.leads_bind.mp hleads) ⟨.ofNat, fun _ => ⟨0, 0⟩⟩
    (by decide)
  have hread := (hended ⟨"OITM", "OnHand", "ItemCode"⟩ (.ofNat 2) rfl).1
  exact absurd ((Except.ok.inj hanswered).symm.trans hread) (by decide)

end Recount.WriteBack
