import Recount.Proofs.Sql.Resolving
import Recount.Proofs.Sql.Alphabet

/-!
# Values travel as parameters

A compiled query binds the values of its filters in their order. Its placeholders are those of its
parameters, from the first to the last, and its text says nothing of the values.
-/

/-! ## Statements without their operands

The text of a statement says as much as the statement without its operands. Filters that differ in
their values only, scalar against scalar and list against list, are resolved to conditions that are
the same without their operands, or are refused for the same reason. -/

namespace Recount

open Sql

/-- Filters that differ in their values only: scalars, lists of equally many scalars, or values that
are not looked at. -/
structure Filter.Alike (f g : Filter) : Prop where
  column : g.column = f.column
  operator : g.operator = f.operator
  operand : g.operand = f.operand ∨ (f.operator = .isNull ∨ f.operator = .isNotNull) ∨
    (isScalar f.operand = true ∧ isScalar g.operand = true) ∨
    ∃ vs ws, f.operand = .arr vs ∧ g.operand = .arr ws ∧ vs.length = ws.length ∧
      (∀ v ∈ vs, isScalar v = true) ∧ ∀ w ∈ ws, isScalar w = true

namespace Sql

open List (Forall₂)

/-- A test without its operands; of a list, the length is kept. -/
def Test.erase : Test → Test
  | .null operator => .null operator
  | .compare operator _ => .compare operator .null
  | .among operands => .among (operands.map fun _ => .null)

/-- A condition without its operands. -/
def Condition.erase (c : Condition) : Condition := { c with test := c.test.erase }

/-- A statement without its operands. -/
def Select.erase (s : Select) : Select := { s with conditions := s.conditions.map Condition.erase }

variable {d : Dialect} {a : Aliases} {catalog : Option Catalog} {f g : Filter}

section Text

theorem Condition.text_erase {c : Condition} {first : Nat} :
    c.erase.text d first = c.text d first := by
  obtain ⟨reference, test⟩ := c
  cases test with
  | null | compare => rfl
  | among operands => simp [Condition.erase, Test.erase, Condition.text]

theorem Condition.length_operands_erase {c : Condition} :
    c.erase.operands.length = c.operands.length := by
  obtain ⟨reference, test⟩ := c
  cases test with
  | null | compare => rfl
  | among operands => exact List.length_map _

theorem conditionTexts_erase {cs : List Condition} {first : Nat} :
    conditionTexts d first (cs.map Condition.erase) = conditionTexts d first cs := by
  induction cs generalizing first with
  | nil => rfl
  | cons c cs ih =>
    rw [List.map_cons, conditionTexts, conditionTexts, Condition.text_erase,
      Condition.length_operands_erase, ih]

/-- The text of a statement does not depend on its operands. -/
theorem Select.text_erase {s : Select} : s.erase.text d = s.text d := by
  have hempty : s.erase.conditions.isEmpty = s.conditions.isEmpty := List.isEmpty_map
  have htexts : conditionTexts d 1 s.erase.conditions = conditionTexts d 1 s.conditions :=
    conditionTexts_erase
  unfold Select.text
  rw [hempty, htexts]
  rfl

end Text

section Resolve

theorem checkScalar_of_isScalar {column : String} {v : Json} (h : isScalar v = true) :
    checkScalar column v = .ok () := if_pos h

theorem forM_checkScalar {column : String} {vs : List Json} (h : ∀ v ∈ vs, isScalar v = true) :
    vs.forM (checkScalar column) = .ok () :=
  forM_eq_ok_iff.mpr fun v hv => checkScalar_of_isScalar (h v hv)

/-- Filters that are alike are resolved alike. -/
theorem resolveFilter_erase (h : f.Alike g) :
    (resolveFilter a g).map Condition.erase = (resolveFilter a f).map Condition.erase := by
  obtain ⟨_, _, v⟩ := f
  obtain ⟨column, operator, w⟩ := g
  obtain ⟨rfl, rfl, hoperand⟩ := h
  refine map_bind_congr fun _ => ?_
  dsimp only at hoperand ⊢
  obtain rfl | hnull | ⟨hv, hw⟩ | ⟨vs, ws, rfl, rfl, hlength, hvs, hws⟩ := hoperand
  · rfl
  · rcases hnull with rfl | rfl <;> rfl
  · have hchecked : checkScalar column v = .ok () ∧ checkScalar column w = .ok () :=
      ⟨checkScalar_of_isScalar hv, checkScalar_of_isScalar hw⟩
    cases operator with
    | isNull | isNotNull => rfl
    | oneOf => cases v <;> cases hv <;> cases w <;> cases hw <;> rfl
    | eq | ne | gt | gte | lt | lte | like =>
      dsimp only
      rw [hchecked.1, hchecked.2]
      rfl
  · cases operator with
    | isNull | isNotNull => rfl
    | oneOf =>
      cases vs with
      | nil =>
        cases ws with
        | nil => rfl
        | cons w ws => cases hlength
      | cons v vs =>
        cases ws with
        | nil => cases hlength
        | cons w ws =>
          dsimp only
          rw [forM_checkScalar hvs, forM_checkScalar hws]
          have hblank : (w :: ws).map (fun _ => Json.null) = (v :: vs).map fun _ => Json.null := by
            rw [List.map_const', List.map_const', hlength]
          exact congrArg (fun blanks => Except.ok (Condition.mk (a.rewrite column) (.among blanks)))
            hblank
    | eq | ne | gt | gte | lt | lte | like => rfl

theorem mapM_resolveFilter_erase {fs gs : List Filter} (h : Forall₂ Filter.Alike fs gs) :
    (gs.mapM (resolveFilter a)).map (List.map Condition.erase) =
      (fs.mapM (resolveFilter a)).map (List.map Condition.erase) := by
  have hcons : ∀ (x : Except Defect Condition) (xs : Except Defect (List Condition)),
      (x >>= fun c => xs >>= fun cs => pure (c :: cs)).map (List.map Condition.erase) =
        (x.map Condition.erase >>= fun c =>
          xs.map (List.map Condition.erase) >>= fun cs => pure (c :: cs)) := by
    intro x xs
    cases x <;> cases xs <;> rfl
  induction h with
  | nil => rfl
  | cons hfg _ ih => rw [List.mapM_cons, List.mapM_cons, hcons, hcons, resolveFilter_erase hfg, ih]

/-- Specifications whose filters are alike are resolved alike. -/
theorem resolve_erase {spec : QuerySpec} {filters : List Filter}
    (h : Forall₂ Filter.Alike spec.filters filters) :
    (resolve catalog { spec with filters := filters }).map Select.erase =
      (resolve catalog spec).map Select.erase := by
  -- Only the last step looks at the filters.
  refine map_bind_congr fun _ => map_bind_congr fun _ => map_bind_congr fun _ =>
    map_bind_congr fun a => map_bind_congr fun columns => map_bind_congr fun joins => ?_
  have hlast : ∀ x : Except Defect (List Condition),
      (x >>= fun conditions => .ok
        (Select.mk spec.mainTable a.main columns joins conditions spec.limit)).map Select.erase =
      (x.map (List.map Condition.erase)).map fun conditions =>
        Select.mk spec.mainTable a.main columns joins conditions spec.limit := by
    intro x
    cases x <;> rfl
  rw [hlast, hlast, mapM_resolveFilter_erase h]

end Resolve

end Sql
end Recount

/-! ## Placeholders of parameters -/

namespace Recount.Sql

open Json
open List (Forall₂)

section Named

variable {k : Nat} {value : Json}

/-- The members of an object with two keys. -/
theorem get?_ofMembers {first second : String} {v w : Json} (hne : first ≠ second) :
    (ofMembers [(first, v), (second, w)]).get? first = some v ∧
      (ofMembers [(first, v), (second, w)]).get? second = some w := by
  by_cases hlt : second < first
  · simp [ofMembers, insertMember, get?, member?, hlt, hne.symm]
  · simp [ofMembers, insertMember, get?, member?, hlt, hne, hne.symm]

/-- A parameter in the JSON form of a query. -/
def namedParameter (k : Nat) (value : Json) : Json :=
  ofMembers [("name", .str ("p" ++ toString (k + 1))), ("value", value)]

theorem namedParameter_members :
    (namedParameter k value).get? "name" = some (.str ("p" ++ toString (k + 1))) ∧
      (namedParameter k value).get? "value" = some value :=
  get?_ofMembers (by decide)

/-- The parameters of a query are named by their numbers. -/
theorem parameters_toJson (q : Query) :
    q.toJson.get? "parameters" = some (.arr (q.parameters.mapIdx namedParameter)) := by
  rw [List.mapIdx_eq_zipIdx_map]
  exact (get?_ofMembers (by decide)).2

end Named

/-- A resolved specification binds the values of its filters in order. -/
theorem parameters_of_resolve {catalog : Option Catalog} {spec : QuerySpec} {s : Select}
    (h : resolve catalog spec = .ok s) : s.parameters = spec.filters.flatMap Filter.operands := by
  obtain ⟨a, -, -, -, -, -, hconditions, -, -⟩ := resolve_parts h
  have hoperands : Forall₂ (fun (f : Filter) (c : Condition) => f.operands = c.operands)
      spec.filters s.conditions :=
    hconditions.imp fun f c hc => (resolveFilter_eq_ok hc).2.1.symm
  rw [Select.parameters, List.flatMap_def, List.flatMap_def]
  refine congrArg List.flatten ?_
  rw [← List.forall₂_eq_eq_eq, List.forall₂_map_left_iff, List.forall₂_map_right_iff]
  exact hoperands.flip.imp fun c f hc => hc.symm

/-- A compiled query binds the values of its filters in order, as parameters that are named by their
numbers, and its placeholders are those of its parameters from left to right. Filters that differ in
their values only lead to the same text, or are refused for the same reason. -/
theorem values_bound (c : Compiler) (spec : QuerySpec) :
    (∀ q, c.compile spec = .ok q →
      placeholdersIn c.dialect q.sql.toList =
        (List.range q.parameters.length).map (fun k => c.dialect.placeholder (k + 1)) ∧
      q.parameters = spec.filters.flatMap Filter.operands ∧
      ∃ written : List Json, q.toJson.get? "parameters" = some (.arr written) ∧
        written.length = q.parameters.length ∧
        ∀ k value, q.parameters[k]? = some value →
          ∃ parameter : Json, written[k]? = some parameter ∧
            parameter.get? "name" = some (.str ("p" ++ toString (k + 1))) ∧
            parameter.get? "value" = some value) ∧
    ∀ filters, Forall₂ Filter.Alike spec.filters filters →
      (c.compile { spec with filters := filters }).map (·.sql) = (c.compile spec).map (·.sql) := by
  constructor
  · intro q h
    obtain ⟨s, hresolved, rfl⟩ := compile_eq_ok h
    have hfound : placeholdersIn c.dialect (s.text c.dialect).toList =
        placeholders c.dialect 1 s.parameters.length := placeholdersIn_text hresolved
    refine ⟨?_, parameters_of_resolve hresolved, _, parameters_toJson _, List.length_mapIdx, ?_⟩
    · simp only [hfound, placeholders, Nat.add_comm 1]
    · intro k value hvalue
      refine ⟨namedParameter k value, ?_, namedParameter_members⟩
      rw [List.getElem?_mapIdx, hvalue]
      rfl
  · intro filters hfilters
    -- The text is written from what is left of the statement without its operands.
    have htext : ∀ spec : QuerySpec, (c.compile spec).map (·.sql) =
        ((resolve c.catalog spec).map Select.erase).map (Select.text c.dialect) := by
      intro spec
      unfold Compiler.compile
      cases resolve c.catalog spec with
      | error defect => rfl
      | ok s => exact congrArg Except.ok Select.text_erase.symm
    rw [htext, htext, resolve_erase hfilters]

/-- Items of a warehouse in two groups. -/
def itemsOfWarehouse (warehouse first second : Json) : QuerySpec where
  mainTable := "OITM"
  joins := []
  columns := [⟨"OITM.ItemCode", some "itemCode"⟩]
  filters := [⟨"OITM.Group", .oneOf, .arr [first, second]⟩, ⟨"OITM.Closed", .isNull, .null⟩,
    ⟨"OITM.WhsCode", .eq, warehouse⟩]
  limit := some 7

/-- Values that look like placeholders or like SQL are bound as numbers are. -/
theorem values_bound_itemsOfWarehouse :
    ∃ q, Compiler.compile ⟨.msSql, none⟩
        (itemsOfWarehouse (.str "@p1") (.str "' OR 1=1 --") (.bool true)) = .ok q ∧
      q.sql = "SELECT TOP 7 o.ItemCode AS [itemCode] FROM OITM o " ++
        "WHERE o.Group IN (@p1, @p2) AND o.Closed IS NULL AND o.WhsCode = @p3" ∧
      q.parameters = [.str "' OR 1=1 --", .bool true, .str "@p1"] ∧
      placeholdersIn .msSql q.sql.toList = ["@p1", "@p2", "@p3"] ∧
      (Compiler.compile ⟨.msSql, none⟩ (itemsOfWarehouse (int 1) (int 2) (int 3))).map (·.sql) =
        .ok q.sql := by
  have hsql : (Compiler.compile ⟨.msSql, none⟩
      (itemsOfWarehouse (.str "@p1") (.str "' OR 1=1 --") (.bool true))).map (·.sql) =
      .ok ("SELECT TOP 7 o.ItemCode AS [itemCode] FROM OITM o " ++
        "WHERE o.Group IN (@p1, @p2) AND o.Closed IS NULL AND o.WhsCode = @p3") := by
    decide
  obtain ⟨hbound, hsame⟩ := values_bound ⟨.msSql, none⟩
    (itemsOfWarehouse (.str "@p1") (.str "' OR 1=1 --") (.bool true))
  have halike : Forall₂ Filter.Alike
      (itemsOfWarehouse (.str "@p1") (.str "' OR 1=1 --") (.bool true)).filters
      (itemsOfWarehouse (int 1) (int 2) (int 3)).filters := by
    refine .cons ⟨rfl, rfl, .inr (.inr (.inr ⟨_, _, rfl, rfl, rfl, ?_, ?_⟩))⟩
      (.cons ⟨rfl, rfl, .inl rfl⟩ (.cons ⟨rfl, rfl, .inr (.inr (.inl ⟨rfl, rfl⟩))⟩ .nil))
    · simp [isScalar]
    · simp [int, isScalar]
  cases h : Compiler.compile ⟨.msSql, none⟩
      (itemsOfWarehouse (.str "@p1") (.str "' OR 1=1 --") (.bool true)) with
  | error defect =>
    rw [h] at hsql
    cases hsql
  | ok q =>
    obtain ⟨hfound, hparameters, -⟩ := hbound q h
    rw [h] at hsql hsame
    refine ⟨q, rfl, Except.ok.inj hsql, hparameters, ?_, hsame _ halike⟩
    rw [hfound, hparameters]
    decide

end Recount.Sql
