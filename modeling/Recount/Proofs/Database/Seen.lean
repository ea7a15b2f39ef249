import Recount.Count.Transition
import Recount.Database.Tables
import Recount.Proofs.Count.Item

/-!
# Records as a database shows them

Of a record a database shows the quantities without the scale and the sign of a zero, and the points
in time in some view of them: as it keeps them, or with still less told apart. What is done to an item
that is settled does not depend on more than that.
-/

namespace Recount

open Database (storedQuantity storedTime)

variable {view : Time → Time}

/-- A mark as it is shown. -/
def Mark.seen (view : Time → Time) (m : Mark) : Mark := { m with time := m.time.map view }

/-- A count as it is shown. -/
def Count.seen (view : Time → Time) (c : Count) : Count :=
  { c with
    createdAt := view c.createdAt
    started := c.started.seen view
    completed := c.completed.seen view
    approved := c.approved.seen view
    closed := c.closed.seen view
    cancelled := c.cancelled.seen view
    updatedAt := view c.updatedAt }

/-- An item as it is shown. -/
def Item.seen (view : Time → Time) (i : Item) : Item :=
  { i with
    packQty := i.packQty.map storedQuantity
    systemQty := storedQuantity i.systemQty
    countedQty := i.countedQty.map storedQuantity
    previousQty := i.previousQty.map storedQuantity
    difference := i.difference.map storedQuantity
    variancePercent := i.variancePercent.map storedQuantity
    cost := i.cost.map storedQuantity
    price := i.price.map storedQuantity
    countedAt := i.countedAt.map view
    createdAt := view i.createdAt
    updatedAt := view i.updatedAt }

/-- A report as it is shown. -/
def Report.seen (view : Time → Time) (r : Report) : Report :=
  { r with
    systemQty := storedQuantity r.systemQty
    countedQty := storedQuantity r.countedQty
    difference := storedQuantity r.difference
    variancePercent := storedQuantity r.variancePercent
    resolvedAt := r.resolvedAt.map view
    createdAt := view r.createdAt
    updatedAt := view r.updatedAt }

namespace Database

/-- A parameter as it is shown. -/
def Parameter.seen (view : Time → Time) : Parameter → Parameter
  | time t => time (view t)
  | quantity d => quantity (storedQuantity d)
  | other => other

section Stored

variable {d e : Decimal}

theorem isZero_storedQuantity (d : Decimal) : (storedQuantity d).isZero = d.isZero := by
  unfold storedQuantity
  cases h : d.isZero with
  | true => rfl
  | false => rw [if_neg (by simp), h]

theorem storedTime_storedTime (t : Time) : storedTime (storedTime t) = storedTime t := by
  simp only [storedTime, Time.mk.injEq, true_and]
  omega

theorem storedQuantity_storedQuantity (d : Decimal) :
    storedQuantity (storedQuantity d) = storedQuantity d := by
  rw [storedQuantity, isZero_storedQuantity, ite_eq_right_iff]
  intro hzero
  rw [storedQuantity, if_pos hzero]

theorem isZero_congr (h : storedQuantity d = storedQuantity e) : d.isZero = e.isZero := by
  rw [← isZero_storedQuantity d, h, isZero_storedQuantity]

theorem storedQuantity_eq_iff :
    storedQuantity d = storedQuantity e ↔ d = e ∨ d.isZero = true ∧ e.isZero = true := by
  constructor
  · intro h
    have hzero := isZero_congr h
    cases hd : d.isZero with
    | true => exact .inr ⟨rfl, hzero ▸ hd⟩
    | false =>
      rw [storedQuantity, storedQuantity, ← hzero, hd] at h
      exact .inl h
  · rintro (rfl | ⟨hd, he⟩)
    · rfl
    · rw [storedQuantity, storedQuantity, if_pos hd, if_pos he]

theorem storedQuantity_neg (h : storedQuantity d = storedQuantity e) :
    storedQuantity d.neg = storedQuantity e.neg := by
  rcases storedQuantity_eq_iff.mp h with rfl | ⟨hd, he⟩
  · rfl
  · rw [Decimal.neg, Decimal.neg, if_pos hd, if_pos he, h]

end Stored

section Parameters

variable {α β ρ : Type}

/-- The columns with the parameters that a record fills them with. -/
def Columns.named (c : Columns ρ α) (r : ρ) : List (String × Parameter) := c.names.zip (c.parameters r)

theorem names_map {c : Columns ρ α} {f : α → β} : (f <$> c).names = c.names := rfl

theorem names_seq {f : Columns ρ (α → β)} {a : Columns ρ α} :
    (f <*> a).names = f.names ++ a.names := rfl

theorem names_column {name : String} {type : ColumnType α} {get : ρ → α} :
    (Columns.column name type get).names = [name] := rfl

theorem parameters_map {c : Columns ρ α} {f : α → β} {r : ρ} :
    (f <$> c).parameters r = c.parameters r := rfl

theorem parameters_seq {f : Columns ρ (α → β)} {a : Columns ρ α} {r : ρ} :
    (f <*> a).parameters r = f.parameters r ++ a.parameters r := rfl

theorem parameters_column {name : String} {type : ColumnType α} {get : ρ → α} {r : ρ} :
    (Columns.column name type get).parameters r = [type.write (get r)] := rfl

namespace ColumnType

variable {o : Option α}

theorem seen_id {x : Id} : (id.write x).seen view = id.write x := rfl

theorem seen_text {s : String} : (text.write s).seen view = text.write s := rfl

theorem seen_bool {b : Bool} : (bool.write b).seen view = bool.write b := rfl

theorem seen_int32 {n : Int} : (int32.write n).seen view = int32.write n := rfl

theorem seen_int64 {n : Int} : (int64.write n).seen view = int64.write n := rfl

theorem seen_named {naming : Naming α} {parse : String → Except UnknownName α} {a : α} :
    ((named naming parse).write a).seen view = (named naming parse).write a := rfl

theorem seen_time {t : Time} : (time.write t).seen view = time.write (view t) := rfl

theorem seen_quantity {d : Decimal} :
    (quantity.write d).seen view = quantity.write (storedQuantity d) := rfl

theorem seen_optional_id {o : Option Id} :
    ((optional id).write o).seen view = (optional id).write o := by
  cases o <;> rfl

theorem seen_optional_text {o : Option String} :
    ((optional text).write o).seen view = (optional text).write o := by
  cases o <;> rfl

theorem seen_optional_time {o : Option Time} :
    ((optional time).write o).seen view = (optional time).write (o.map view) := by
  cases o <;> rfl

theorem seen_optional_quantity {o : Option Decimal} :
    ((optional quantity).write o).seen view = (optional quantity).write (o.map storedQuantity) := by
  cases o <;> rfl

end ColumnType

open ColumnType

/-- What is shown of a count fills its columns with its parameters as they are shown. -/
theorem parameters_count_seen {c : Count} :
    countColumns.parameters (c.seen view) = (countColumns.parameters c).map (Parameter.seen view) := by
  delta countColumns markColumns
  simp only [parameters_map, parameters_seq, parameters_column, List.map_append, List.map_cons,
    List.map_nil, seen_id, seen_int32, seen_int64, seen_named, seen_time, seen_optional_id,
    seen_optional_text, seen_optional_time]
  rfl

theorem parameters_item_seen {i : Item} :
    itemColumns.parameters (i.seen view) = (itemColumns.parameters i).map (Parameter.seen view) := by
  delta itemColumns
  simp only [parameters_map, parameters_seq, parameters_column, List.map_append, List.map_cons,
    List.map_nil, seen_id, seen_text, seen_bool, seen_int32, seen_named, seen_time, seen_quantity,
    seen_optional_id, seen_optional_text, seen_optional_time, seen_optional_quantity]
  rfl

theorem parameters_report_seen {r : Report} :
    reportColumns.parameters (r.seen view) =
      (reportColumns.parameters r).map (Parameter.seen view) := by
  delta reportColumns
  simp only [parameters_map, parameters_seq, parameters_column, List.map_append, List.map_cons,
    List.map_nil, seen_id, seen_text, seen_int32, seen_named, seen_time, seen_quantity,
    seen_optional_id, seen_optional_text, seen_optional_time]
  rfl

end Parameters

end Database

section Settling

open Database

variable {i j : Item} {c d : Count} {r q : Report} {counted counted' system system' : Decimal}

/-- A view that does not look below what a database keeps. -/
def Coarse (view : Time → Time) : Prop := ∀ t, view (storedTime t) = view t

theorem Coarse.map_storedTime (hview : Coarse view) (o : Option Time) :
    (o.map storedTime).map view = o.map view := by
  cases o with
  | none => rfl
  | some t => exact congrArg some (hview t)

/-- What is kept of an item is shown as the item is. -/
theorem Coarse.item (hview : Coarse view) : (i.seen storedTime).seen view = i.seen view := by
  simp only [Item.seen, Option.map_map, Function.comp_def, storedQuantity_storedQuantity, hview _]

theorem Coarse.count (hview : Coarse view) : (c.seen storedTime).seen view = c.seen view := by
  simp only [Count.seen, Mark.seen, hview.map_storedTime, hview _]

/-- The difference depends on what is shown of the quantities. -/
theorem sub_congr (hcounted : storedQuantity counted = storedQuantity counted')
    (hsystem : storedQuantity system = storedQuantity system') :
    (counted.sub system).map storedQuantity = (counted'.sub system').map storedQuantity := by
  have hzero : counted.isZero = counted'.isZero := isZero_congr hcounted
  cases hcase : counted.isZero with
  | true =>
    rw [Decimal.sub, Decimal.sub, if_pos hcase, if_pos (hzero ▸ hcase)]
    exact congrArg Except.ok (storedQuantity_neg hsystem)
  | false =>
    obtain rfl : counted = counted' := by
      rcases storedQuantity_eq_iff.mp hcounted with heq | ⟨hyes, -⟩
      · exact heq
      · cases hcase.symm.trans hyes
    rcases storedQuantity_eq_iff.mp hsystem with rfl | ⟨hnone, hnone'⟩
    · rfl
    · simp only [Decimal.sub, hcase, hnone, hnone', if_true, Bool.false_eq_true, if_false]

/-- So does the difference in percent. -/
theorem variancePercent_congr (hcounted : storedQuantity counted = storedQuantity counted')
    (hsystem : storedQuantity system = storedQuantity system') :
    variancePercent system counted = variancePercent system' counted' := by
  rcases storedQuantity_eq_iff.mp hsystem with rfl | ⟨hnone, hnone'⟩
  · rcases storedQuantity_eq_iff.mp hcounted with rfl | ⟨hzero, hzero'⟩
    · rfl
    · simp only [variancePercent, Decimal.sub, hzero, hzero', if_true]
  · rw [variancePercent, variancePercent, if_pos hnone, if_pos hnone', isZero_congr hcounted]

/-- What an item comes to when it is counted is shown as what is shown of it comes to. -/
theorem withCounted_congr (hitem : i.seen view = j.seen view)
    (hcounted : storedQuantity counted = storedQuantity counted') :
    (i.withCounted counted).map (Item.seen view) = (j.withCounted counted').map (Item.seen view) := by
  have hsystem : storedQuantity i.systemQty = storedQuantity j.systemQty :=
    congrArg Item.systemQty hitem
  unfold Item.withCounted
  refine map_bind_map_congr (sub_congr hcounted hsystem) fun d e hde => ?_
  rw [variancePercent_congr hcounted hsystem]
  refine map_bind_congr fun percent => ?_
  simp only [Except.map, Except.ok.injEq]
  simp only [Item.seen, Item.mk.injEq] at hitem ⊢
  simp only [hitem, hcounted, hde, isZero_congr hde, Option.map_some, and_self]

theorem judged_congr (h : i.seen view = j.seen view) : i.judged.seen view = j.judged.seen view := by
  have hjudged : ∀ k : Item, k.judged.seen view = (k.seen view).judged := fun _ => rfl
  rw [hjudged, hjudged, h]

/-- So does what it comes to when it is settled. -/
theorem settle_congr {actor : Id} {now now' : Time} (hitem : i.seen view = j.seen view)
    (hnow : view now = view now') :
    (i.settle actor now).map (Item.seen view) = (j.settle actor now').map (Item.seen view) := by
  have hcounted : i.countedQty.map storedQuantity = j.countedQty.map storedQuantity :=
    congrArg Item.countedQty hitem
  have hjudged : ∀ k l : Item, k.seen view = l.seen view →
      (Except.ok k.judged : Except Overflow Item).map (Item.seen view) =
        (Except.ok l.judged : Except Overflow Item).map (Item.seen view) :=
    fun k l hkl => congrArg Except.ok (judged_congr hkl)
  cases hi : i.countedQty with
  | none =>
    have hj : j.countedQty = none := by
      rw [hi] at hcounted
      exact Option.map_eq_none_iff.mp hcounted.symm
    have hunseen : ∀ (k : Item) (time : Time),
        (k.unseen actor time).seen view = (k.seen view).unseen actor (view time) := fun _ _ => rfl
    have hequal : (i.unseen actor now).seen view = (j.unseen actor now').seen view := by
      rw [hunseen, hunseen, hitem, hnow]
    rw [Item.settle_of_uncounted hi, Item.settle_of_uncounted hj]
    exact map_bind_map_congr (withCounted_congr hequal rfl) hjudged
  | some counted =>
    obtain ⟨counted', hj, hequal⟩ : ∃ counted', j.countedQty = some counted' ∧
        storedQuantity counted = storedQuantity counted' := by
      rw [hi, Option.map_some] at hcounted
      obtain ⟨counted', hj, hequal⟩ := Option.map_eq_some_iff.mp hcounted.symm
      exact ⟨counted', hj, hequal.symm⟩
    rw [Item.settle_of_counted hi, Item.settle_of_counted hj]
    exact map_bind_map_congr (withCounted_congr hitem hequal) hjudged

/-- What a report states, whatever its identifier. -/
def Report.statement (view : Time → Time) (r : Report) : Report := { r.seen view with id := .nil }

/-- The report of an item is shown as what is shown of the item is reported. -/
theorem report?_congr {id id' : Id} {now now' : Time} (hitem : i.seen view = j.seen view)
    (hnow : view now = view now') :
    (i.report? id now).map (Option.map (Report.statement view)) =
      (j.report? id' now').map (Option.map (Report.statement view)) := by
  have hvariance : (i.seen view).hasVariance = (j.seen view).hasVariance := congrArg _ hitem
  have hcounted : i.countedQty.map storedQuantity = j.countedQty.map storedQuantity :=
    congrArg Item.countedQty hitem
  have hsystem : storedQuantity i.systemQty = storedQuantity j.systemQty :=
    congrArg Item.systemQty hitem
  change i.hasVariance = j.hasVariance at hvariance
  unfold Item.report?
  rw [hvariance]
  cases hi : i.countedQty with
  | none =>
    rw [hi] at hcounted
    rw [Option.map_eq_none_iff.mp hcounted.symm]
    cases j.hasVariance <;> rfl
  | some counted =>
    rw [hi, Option.map_some] at hcounted
    obtain ⟨counted', hj, hequal⟩ := Option.map_eq_some_iff.mp hcounted.symm
    rw [hj]
    cases j.hasVariance with
    | false => rfl
    | true =>
      refine map_bind_map_congr (sub_congr hequal.symm hsystem) fun d e hde => ?_
      rw [variancePercent_congr hequal.symm hsystem]
      refine map_bind_congr fun percent => ?_
      simp only [Item.seen, Item.mk.injEq] at hitem
      simp only [Except.map, Option.map_some, Report.statement, Report.seen, hitem, hequal, hde, hnow,
        Option.map_none]

/-- What the items of a settlement and its reports state. -/
def shownSettlement (view : Time → Time) (result : List Item × List Report) :
    List Item × List Report :=
  (result.1.map (Item.seen view), result.2.map (Report.statement view))

/-- Items that are shown alike are settled alike, one by one. -/
theorem settleAll_congr {actor : Id} {now now' : Time} {entries entries' : List (Item × Id)}
    (hitems : List.Forall₂ (fun e f => e.1.seen view = f.1.seen view) entries entries')
    (hnow : view now = view now') :
    (Item.settleAll actor now entries).map (shownSettlement view) =
      (Item.settleAll actor now' entries').map (shownSettlement view) := by
  induction hitems with
  | nil => rfl
  | @cons e f entries entries' hef _ ih =>
    unfold Item.settleAll
    refine map_bind_map_congr (settle_congr hef hnow) fun i j hij => ?_
    refine map_bind_map_congr (report?_congr hij hnow) fun r q hrq => ?_
    refine map_bind_map_congr ih fun results results' hresults => ?_
    obtain ⟨hitems, hreports⟩ := Prod.mk.inj hresults
    have hreport : r.toList.map (Report.statement view) = q.toList.map (Report.statement view) := by
      rw [← Option.toList_map, hrq, Option.toList_map]
    refine congrArg Except.ok (Prod.ext ?_ ?_)
    · exact congrArg₂ _ hij hitems
    · simp only [shownSettlement, List.map_append, hreport, hreports]

/-- A settlement of items as a database keeps and orders them comes to what the settlement of the
items comes to. -/
theorem settleAll_kept {actor : Id} {now now' : Time} {entries entries' : List (Item × Id)}
    {kept items : List Item} {reports : List Report} (hkept : kept.Perm (entries.map Prod.fst))
    (hentries : entries'.map Prod.fst = kept.map (Item.seen storedTime))
    (h : Item.settleAll actor now entries = .ok (items, reports)) :
    ∃ items' reports', Item.settleAll actor now' entries' = .ok (items', reports') ∧
      ∀ view, Coarse view → view now = view now' →
        (items'.map (Item.seen view)).Perm (items.map (Item.seen view)) ∧
        (reports'.map (Report.statement view)).Perm (reports.map (Report.statement view)) := by
  -- the entries in the order in which they are kept
  have hfst : List.Forall₂ (fun i entry => i = entry.1) (entries.map Prod.fst) entries := by
    rw [List.forall₂_map_left_iff]
    exact List.forall₂_same.mpr fun _ _ => rfl
  obtain ⟨ordered, hordered, hperm⟩ := List.perm_comp_forall₂ hkept hfst
  have hequal : kept = ordered.map Prod.fst := by
    rw [← List.forall₂_eq_eq_eq, List.forall₂_map_right_iff]
    exact hordered
  obtain ⟨settled, reported, hsettled, hitems, hreports⟩ := Item.settleAll_perm hperm.symm h
  have hshown : ∀ view, Coarse view → view now = view now' →
      (Item.settleAll actor now' entries').map (shownSettlement view) =
        .ok (shownSettlement view (settled, reported)) := by
    intro view hview hnow
    have hentry : entries'.map (fun e => e.1.seen view) = ordered.map fun e => e.1.seen view := by
      calc entries'.map (fun e => e.1.seen view)
          = (entries'.map Prod.fst).map (Item.seen view) := by rw [List.map_map]; rfl
        _ = (ordered.map Prod.fst).map (Item.seen view) := by
          rw [hentries, hequal, List.map_map]
          exact List.map_congr_left fun i _ => hview.item
        _ = ordered.map fun e => e.1.seen view := by rw [List.map_map]; rfl
    rw [← List.forall₂_eq_eq_eq, List.forall₂_map_left_iff, List.forall₂_map_right_iff] at hentry
    rw [settleAll_congr hentry hnow.symm, hsettled]
    rfl
  obtain ⟨⟨items', reports'⟩, hsettled', -⟩ :=
    map_eq_ok_iff.mp (hshown (fun _ => now) (fun _ => rfl) rfl)
  refine ⟨items', reports', hsettled', fun view hview hnow => ?_⟩
  have hresult := hshown view hview hnow
  rw [hsettled'] at hresult
  obtain ⟨hitems', hreports'⟩ := Prod.mk.inj (Except.ok.inj hresult)
  exact ⟨.trans (.of_eq hitems') (hitems.symm.map _), .trans (.of_eq hreports') (hreports.symm.map _)⟩

section Stages

variable {change : StatusChange}

/-- A change is checked by what is shown of the count. -/
theorem check_seen : change.check (c.seen view) = change.check c := rfl

/-- A change is made to what is shown of the count. -/
theorem apply_seen {now : Time} : (change.apply c now).seen view = change.apply (c.seen view) (view now) := by
  unfold StatusChange.apply
  cases change.milestone with
  | none => rfl
  | some milestone => cases milestone <;> rfl

end Stages

end Settling

end Recount
