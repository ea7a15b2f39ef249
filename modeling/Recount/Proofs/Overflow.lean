import Recount.Counting.Review
import Recount.Proofs.Addition
import Recount.Proofs.Counting.Recording
import Recount.Proofs.Loading.Reading
import Recount.Proofs.Percentage
import Recount.Proofs.Reloading
import Recount.Proofs.WriteBack.Sending

/-!
# Where arithmetic overflows

Quantities are not limited when they come in, but sums, differences and ratios of them are. What was
counted is entered with its variance, so whatever looks at it later finds it computed: a count can
always be completed and written back. Merging, recording, loading and summing up compute something
new, and they stop just where that is out of range.
-/

/-! ## Settling and summing up alone

When a count is completed, what was counted has its variance already, and what was not counted
differs by all that the system knows. So a count can always be completed. The differences of a
version are summed up only for its history, which may overflow. -/

namespace Recount

open Concurrent (Scene Ending)

namespace Store

variable {s : Store} {tenant count : Id} {c : Count} {t : Transition} {supply : Supply}

theorem Sound.exists_settled (h : s.Sound) (c : Count) (t : Transition) (supply : Supply) :
    ∃ result, s.settled c t supply = .ok result := by
  unfold settled
  split
  · refine Item.exists_settleAll (fun entry hentry => ?_) t.change.actor (supply.time 0)
    obtain ⟨⟨i, index⟩, hi, rfl⟩ := List.mem_map.mp hentry
    obtain ⟨hmem, -⟩ := mem_itemsOf.mp (List.fst_mem_of_mem_zipIdx hi)
    exact h.consistent i hmem
  · exact ⟨_, rfl⟩

/-- A transition of a sound store is made or refused. -/
theorem Sound.change_ne_overflow (h : s.Sound) {o : Overflow} :
    s.change tenant count t supply ≠ .error (.overflow o) := by
  intro hover
  unfold Store.change at hover
  cases hcheck : s.checkTransition tenant count t with
  | error e =>
    rw [hcheck] at hover
    cases hover
  | ok c =>
    obtain ⟨result, hsettled⟩ := h.exists_settled c t supply
    rw [hcheck] at hover
    change (Halt.ofArithmetic (s.settled c t supply) >>= _) = _ at hover
    rw [hsettled] at hover
    cases hover

end Store

namespace VersionSummary

variable {items : List Item} {reports : List Report} {c : Count}

/-- The differences of the items of a version, in their order. -/
def differences (items : List Item) (version : Int) : List Decimal :=
  (items.filter (·.version = version)).filterMap (·.difference)

theorem mem_insertVersion {version v : Int} {versions : List Int} :
    v ∈ insertVersion version versions ↔ v = version ∨ v ∈ versions := by
  induction versions with
  | nil => rw [insertVersion, List.mem_singleton, or_iff_left List.not_mem_nil]
  | cons w rest ih =>
    unfold insertVersion
    split
    · rw [List.mem_cons]
    · split
      · next heq => simp [heq]
      · rw [List.mem_cons, ih, List.mem_cons]
        tauto

/-- Every version that items have is among the versions. -/
theorem version_mem_versions {total : Int} {i : Item} (hi : i ∈ items) :
    i.version ∈ versions total items := by
  have hfold : ∀ known : List Int, i.version ∈ known ∨ i ∈ items →
      i.version ∈ items.foldl (fun versions i => insertVersion i.version versions) known := by
    clear hi
    induction items with
    | nil => exact fun known h => h.resolve_right List.not_mem_nil
    | cons j items ih =>
      intro known h
      refine ih _ ?_
      rw [mem_insertVersion]
      rcases h with hknown | hi
      · exact .inl (.inr hknown)
      · rcases List.mem_cons.mp hi with rfl | hi
        · exact .inl (.inl rfl)
        · exact .inr hi
  exact hfold _ (.inr hi)

/-- The versions of a count can be summed up just if the differences of each of them can. -/
theorem exists_ofCount_iff : (∃ summaries, ofCount c items reports = .ok summaries) ↔
    ∀ version, SumsInRange .zero (differences items version) := by
  have hitems : ∀ version, (∃ summary, ofItems version (items.filter (·.version = version))
      (reports.countP (·.version = version)) = .ok summary) ↔
        SumsInRange .zero (differences items version) := by
    intro version
    rw [← exists_foldlM_add_iff]
    unfold ofItems
    simp only [map_eq_ok_iff]
    exact ⟨fun ⟨_, total, htotal, _⟩ => ⟨total, htotal⟩,
      fun ⟨total, htotal⟩ => ⟨_, total, htotal, rfl⟩⟩
  unfold ofCount
  simp only [mapM_eq_ok_iff, ← hitems]
  constructor
  · rintro ⟨summaries, hall⟩ version
    by_cases hmem : version ∈ versions c.totalVersions items
    · obtain ⟨summary, -, hsummary⟩ := exists_mem_of_forall₂ hall.flip hmem
      exact ⟨summary, hsummary⟩
    · have hnone : items.filter (·.version = version) = [] :=
        List.filter_eq_nil_iff.mpr fun i hi heq =>
          hmem (of_decide_eq_true heq ▸ version_mem_versions hi)
      rw [hnone]
      exact ⟨_, rfl⟩
  · intro hall
    choose summary hsummary using hall
    exact ⟨(versions c.totalVersions items).map summary,
      List.forall₂_map_right_iff.mpr (List.forall₂_same.mpr fun version _ => hsummary version)⟩

end VersionSummary

namespace Counting

variable {tenant count actor : Id} {σ : Scene} {β : Type} {post : Ending β → Scene → Prop}

/-- The count of a tenant is looked up, or nothing happens. -/
theorem leads_foundCount {f : Count → Action β}
    (hmissing : σ.store.count? tenant count = none → ∀ e σ', Idle σ σ' → post (.failure e) σ')
    (hrest : ∀ c σ', σ.store.count? tenant count = some c → Idle σ σ' →
      Action.Leads post (f c) σ') :
    Action.Leads post (getCount tenant count >>= f) σ := by
  unfold getCount
  refine Action.leads_bind.mpr (leads_reads (fun _ => rfl) fun σ' hidle => ?_)
  cases hcount : σ.store.count? tenant count with
  | none => exact hmissing hcount _ σ' hidle
  | some c => exact hrest c σ' hcount hidle

/-- A transition of a sound store ends in no overflow, with what comes after it. -/
theorem leads_change {t : Transition} {f : Count → Action β} (h : σ.store.Sound)
    (hrefused : ∀ e σ', post (.failure e) σ')
    (hrest : ∀ c σ', Action.Leads post (f c) σ') :
    Action.Leads post (Action.counts (.change tenant count t) >>= f) σ := by
  refine Action.leads_bind.mpr
    ((@Action.leads_counts σ (.change tenant count t) _).mpr fun supply _ => ?_)
  change Action.Answered (.counts (.change tenant count t)) _ _ supply
    (σ.store.change tenant count t supply)
  cases hanswer : σ.store.change tenant count t supply with
  | ok answer => exact hrest _ _
  | error halt =>
    cases halt with
    | refused e => exact hrefused e _
    | overflow o => exact absurd hanswer h.change_ne_overflow

/-- A count can be completed whatever was counted. -/
theorem completeCount_overflowsIff (h : σ.store.Sound) :
    (completeCount tenant count actor).OverflowsIff σ False := by
  have hnot : ∀ {ending : Ending Count}, (∀ o, ending ≠ .overflow o) →
      ((∃ o, ending = .overflow o) ↔ False) := fun hne => iff_false_intro fun ⟨o, ho⟩ => hne o ho
  refine leads_foundCount (fun _ e σ' _ => hnot (by rintro _ ⟨⟩)) fun c σ₁ _ hidle => ?_
  refine leads_change (hidle.store.symm ▸ h) (fun e σ' => hnot (by rintro _ ⟨⟩)) fun c' σ₂ => ?_
  exact leads_reads (fun _ => rfl) fun σ₃ _ => hnot (by rintro _ ⟨⟩)

/-- The history of a count overflows just if the differences of one of its versions cannot be summed
up in the order in which its items are listed. -/
theorem versionHistory_overflowsIff : (versionHistory tenant count).OverflowsIff σ
    ((∃ c, σ.store.count? tenant count = some c) ∧ ∃ version,
      ¬ SumsInRange .zero (VersionSummary.differences (σ.store.listItems count none) version)) := by
  refine leads_foundCount (fun hnone e σ' _ => iff_of_false (by rintro ⟨_, ⟨⟩⟩) ?_)
    fun c σ₁ hc h₁ => ?_
  · rintro ⟨⟨c, hc⟩, -⟩
    cases hnone.symm.trans hc
  refine leads_reads (fun _ => rfl) fun σ₂ h₂ => leads_reads (fun _ => rfl) fun σ₃ _ => ?_
  rw [h₁.store]
  cases hsummaries : VersionSummary.ofCount c (σ.store.listItems count none)
      (σ₂.store.listReports count none) with
  | ok summaries =>
    refine iff_of_false (by rintro ⟨_, ⟨⟩⟩) ?_
    rintro ⟨-, version, hrange⟩
    exact hrange (VersionSummary.exists_ofCount_iff.mp ⟨summaries, hsummaries⟩ version)
  | error o =>
    refine iff_of_true ⟨o, rfl⟩ ⟨⟨c, hc⟩, ?_⟩
    by_contra hall
    rw [not_exists] at hall
    obtain ⟨summaries, hok⟩ :=
      VersionSummary.exists_ofCount_iff.mpr fun version => not_not.mp (hall version)
    cases hok.symm.trans hsummaries

end Counting
end Recount

/-! ## Attempts come to an end

What an attempt writes was computed when the items were counted, so an attempt to write back never
stops at an overflow, whatever the planning system answers. -/

namespace Recount.WriteBack

open Concurrent (Scene Ending)

variable {s : Store} {c : Count} {strategy : Strategy} {actor tenant count : Id} {d : Destination}
  {ending : Ending SendOutcome} {σ : Scene}

/-- An attempt that has come to its session is recorded. -/
theorem CameTo.ne_overflow (h : CameTo s c strategy actor (some d) ending σ)
    (hstatus : c.status = .completed) {o : Overflow} : ending ≠ .overflow o := by
  rintro rfl
  cases h with
  | refused hwhy => cases hwhy hstatus
  | unopened _ _ _ _ hending => cases hending
  | held _ _ _ _ _ _ _ hending => cases hending

theorem send_overflowsIff {connections : Erp.Connections} {default : Option Id} {r : SendRequest}
    {drawn : List Id} (hs : s.Sound) :
    (send connections default tenant count r actor).OverflowsIff ⟨s, drawn, []⟩ False := by
  have hfails : ∀ {e : Error},
      (∃ o, (Ending.failure e : Ending SendOutcome) = .overflow o) ↔ False :=
    iff_false_intro (by rintro ⟨_, ⟨⟩⟩)
  cases hc : s.count? tenant count with
  | none =>
    refine Counting.leads_foundCount (fun _ _ _ _ => hfails) fun c _ hsome _ => ?_
    cases hc.symm.trans hsome
  | some c =>
    refine leads_send_of_session hc (fun _ _ _ _ => hfails) fun hstatus d _ started σ hquiet => ?_
    have hvalues : HaveValues r.strategy (toWrite s c.id c.currentVersion) :=
      haveValues r.strategy fun i hi => (hs.listItems.2 i hi).2.2
    refine (leads_holdSession hc hstatus hvalues hquiet.store hquiet.sent hquiet.openings).mono ?_
    exact fun ending _ hcame => iff_false_intro fun ⟨o, ho⟩ => hcame.ne_overflow hstatus ho

end Recount.WriteBack

/-! ## Operations on a count -/

namespace Recount

open Concurrent (World Reachable Scene Ending nobody)
open Counting (Editable Overruns Admitted)
open Loading (Exceeds HasRead fieldsGiven?)

/-- Just where the operations on a count overflow that begin in a scene. -/
structure ExactOverflows (sources : Loading.Sources) (σ : Scene) (tenant count actor : Id) :
    Prop where
  /-- Records are merged unless the quantities of a code cannot be added up. -/
  dedupe (records : List ItemRecord) : (∃ o, ItemRecord.dedupe records = .error o) ↔
    ∃ code, ¬ SumsInRange .zero (ItemRecord.given (ItemRecord.ofCode code records))
  loadItems {r : Loading.LoadRequest} {ending : Ending Loading.Summary} {σ' : Scene}
    (hrun : (Loading.loadItems sources tenant count r).Runs σ ending σ') :
    (∃ o, ending = .overflow o) ↔ ∃ c records,
      HasRead sources tenant count r σ ending σ' c records ∧
      Exceeds σ.store c (r.place c) records
  importItems (content : File.Content) (filename : String) (location mapping : Option Id) :
    (Loading.importItems tenant count content filename location mapping).OverflowsIff σ
      (∃ c fields items, Editable σ.store tenant count c ∧
        fieldsGiven? σ.store tenant mapping = some fields ∧
        File.readItems content filename fields = .ok items ∧
        Exceeds σ.store c (location.getD c.warehouse) items.records)
  updateItem (item : Id) (r : RecordQuantity) :
    (Counting.updateItem tenant count item r actor).OverflowsIff σ
      (∃ c, Editable σ.store tenant count c ∧ Overruns σ.store c item r.counted)
  submit (version : Int) (r : SubmitEntries) :
    (Counting.submit tenant count version r actor).OverflowsIff σ
      (∃ c, Editable σ.store tenant count c ∧ version = c.currentVersion ∧
        ∃ entry ∈ r.entries, Overruns σ.store c entry.item entry.counted)
  addItem (r : AddItem) : (Counting.addItem tenant count r actor).OverflowsIff σ
    (Admitted tenant count r σ.store ∧
      ∃ counted ∈ r.counted, counted.isNegative = false ∧ ¬ VarianceInRange r.systemQty counted)
  /-- What was counted of an item stays, and needs a variance from what is loaded. -/
  upsertItem (new : Item) (supply : Supply) :
    (∃ o, σ.store.upsertItem new supply = .error (.overflow o)) ↔
      σ.store.checkWritable new.count new.version = .ok () ∧
        σ.store.Outgrown new.key new.systemQty
  completeCount : (Counting.completeCount tenant count actor).OverflowsIff σ False
  send (connections : Erp.Connections) (default : Option Id) (r : WriteBack.SendRequest) :
    (WriteBack.send connections default tenant count r actor).OverflowsIff σ False
  /-- The differences of a version are added up in the order in which its items are listed. -/
  versionHistory : (Counting.versionHistory tenant count).OverflowsIff σ
    ((∃ c, σ.store.count? tenant count = some c) ∧ ∃ version,
      ¬ SumsInRange .zero (VersionSummary.differences (σ.store.listItems count none) version))

/-- Operations overflow just where a sum, or a variance that is to be entered, is out of range,
which no variance of stored quantities is. What was entered is never computed in vain: no count
overflows when it is completed or written back. -/
theorem exactOverflows {sources : Loading.Sources} {w : World} (hw : Reachable sources nobody w)
    (tenant count actor : Id) :
    ExactOverflows sources ⟨w.store, w.drawn, []⟩ tenant count actor ∧
      ∀ system counted : Decimal, system.FitsColumn → counted.FitsColumn →
        VarianceInRange system counted := by
  have hs : w.store.Sound := hw.sound.store
  have hdrawn : ∀ id ∈ w.store.ids, id ∈ w.drawn := fun id hid => (hw.sound.known id hid).1
  refine ⟨?_, fun system counted ⟨S, hS, hsystem⟩ ⟨C, hC, hcounted⟩ =>
    StoredAs.varianceInRange ⟨hS, hC, hsystem, hcounted⟩⟩
  exact
    { dedupe := fun records => ItemRecord.dedupe_overflows_iff
      loadItems := fun hrun => Loading.loadItems_overflows_iff hs hdrawn hrun
      importItems := fun _ _ _ _ => Loading.importItems_overflowsIff hs hdrawn
      updateItem := fun _ _ => Counting.updateItem_overflowsIff
      submit := fun _ _ => Counting.submit_overflowsIff
      addItem := fun _ => Counting.addItem_overflowsIff (Counting.covered_of_reachable hw)
      upsertItem := fun _ _ => hs.upsertItem_overflow_iff
      completeCount := Counting.completeCount_overflowsIff hs
      send := fun _ _ _ => WriteBack.send_overflowsIff hs
      versionHistory := Counting.versionHistory_overflowsIff }

section Replay

open Concurrent (Surroundings played_reachable noSources oneDigit)
open Loading (sevenCounted fromRound)

/-- The least quantity that is not zero. -/
def least : Decimal := .ofParts 1 28

/-- An item of which the system knows next to nothing, and eight were counted. -/
def scarce : AddItem := ⟨.ofNat 5, "B", "B", none, none, least, some (oneDigit 8)⟩

/-- The item is added to the first count. -/
def addScarce : Action Item := Counting.addItem (.ofNat 1) (.ofNat 1000) scarce (.ofNat 3)

theorem addScarce_overflows : ∃ σ', addScarce.Runs ⟨sevenCounted.store, sevenCounted.drawn, []⟩
    (.overflow .division) σ' := by
  have hfresh : (fromRound 30).FreshFor addScarce.run sevenCounted.store sevenCounted.drawn 0 := by
    decide +kernel
  have hresult : ((fromRound 30).perform addScarce sevenCounted.store).1 = .error .division := by
    decide +kernel
  obtain ⟨σ', hruns, -⟩ := Surroundings.exists_runs_perform hfresh
  rw [hresult] at hruns
  exact ⟨σ', hruns⟩

theorem exactOverflows_sevenCounted :
    ExactOverflows noSources ⟨sevenCounted.store, sevenCounted.drawn, []⟩ (.ofNat 1) (.ofNat 1000)
        (.ofNat 3) ∧
      Admitted (.ofNat 1) (.ofNat 1000) scarce sevenCounted.store ∧
      ¬ VarianceInRange least (oneDigit 8) := by
  obtain ⟨hexact, -⟩ := exactOverflows (played_reachable fun _ _ h => h : Reachable noSources nobody
    sevenCounted) (.ofNat 1) (.ofNat 1000) (.ofNat 3)
  obtain ⟨σ', hruns⟩ := addScarce_overflows
  obtain ⟨hadmitted, counted, hcounted, -, hrange⟩ :=
    (Action.leads_iff_runs.mp (hexact.addItem scarce) _ _ hruns).mp ⟨_, rfl⟩
  cases hcounted
  exact ⟨hexact, hadmitted, hrange⟩

/-- The greatest quantity of an item twice, and its opposite. -/
def greatestRows : List Row :=
  [[("code", .str "A"), ("qty", .str "79228162514264337593543950335")],
    [("code", .str "A"), ("qty", .str "79228162514264337593543950335")],
    [("code", .str "A"), ("qty", .str "-79228162514264337593543950335")]]

/-- Rows that are accepted stop at an overflow when they are merged, though their sum is in range
and is found in another order. So does a request to add an item whose quantities are accepted. -/
theorem not_free_of_overflow :
    (Batch.ofRows [] greatestRows).rowErrors = [] ∧
      ItemRecord.dedupe (Batch.ofRows [] greatestRows).records = .error .addition ∧
      (∃ merged, ItemRecord.dedupe (Batch.ofRows [] greatestRows.reverse).records = .ok merged) ∧
      scarce.faults = [] ∧ ∃ σ', addScarce.Runs ⟨sevenCounted.store, sevenCounted.drawn, []⟩
        (.overflow .division) σ' := by
  refine ⟨by decide +kernel, by decide +kernel, ?_, by decide +kernel, addScarce_overflows⟩
  rw [← isOk_iff]
  decide +kernel

end Replay

end Recount
