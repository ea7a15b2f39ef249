import Recount.Proofs.Accounting
import Recount.Proofs.Concurrent.MappingWrites
import Recount.Proofs.Concurrent.Unfolding
import Recount.Proofs.Deduplication
import Recount.Proofs.Finality

/-!
# Codes of items

Items come from rows and from requests. What a row gives as a code is trimmed before it is looked
at, so the row has no code where nothing is left. A request is looked at before its code is trimmed:
a blank code passes, and the item that is added has an empty one. No item changes its code later.
-/

/-! ## Codes of rows -/

namespace Recount

variable {r : ItemRecord}

theorem Portion.transformed {p : Portion} (hr : r ∈ p.readings.filterMap RowReading.record?) :
    r.Transformed := by
  obtain ⟨reading, hreading, hrecord⟩ := List.mem_filterMap.mp hr
  obtain ⟨row, -, rfl⟩ := List.mem_map.mp hreading
  refine ⟨p.fields, row, ?_⟩
  cases hrow : Transform.ofRow p.fields row with
  | error defect =>
    rw [hrow] at hrecord
    cases hrecord
  | ok found =>
    rw [hrow] at hrecord
    exact congrArg Except.ok hrecord

/-- The records of a batch have the codes of their rows. -/
theorem Batch.Accounts.isProper_code {b : Batch} {portions : List Portion}
    (h : b.Accounts portions) (hr : r ∈ b.records) : Text.IsProper r.code := by
  have hcode : r.code ∈ b.records.map (·.code) := List.mem_map_of_mem hr
  rw [h.codes] at hcode
  obtain ⟨read, hread, hreadcode⟩ := List.mem_map.mp hcode
  rw [List.filterMap_flatMap, List.mem_flatMap] at hread
  obtain ⟨p, -, hread⟩ := hread
  exact hreadcode ▸ (Portion.transformed hread).isProper_code

theorem File.isProper_code_of_readItems {content : Content} {filename : String}
    {fields : List FieldMapping} {items : Items} (h : readItems content filename fields = .ok items)
    (hr : r ∈ items.records) : Text.IsProper r.code := by
  obtain ⟨table, -, -, hrecords, -⟩ := Loading.readings_of_readItems h
  rw [hrecords] at hr
  obtain ⟨reading, hreading, hrecord⟩ := List.mem_filterMap.mp hr
  obtain ⟨row, -, rfl⟩ := List.mem_map.mp hreading
  unfold itemOfRow at hrecord
  cases hrow : Transform.ofRow fields row.2 with
  | error defect =>
    rw [hrow] at hrecord
    cases hrecord
  | ok found =>
    rw [hrow] at hrecord
    cases found with
    | none => cases hrecord
    | some record =>
      dsimp only at hrecord
      split at hrecord
      · cases hrecord
        exact ItemRecord.Transformed.isProper_code ⟨fields, row.2, hrow⟩
      · cases hrecord

/-- What is fetched for a load has the codes of its rows. -/
theorem Loading.isProper_code_of_ends_fetch {sources : Sources} {tenant : Id}
    {request : LoadRequest} {past : List Concurrent.Exchange} {f : Fetched}
    (h : Action.Ends (fetch sources tenant request) past (.ok f))
    (hr : r ∈ (f.batch.getD {}).records) : Text.IsProper r.code := by
  obtain ⟨limit, vain, used, -, -, hfetches⟩ := ends_fetch h
  obtain ⟨portions, haccounts, -⟩ := hfetches.accounts
  exact haccounts.isProper_code hr

end Recount

/-! ## Codes that tasks enter -/

namespace Recount

section Reading

variable {α : Type} {rule : Program.Rule Request Request.Answer} {post : α → Prop}

/-- A program that only reads keeps a rule by which reading is allowed, and ends with what its own
history leads to. -/
theorem Program.Reads.keeps {p : Program Request Request.Answer α} {h : List Concurrent.Exchange}
    (hp : p.Reads) (hrule : ∀ h q, q.Reads → rule h q)
    (hpost : ∀ past a, p.Reaches past (.done a) → post a) : p.Keeps rule (fun a _ => post a) h := by
  induction p generalizing h with
  | done a => exact hpost [] a .start
  | stop o => trivial
  | ask q next ih =>
    refine ⟨hrule h q hp.1, fun answer => ih answer (hp.2 answer) fun past a hr => ?_⟩
    exact hpost _ a ((Program.Reaches.start.ask answer).trans hr)

theorem Action.Reads.keeps {x : Action α} {h : List Concurrent.Exchange} (hx : x.Reads)
    (hrule : ∀ h q, q.Reads → rule h q) (hpost : ∀ past a, Action.Ends x past (.ok a) → post a) :
    Action.Keeps rule (fun a _ => post a) x h := by
  have hkeeps : Program.Keeps rule (fun result _ => ∀ a, result = .ok a → post a) x.run h := by
    refine Program.Reads.keeps hx hrule fun past result hr a heq => hpost past a ?_
    exact heq ▸ hr
  exact hkeeps

end Reading

namespace Concurrent

open Recount.Action Recount.Counting
open Program (Rule)

/-- An item is entered for a row under a proper code, or by hand under the code that is left of the
one that was given. -/
def EntersCodes (t : Task) : Rule Request Request.Answer := fun _ q =>
  match q with
  | .store (.counts (.upsertItem i)) => Text.IsProper i.code
  | .store (.counts (.insertItem i)) => ∃ tenant r actor, t = .addItem tenant i.count r actor ∧
    r.code ≠ "" ∧ i.location = r.location ∧ i.code = Text.trim r.code
  | _ => True

variable {t : Task} {tenant count actor : Id} {sources : Loading.Sources}

theorem entersCodes_aboutEntries : AboutEntries (EntersCodes t) where
  erp _ _ _ := trivial
  freshId _ := trivial
  now _ := trivial
  counts _ call hcall _ := by
    cases call with
    | upsertItem i => cases hcall
    | insertItem i => cases hcall
    | _ => trivial
  get _ _ _ := trivial
  list _ _ _ := trivial
  setActive _ _ _ _ := trivial
  findActive _ _ _ := trivial

/-- What reads enters nothing: an empty store refuses every item. -/
theorem entersCodes_of_reads (h : List Exchange) (q : Request) (hq : q.Reads) :
    EntersCodes t h q := by
  unfold EntersCodes
  split
  · obtain ⟨_, hanswer⟩ := hq .empty (roundSupply 0)
    obtain ⟨c, hc, -⟩ := @Store.upsertItem_eq_ok _ _ (roundSupply 0) _ _ _ hanswer
    exact absurd hc List.not_mem_nil
  · obtain ⟨_, hanswer⟩ := hq .empty (roundSupply 0)
    obtain ⟨c, hc, -⟩ := Store.insertItem_eq_ok hanswer
    exact absurd hc List.not_mem_nil
  · trivial

theorem addItem_entersCodes {r : AddItem} (ht : t = .addItem tenant count r actor) :
    Follows (EntersCodes t) (addItem tenant count r actor) := by
  have hlookups := (entersCodes_aboutEntries (t := t)).lookups tenant
  refine fun h => keeps_bind.mpr (keeps_checkFields.mpr fun hfaults =>
    keeps_bind.mpr (hlookups.keeps_editableCount.mpr fun seen _ => ?_))
  have hgiven : r.code ≠ "" := by
    rintro hempty
    simp [AddItem.faults, hempty, lengthWithin, faultUnless] at hfaults
  simp only [keeps_bind, keeps_now, keeps_freshId, keeps_counts]
  refine ⟨trivial, fun time => ⟨trivial, fun id => ⟨?_, fun item => ?_⟩⟩⟩
  · exact ⟨tenant, r, actor, ht, hgiven, rfl, rfl⟩
  · split
    · exact entersCodes_aboutEntries.recordQuantity_follows _
    · exact pure_follows _

section Loading

open Recount.Loading

variable {seen : Count} {location : Id} {s : Summary} {records : List ItemRecord}

theorem storeAll_entersCodes (hrecords : ∀ r ∈ records, Text.IsProper r.code) :
    Follows (EntersCodes t) (storeAll seen location s records) := by
  induction records generalizing s with
  | nil => exact pure_follows
  | cons r records ih =>
    obtain ⟨hr, hrecords⟩ := List.forall_mem_cons.mp hrecords
    exact entersCodes_aboutEntries.now_follows.bind fun time =>
      entersCodes_aboutEntries.freshId_follows.bind fun id =>
      (counts_follows fun _ => hr).attempt.bind fun _ => ih hrecords

/-- The records that are stored have the codes of those that are merged. -/
theorem storeRecords_entersCodes (hrecords : ∀ r ∈ records, Text.IsProper r.code) :
    Follows (EntersCodes t) (storeRecords seen location s records) := by
  intro h
  refine keeps_bind.mpr (keeps_arithmetic.mpr fun merged hmerged => ?_)
  refine storeAll_entersCodes (fun m hm => ?_) h
  have hcode := (ItemRecord.codes_dedupe hmerged).subset (List.mem_map_of_mem hm)
  obtain ⟨r, hr, hrcode⟩ := List.mem_map.mp (List.mem_dedup.mp hcode)
  exact hrcode ▸ hrecords r hr

theorem loadItems_entersCodes {r : LoadRequest} :
    Follows (EntersCodes t) (loadItems sources tenant count r) := by
  rw [loadItems_eq_bind]
  refine entersCodes_aboutEntries.editableCount_follows.bind fun seen h => keeps_bind.mpr ?_
  have hfetch : Keeps (EntersCodes t)
      (fun f _ => ∀ record ∈ (f.batch.getD {}).records, Text.IsProper record.code)
      (fetch sources tenant r) h :=
    fetch_reads.keeps entersCodes_of_reads fun past f hf record => isProper_code_of_ends_fetch hf
  refine hfetch.mono (fun _ _ hq => hq) fun f h' _ hcodes => ?_
  rw [Fetched.store_eq]
  exact storeRecords_entersCodes hcodes h'

theorem importItems_entersCodes {content : File.Content} {filename : String}
    {place mapping : Option Id} :
    Follows (EntersCodes t) (importItems tenant count content filename place mapping) := by
  have hlookups := (entersCodes_aboutEntries (t := t)).lookups tenant
  refine entersCodes_aboutEntries.editableCount_follows.bind fun seen =>
    hlookups.getGiven_follows.bind fun found h =>
      keeps_bind.mpr (keeps_check.mpr fun items hread => ?_)
  refine Follows.bind (storeRecords_entersCodes fun r hr => ?_) (fun _ => pure_follows) h
  exact File.isProper_code_of_readItems (Error.ofFile_eq_ok_iff.mp hread) hr

end Loading

/-- Whatever a task is answered, it enters codes as it may. -/
theorem Task.program_entersCodes (sources : Loading.Sources) (t : Task) :
    (t.program sources).Keeps (EntersCodes t) (fun _ _ => True) [] := by
  have haction : Follows (EntersCodes t) (t.action sources) := by
    cases ht : t with
    | addItem => exact addItem_entersCodes rfl
    | loadItems => exact loadItems_entersCodes
    | importItems => exact importItems_entersCodes
    | send => exact entersCodes_aboutEntries.send_follows fun _ _ => trivial
    | createMapping => exact entersCodes_aboutEntries.createMapping_follows fun _ _ => trivial
    | updateMapping => exact entersCodes_aboutEntries.updateMapping_follows fun _ _ => trivial
    | _ => exact entersCodes_aboutEntries.action_follows id rfl rfl
  rw [t.program_eq_work]
  exact Program.keeps_bind.mpr (Program.Keeps.mono (haction []) (fun _ _ hq => hq)
    fun _ _ _ _ => trivial)

end Concurrent
end Recount

/-! ## Items that stay -/

namespace Recount.Store

variable {s s' : Store} {supply : Supply} {i : Item}

theorem putItem_ids : s.items.map Item.id ⊆ (s.putItem i).items.map Item.id := by
  change _ ⊆ (putBy Item.id i s.items).map Item.id
  rw [map_putBy]
  split
  · exact List.Subset.refl _
  · exact List.subset_append_left _ _

theorem putItems_ids {items : List Item} :
    s.items.map Item.id ⊆ (s.putItems items).items.map Item.id := by
  induction items generalizing s with
  | nil => exact List.Subset.refl _
  | cons i items ih => exact List.Subset.trans putItem_ids ih

/-- An item is there until its count is deleted. -/
theorem item_stays {call : CountCall} {result} (h : s.answerCounts supply call = .ok (result, s'))
    (hkept : call.deletes? ≠ some i.count) (hi : i ∈ s.items) : i.id ∈ s'.items.map Item.id := by
  have hid : i.id ∈ s.items.map Item.id := List.mem_map_of_mem hi
  cases call with
  | change tenant count t =>
    obtain ⟨_, -, -, -, -, -, -, -, _, _, -, -, rfl⟩ := change_eq_ok h
    rw [putReports_items]
    exact putItems_ids hid
  | delete tenant count allowed =>
    obtain ⟨_, -, -, -, -, rfl⟩ := deleteCount_eq_ok h
    refine List.mem_map_of_mem (List.mem_filter.mpr ⟨hi, decide_eq_true fun hcount => hkept ?_⟩)
    exact congrArg some hcount.symm
  | upsertItem new =>
    obtain ⟨_, _, _, _, _, ⟨_, _, rfl⟩ | ⟨_, _, _, ⟨_, _, rfl⟩ | ⟨_, _, _, _, _, rfl⟩⟩⟩ :=
      upsertItem_eq_ok h
    · exact putItem_ids hid
    · exact putItem_ids hid
    · refine putItem_ids ?_
      rwa [changeReport_items]
  | insertItem new =>
    obtain ⟨_, _, _, _, _, _, _, rfl⟩ := insertItem_eq_ok h
    exact putItem_ids hid
  | recordItem new report =>
    obtain ⟨_, _, _, _, _, _, _, _, _, _, rfl⟩ := recordItem_eq_ok h
    rw [changeReport_items]
    exact putItem_ids hid
  | saveReport r =>
    obtain ⟨_, _, rfl⟩ := saveReport_eq_ok h
    exact hid
  | _ =>
    cases h
    exact hid

end Recount.Store

namespace Recount.Concurrent

open Store

variable {sources : Loading.Sources} {w w' : World} {n : Nat} {work : Work} {i : Item}

/-- After one step, an item is still there, or its count is gone. -/
theorem World.Sound.item_stays (hw : w.Sound) (hstep : Step sources nobody w w')
    (hi : i ∈ w.store.items) : i.id ∈ w'.store.items.map Item.id ∨ w'.Gone i.count := by
  cases hstep with
  | begin t ht => exact .inl (List.mem_map_of_mem hi)
  | advance hadvance =>
    rcases hw.advance_cases hadvance with ⟨call, result, new, supply, hmakes⟩ | hrests
    · by_cases hdeletes : call.deletes? = some i.count
      · exact .inr (hw.gone_of_deleted hadvance hmakes.log hdeletes)
      · exact .inl (Store.item_stays hmakes.answer hdeletes hi)
    · rw [hrests.items]
      exact .inl (List.mem_map_of_mem hi)
  | whole t ht => exact ht.elim

/-- An item that a task has entered keeps its key, and it is there until its count is gone. -/
theorem Reachable.entered_later (hw : Reachable sources nobody w) (hwork : w.works[n]? = some work)
    (hshown : Shown work.past i) (hi : i ∈ w.store.items)
    (hlater : Relation.ReflTransGen (Step sources nobody) w w') :
    (∃ j ∈ w'.store.items, j.key = i.key) ∨ w'.Gone i.count := by
  have hkey : ∀ {w₁}, Relation.ReflTransGen (Step sources nobody) w w₁ → ∀ j ∈ w₁.store.items,
      j.id = i.id → j.key = i.key := by
    intro w₁ hrun j hj hid
    obtain ⟨after, hafter, -, hsuffix, -⟩ := exchanged_since hrun hwork
    have hw₁ : Reachable sources nobody w₁ := hw.trans hrun
    have hshown' : Shown after.past i := hshown.mono hsuffix.subset
    exact (hw₁.sound.shown after (List.mem_of_getElem? hafter) i hshown').2 j hj hid
  have hstays : i.id ∈ w'.store.items.map Item.id ∨ w'.Gone i.count := by
    induction hlater with
    | refl => exact .inl (List.mem_map_of_mem hi)
    | @tail w₁ w₂ hrun hstep ih =>
      have hw₁ : Reachable sources nobody w₁ := hw.trans hrun
      rcases ih with hid | hgone
      · obtain ⟨j, hj, hid⟩ := List.mem_map.mp hid
        have hcount : j.count = i.count := congrArg Item.Key.count (hkey hrun j hj hid)
        rw [← hid, ← hcount]
        exact hw₁.sound.item_stays hstep hj
      · exact .inr (hgone.step hw₁.sound hstep)
  refine hstays.imp_left fun hid => ?_
  obtain ⟨j, hj, hid⟩ := List.mem_map.mp hid
  exact ⟨j, hj, hkey hlater j hj hid⟩

end Recount.Concurrent

/-! ## Codes of items -/

namespace Recount.Concurrent

open Store

variable {sources : Loading.Sources} {w w' : World} {n : Nat} {work : Work} {key : Item.Key}

/-- The task has added an item by hand for which a blank code was given. -/
def Work.AddsBlank (work : Work) (count location : Id) : Prop :=
  ∃ tenant r actor, work.task = .addItem tenant count r actor ∧ r.location = location ∧
    r.code ≠ "" ∧ Text.isBlankText r.code = true ∧
    ∃ new i, ⟨.store (.counts (.insertItem new)), .ok i⟩ ∈ work.past

/-- The code of an item is proper, or it is empty and a blank one was given for it. -/
inductive World.Explains (w : World) (key : Item.Key) : Prop
  | proper (h : Text.IsProper key.code)
  | blank {n : Nat} {work : Work} (hcode : key.code = "") (hwork : w.works[n]? = some work)
      (hadds : work.AddsBlank key.count key.location)

/-- All codes of items are explained, those of the items that tasks were listed as well. -/
structure World.Coded (w : World) : Prop where
  stored : ∀ i ∈ w.store.items, w.Explains i.key
  listed : ∀ work ∈ w.works, ∀ count version items,
    ⟨.store (.counts (.listItems count (some version))), .ok items⟩ ∈ work.past →
      ∀ i ∈ items, w.Explains i.key

/-- What a task has entered it was allowed to enter. -/
theorem Reachable.entersCodes (hw : Reachable sources nobody w) (hwork : work ∈ w.works)
    {e : Exchange} (he : e ∈ work.past) : EntersCodes work.task [] e.request := by
  obtain ⟨rest, hreaches, -⟩ := hw.reaches hwork
  obtain ⟨later, earlier, hpast⟩ := List.append_of_mem he
  exact (hreaches.keeps (work.task.program_entersCodes sources)).2 later e earlier hpast

/-- What a task has added it has added for good. -/
theorem World.Explains.step (h : w.Explains key) (hstep : Step sources nobody w w') :
    w'.Explains key := by
  cases h with
  | proper hproper => exact .proper hproper
  | blank hcode hwork hadds =>
    obtain ⟨tenant, r, actor, htask, hlocation, hgiven, hblank, new, i, hadded⟩ := hadds
    obtain ⟨after, hafter, hsame, hpast⟩ := hstep.work_cases hwork
    refine .blank hcode hafter
      ⟨tenant, r, actor, hsame.trans htask, hlocation, hgiven, hblank, new, i, ?_⟩
    rcases hpast with heq | ⟨e, heq, -⟩
    · rwa [heq]
    · rw [heq]
      exact List.mem_cons_of_mem e hadded

theorem World.Explains.ofVersion (h : w.Explains key) (version : Int) :
    w.Explains { key with version } := by
  cases h with
  | proper hproper => exact .proper hproper
  | blank hcode hwork hadds => exact .blank hcode hwork hadds

/-- The code of an item that was inserted is what is left of the one that was given. -/
theorem Reachable.explains_inserted (hw : Reachable sources nobody w)
    (hwork : w.works[n]? = some work) {new i : Item}
    (he : ⟨.store (.counts (.insertItem new)), .ok i⟩ ∈ work.past) : w.Explains new.key := by
  obtain ⟨tenant, r, actor, htask, hgiven, hlocation, hcode⟩ :=
    hw.entersCodes (List.mem_of_getElem? hwork) he
  by_cases hempty : new.code = ""
  · have hblank : Text.isBlankText r.code = true :=
      Text.trim_eq_empty_iff.mp (hcode.symm.trans hempty)
    exact .blank hempty hwork ⟨tenant, r, actor, htask, hlocation.symm, hgiven, hblank, new, i, he⟩
  · have htrimmed : Text.IsTrimmed new.code := hcode ▸ Text.isTrimmed_trim
    exact .proper ⟨hempty, htrimmed⟩

/-- After an exchange, the items have codes that are explained. -/
theorem World.Coded.stored_exchanged (h : w.Coded) (hw : Reachable sources nobody w)
    {call : CountCall} {result : call.Result}
    (hexchange : Exchanges n w w' ⟨.store (.counts call), .ok result⟩) :
    ∀ j ∈ w'.store.items, w'.Explains j.key := by
  intro j hj
  have hstep : Step sources nobody w w' := .advance hexchange.advance
  have hw' : Reachable sources nobody w' := hw.tail hstep
  obtain ⟨work, next, hwork, hrest, hafter⟩ := hexchange.exists_works
  obtain ⟨ids, supply, hmakes⟩ := hexchange.makes hw.sound
  cases hw.sound.store.origin hmakes.fits hmakes.areNew hmakes.answer hj with
  | kept hi _ hkey => exact hkey ▸ (h.stored _ hi).step hstep
  | upserted => exact .proper (hw'.entersCodes (List.mem_of_getElem? hafter) List.mem_cons_self)
  | inserted => exact hw'.explains_inserted hafter List.mem_cons_self
  | @recorded i change hid hkey =>
    obtain ⟨stored, hstored, hsid, -⟩ := recordItem_eq_ok hmakes.answer
    rw [hkey, ← hmakes.fits.key stored hstored hsid]
    exact (h.stored stored hstored).step hstep
  | settled _ hold _ hkey => exact hkey ▸ (h.stored _ hold).step hstep
  | @carried tenant count t i hi hid hkey =>
    -- An item of the next version has the code of one that the task was listed.
    rcases hw.sound.allowed hwork hrest with hfounded | ⟨-, _, hsave, -⟩
    · cases hfounded with
      | recount version actor items ids' time hitems =>
        obtain ⟨k, hk, id, -, rfl⟩ := Item.mem_nextAll hi
        rw [hkey, Item.next_key]
        have hlisted := h.listed work (List.mem_of_getElem? hwork) _ _ _ hitems k hk
        exact (hlisted.step hstep).ofVersion (version + 1)
      | _ => exact absurd hi List.not_mem_nil
    · cases hsave

/-- In every world that is reached, codes are explained. -/
theorem Reachable.coded (hw : Reachable sources nobody w) : w.Coded := by
  induction hw with
  | refl =>
    exact ⟨fun i hi => absurd hi List.not_mem_nil, fun work hwork => absurd hwork List.not_mem_nil⟩
  | @tail w w' hw hstep ih =>
    have hw : Reachable sources nobody w := hw
    have hkept : ∀ i ∈ w.store.items, w'.Explains i.key := fun i hi => (ih.stored i hi).step hstep
    constructor
    · cases hstep with
      | begin t ht => exact hkept
      | advance hadvance =>
        rcases hw.sound.advance_cases hadvance with ⟨call, result, new, supply, hmakes⟩ | hrests
        · exact ih.stored_exchanged hw (hadvance.exchanges hmakes.log)
        · rwa [hrests.items]
      | whole t ht => exact ht.elim
    · intro work hwork count version items hlisted i hi
      obtain ⟨n, hn⟩ := List.mem_iff_getElem?.mp hwork
      rcases hstep.past_cases hn with hnil | ⟨before, hbefore, -, hpast⟩
      · rw [hnil] at hlisted
        exact absurd hlisted List.not_mem_nil
      · have hmem : before ∈ w.works := List.mem_of_getElem? hbefore
        have hbefore :
            ⟨.store (.counts (.listItems count (some version))), .ok items⟩ ∈ before.past →
              w'.Explains i.key := fun he => (ih.listed before hmem _ _ _ he i hi).step hstep
        rcases hpast with heq | ⟨e, heq, hexchange⟩
        · exact hbefore (heq ▸ hlisted)
        · rw [heq] at hlisted
          rcases List.mem_cons.mp hlisted with rfl | hlisted
          · obtain rfl := Except.ok.inj hexchange.answers.listItems
            exact hkept i (mem_itemsOf.mp ((List.mergeSort_perm _ _).subset hi)).1
          · exact hbefore hlisted

/-- An item that was added for a blank code is there, with an empty one, until its count is gone. -/
theorem Reachable.blank_later (hw : Reachable sources nobody w) {count location : Id}
    (hwork : w.works[n]? = some work) (hadds : work.AddsBlank count location) :
    (∃ i ∈ w.store.items, i.count = count ∧ i.location = location ∧ i.code = "") ∨
      w.Gone count := by
  obtain ⟨tenant, r, actor, htask, hplace, -, hblank, new, i, he⟩ := hadds
  obtain ⟨tenant', r', actor', htask', -, hlocation, hcode⟩ :=
    hw.entersCodes (List.mem_of_getElem? hwork) he
  cases htask.symm.trans htask'
  obtain ⟨before, after, hbefore, hexchange, hlater⟩ := hw.exchanged hwork he
  obtain ⟨supply, hanswer⟩ := hexchange.answers.exists_answer
  obtain ⟨_, -, -, -, -, -, hsame, hstore⟩ := insertItem_eq_ok hanswer
  cases hsame
  obtain ⟨_, _, -, -, hafter⟩ := hexchange.exists_works
  have hstored : new ∈ after.store.items := by
    rw [hstore]
    exact mem_putBy_self
  have hafter' : Reachable sources nobody after := hbefore.tail (.advance hexchange.advance)
  refine (hafter'.entered_later hafter (.inserted List.mem_cons_self) hstored hlater).imp_left ?_
  rintro ⟨j, hj, hkey⟩
  simp only [Item.key, Item.Key.mk.injEq] at hkey
  refine ⟨j, hj, hkey.1, (hkey.2.1.trans hlocation).trans hplace, ?_⟩
  rw [hkey.2.2.1, hcode, Text.trim_eq_empty_iff.mpr hblank]

/-- However the tasks of all users interleave, the code of every item that is stored has no blanks
at its ends. It is empty just where an item was added by hand for a blank code: a count has such an
item at a location if it is still there and a task has added one. -/
theorem item_code_empty_iff (hw : Reachable sources nobody w) :
    (∀ i ∈ w.store.items, Text.trim i.code = i.code) ∧
    ∀ count location,
      (∃ i ∈ w.store.items, i.count = count ∧ i.location = location ∧ i.code = "") ↔
        (∃ c ∈ w.store.counts, c.id = count) ∧
          ∃ (n : Nat) (work : Work), w.works[n]? = some work ∧ work.AddsBlank count location := by
  constructor
  · intro i hi
    cases hw.coded.stored i hi with
    | proper hproper => exact hproper.trimmed.trim_eq
    | blank hcode =>
      have hempty : i.code = "" := hcode
      rw [hempty, Text.trim_eq_empty_iff]
      rfl
  · rintro count location
    constructor
    · rintro ⟨i, hi, rfl, rfl, hempty⟩
      obtain ⟨c, hc, hid, -⟩ := hw.sound.store.item_stored i hi
      cases hw.coded.stored i hi with
      | proper hproper => exact absurd hempty hproper.ne_empty
      | blank hcode hwork hadds => exact ⟨⟨c, hc, hid⟩, _, _, hwork, hadds⟩
    · rintro ⟨⟨c, hc, rfl⟩, n, work, hwork, hadds⟩
      exact (hw.blank_later hwork hadds).resolve_right fun hgone => hgone.absent c hc rfl

/-- Two items are added by hand, one of them under a code of a blank. -/
def blankAdded : List Move :=
  [.begin newCount, goIn 1 0] ++ .begin (newItem " A " none) :: goOn 2 1 4 ++
    .begin (newItem " " none) :: goOn 6 2 4

theorem item_code_empty_iff_blankAdded :
    (played noSources blankAdded).store.items.map Item.code = ["A", ""] ∧
    ∃ (n : Nat) (work : Work), (played noSources blankAdded).works[n]? = some work ∧
      work.AddsBlank (.ofNat 1000) (.ofNat 5) := by
  have hw : Reachable noSources nobody (played noSources blankAdded) :=
    played_reachable fun _ _ h => h
  have hempty : ∃ i ∈ (played noSources blankAdded).store.items,
      i.count = .ofNat 1000 ∧ i.location = .ofNat 5 ∧ i.code = "" := by decide +kernel
  exact ⟨by decide +kernel, (((item_code_empty_iff hw).2 _ _).mp hempty).2⟩

/-- Not every item that is stored has a code. -/
theorem not_item_code_isProper : ¬ ∀ (sources : Loading.Sources) (w : World),
    Reachable sources nobody w → ∀ i ∈ w.store.items, Text.IsProper i.code := by
  intro h
  have hempty : ∃ i ∈ (played noSources blankAdded).store.items, i.code = "" := by decide +kernel
  obtain ⟨i, hi, hcode⟩ := hempty
  exact (h noSources _ (played_reachable fun _ _ h => h) i hi).ne_empty hcode

end Recount.Concurrent
