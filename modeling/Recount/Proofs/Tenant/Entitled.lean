import Recount.Proofs.Concurrent.Founded
import Recount.Proofs.Tenant.Calls

/-!
# What a task of a tenant asks

Most calls name a count but no tenant. A task makes them only for counts that it was shown under the
name of its tenant, so what it asks concerns this tenant alone. This holds of a task by itself, from
its own history.
-/

namespace Recount.Concurrent

open Recount.Action Recount.Counting
open Program (Rule)

/-- The tenant that a task is for, if it is for one. -/
def Task.tenant? : Task → Option Id
  | createCount tenant .. | listCounts tenant .. | getCount tenant .. | deleteCount tenant ..
  | changeStage tenant .. | completeCount tenant .. | openRecount tenant .. | versionHistory tenant ..
  | listItems tenant .. | addItem tenant .. | updateItem tenant .. | submit tenant ..
  | listReports tenant .. | resolveReport tenant .. | loadItems tenant .. | importItems tenant ..
  | exportItems tenant .. | send tenant .. | listAttempts tenant .. | createMapping tenant ..
  | listMappings tenant .. | getMapping tenant .. | updateMapping tenant .. | setActive tenant ..
  | preview tenant .. => some tenant
  | testConnection _ | fetchCatalog _ => none

/-- A task is for a tenant if it is for no other one. -/
def Task.IsFor (tenant : Id) (t : Task) : Prop := ∀ owner, t.tenant? = some owner → owner = tenant

theorem Task.exists_isFor (t : Task) : ∃ tenant, t.IsFor tenant := by
  cases h : t.tenant? with
  | none => exact ⟨default, fun _ howner => by cases h.symm.trans howner⟩
  | some tenant => exact ⟨tenant, fun _ howner => (Option.some.inj (h.symm.trans howner)).symm⟩

/-- The counts that a task of a tenant is shown: it named one together with the tenant, or was
answered with what belongs to one. -/
def shown (tenant : Id) : Exchange → List Id
  | ⟨.store (.counts (.get owner count)), .ok (some c)⟩ => if owner = tenant then [count, c.id] else []
  | ⟨.store (.counts (.getItem _ _)), .ok (some i)⟩ => [i.count]
  | ⟨.store (.counts (.insertItem _)), .ok i⟩ => [i.count]
  | ⟨.store (.counts (.getReport _ _)), .ok (some r)⟩ => [r.count]
  | _ => []

/-- The tenants that a task may name: its own one, which is also that of the mappings that it was
shown under the name of the tenant. -/
def owners (tenant : Id) : Exchange → List Id
  | ⟨.store (.mappings (.get owner _)), .ok (some m)⟩ => if owner = tenant then [m.tenant] else []
  | _ => []

/-- The call names the tenant or a count that is known, by now or from the start. -/
structure Entitled (tenant : Id) (known : List Id) (h : List Exchange) (call : StoreCall) : Prop where
  owner : ∀ owner, call.tenant? = some owner → owner = tenant ∨ owner ∈ h.flatMap (owners tenant)
  count : ∀ count, call.count? = some count → count ∈ known ∨ count ∈ h.flatMap (shown tenant)
  /-- A mapping is created with an identifier that was just drawn. -/
  fresh : ∀ m, call = .mappings (.create m) → m.id ∈ recentIds h

/-- The call neither deletes a count nor lists entries whose order is left open. -/
def IsSteady : Request → Prop
  | .store (.counts (.delete ..)) | .store (.counts (.list ..)) | .store (.counts (.listAttempts _))
  | .store (.mappings (.list ..)) => False
  | _ => True

/-- What a task of a tenant may ask, by its history. -/
def Within (tenant : Id) (known : List Id) (h : List Exchange) : Request → Prop
  | .store call => Entitled tenant known h call
  | _ => True

/-- The same without deletions and lists whose order is left open. -/
def Steadily (tenant : Id) (known : List Id) (h : List Exchange) (q : Request) : Prop :=
  Within tenant known h q ∧ IsSteady q

variable {tenant count actor : Id} {known : List Id} {h : List Exchange} {α β : Type}

/-- A call that names the tenant. -/
theorem Entitled.of_tenant {call : StoreCall} (htenant : call.tenant? = some tenant)
    (hcount : call.count? = none) (hnew : ∀ m, call ≠ .mappings (.create m)) :
    Entitled tenant known h call where
  owner _ howner := .inl (Option.some.inj (htenant.symm.trans howner)).symm
  count _ hc := by cases hcount.symm.trans hc
  fresh m hm := absurd hm (hnew m)

/-- A call that names a count that is known. -/
theorem Entitled.of_known {call : StoreCall} (htenant : call.tenant? = none)
    (hcount : call.count? = some count) (hknown : count ∈ known) : Entitled tenant known h call where
  owner _ howner := by cases htenant.symm.trans howner
  count _ hc := .inl (Option.some.inj (hcount.symm.trans hc) ▸ hknown)
  fresh m hm := by
    subst hm
    cases htenant

theorem steadily_aboutStore : AboutStore (Steadily tenant known) where
  erp _ _ _ := ⟨trivial, trivial⟩
  freshId _ := ⟨trivial, trivial⟩
  now _ := ⟨trivial, trivial⟩

theorem steadily_lookups : AllowsLookups tenant (Steadily tenant known) where
  toAboutStore := steadily_aboutStore
  count _ _ := ⟨.of_tenant rfl rfl fun _ => nofun, trivial⟩
  mapping _ _ := ⟨.of_tenant rfl rfl fun _ => nofun, trivial⟩
  active _ _ := ⟨.of_tenant rfl rfl fun _ => nofun, trivial⟩

/-- What a task knows from the start it may also have been shown. -/
theorem Keeps.of_known {x : Action α} {post} {known' : List Id}
    (hx : Keeps (Steadily tenant known') post x h)
    (hknown : ∀ count ∈ known', count ∈ known ∨ count ∈ h.flatMap (shown tenant)) :
    Keeps (Steadily tenant known) post x h := by
  refine Program.Keeps.weaken hx fun h' q hsuffix hq => ⟨?_, hq.2⟩
  cases q with
  | store call =>
    have hcall : Entitled tenant known' h' call := hq.1
    refine ⟨hcall.owner, fun count hcount => ?_, hcall.fresh⟩
    rcases hcall.count count hcount with hmem | hmem
    · refine (hknown count hmem).imp_right fun hmem => ?_
      obtain ⟨e, he, hmem⟩ := List.mem_flatMap.mp hmem
      exact List.mem_flatMap.mpr ⟨e, hsuffix.subset he, hmem⟩
    · exact .inr hmem
  | _ => trivial

/-- A task goes on with what it is shown. -/
theorem follows_counts_bind {call : CountCall} {f : call.Result → Action β}
    (hcall : ∀ h, Steadily tenant known h (.store (.counts call)))
    (hf : ∀ answer, Follows (Steadily tenant (shown tenant ⟨.store (.counts call), .ok answer⟩ ++ known))
      (f answer)) : Follows (Steadily tenant known) (counts call >>= f) := by
  refine fun h => keeps_bind.mpr (keeps_counts.mpr ⟨hcall h, fun answer => ?_⟩)
  refine Keeps.of_known (hf answer _) fun count hcount => ?_
  rw [List.flatMap_cons, List.mem_append]
  rcases List.mem_append.mp hcount with hcount | hcount
  · exact .inr (.inl hcount)
  · exact .inl hcount

/-- A count that was looked up is known from then on. -/
theorem keeps_after_get {x : Action α} {seen : Count}
    (hx : Follows (Steadily tenant (count :: seen.id :: known)) x) :
    Keeps (Steadily tenant known) (fun _ _ => True) x
      (⟨.store (.counts (.get tenant count)), .ok (some seen)⟩ :: h) := by
  refine Keeps.of_known (hx _) fun id hid => ?_
  rw [List.flatMap_cons, List.mem_append]
  rcases List.mem_cons.mp hid with rfl | hid
  · exact .inr (.inl (by simp [shown]))
  · rcases List.mem_cons.mp hid with rfl | hid
    · exact .inr (.inl (by simp [shown]))
    · exact .inl hid

theorem follows_getCount_bind {f : Count → Action β}
    (hf : ∀ seen : Count, Follows (Steadily tenant (count :: seen.id :: known)) (f seen)) :
    Follows (Steadily tenant known) (getCount tenant count >>= f) :=
  fun _ => keeps_bind.mpr (steadily_lookups.keeps_getCount.mpr fun seen => keeps_after_get (hf seen))

theorem follows_editableCount_bind {f : Count → Action β}
    (hf : ∀ seen : Count, Follows (Steadily tenant (count :: seen.id :: known)) (f seen)) :
    Follows (Steadily tenant known) (editableCount tenant count >>= f) :=
  fun _ => keeps_bind.mpr
    (steadily_lookups.keeps_editableCount.mpr fun seen _ => keeps_after_get (hf seen))

section Calls

variable {call : CountCall}

theorem steadily_of_tenant (htenant : (StoreCall.counts call).tenant? = some tenant)
    (hcount : (StoreCall.counts call).count? = none) (hsteady : IsSteady (.store (.counts call))) :
    Steadily tenant known h (.store (.counts call)) :=
  ⟨.of_tenant htenant hcount fun _ => nofun, hsteady⟩

theorem steadily_of_known (htenant : (StoreCall.counts call).tenant? = none)
    (hcount : (StoreCall.counts call).count? = some count) (hknown : count ∈ known)
    (hsteady : IsSteady (.store (.counts call))) :
    Steadily tenant known h (.store (.counts call)) :=
  ⟨.of_known htenant hcount hknown, hsteady⟩

end Calls

section Lifecycle

theorem createCount_steady {r : CreateCount} :
    Follows (Steadily tenant known) (Counting.createCount tenant r actor) :=
  checkFields_follows.bind fun _ => counts_follows fun _ => steadily_of_tenant rfl rfl trivial

theorem changeStage_steady {change : StageChange} :
    Follows (Steadily tenant known) (Counting.changeStage tenant count change actor) :=
  follows_getCount_bind fun _ => counts_follows fun _ => steadily_of_tenant rfl rfl trivial

theorem completeCount_steady :
    Follows (Steadily tenant known) (Counting.completeCount tenant count actor) := by
  refine follows_getCount_bind fun seen => ?_
  refine Follows.bind (counts_follows fun _ => steadily_of_tenant rfl rfl trivial) fun updated => ?_
  refine Follows.bind (counts_follows fun _ => ?_) fun _ => pure_follows
  exact steadily_of_known rfl rfl List.mem_cons_self trivial

end Lifecycle

section Recording

variable {i : Item} {qty : Decimal}

theorem recordQuantity_steady (hi : i.count ∈ known) :
    Follows (Steadily tenant known) (recordQuantity i qty actor) := by
  unfold recordQuantity
  split
  · exact check_follows
  · intro h
    simp only [keeps_bind, keeps_arithmetic, keeps_now, keeps_freshId]
    refine fun counted hcounted => ⟨⟨trivial, trivial⟩, fun time => ⟨⟨trivial, trivial⟩, fun id =>
      ⟨⟨trivial, trivial⟩, fun created report _ => keeps_counts.mpr ⟨?_, fun _ => trivial⟩⟩⟩⟩
    have hcount : counted.count = i.count := congrArg Item.Key.count (Item.withCounted_same hcounted).2.1
    exact steadily_of_known rfl rfl (hcount ▸ hi) trivial

theorem addItem_steady {r : AddItem} :
    Follows (Steadily tenant known) (Counting.addItem tenant count r actor) := by
  refine checkFields_follows.bind fun _ => follows_editableCount_bind fun seen => ?_
  refine steadily_aboutStore.now_follows.bind fun time => steadily_aboutStore.freshId_follows.bind fun id => ?_
  refine follows_counts_bind (fun _ => steadily_of_known rfl rfl List.mem_cons_self trivial)
    fun item => ?_
  split
  · exact recordQuantity_steady List.mem_cons_self
  · exact pure_follows

theorem recordInVersion_steady {seen : Count} {item : Id} (hseen : seen.id ∈ known) :
    Follows (Steadily tenant known) (recordInVersion seen item qty actor) := by
  refine follows_counts_bind (fun _ => steadily_of_known rfl rfl hseen trivial) fun answer => ?_
  refine require_follows fun stored hstored => ?_
  subst hstored
  split
  · exact check_follows
  · exact recordQuantity_steady List.mem_cons_self

theorem updateItem_steady {item : Id} {r : RecordQuantity} :
    Follows (Steadily tenant known) (Counting.updateItem tenant count item r actor) :=
  checkFields_follows.bind fun _ => follows_editableCount_bind fun _ =>
    recordInVersion_steady (List.mem_cons_of_mem count List.mem_cons_self)

theorem submitEntries_steady {seen : Count} {summary : SubmitSummary} {entries : List CountEntry}
    (hseen : seen.id ∈ known) :
    Follows (Steadily tenant known) (submitEntries seen actor summary entries) := by
  induction entries generalizing summary with
  | nil => exact pure_follows
  | cons entry entries ih => exact (recordInVersion_steady hseen).attempt.bind fun _ => ih

theorem submit_steady {version : Int} {r : SubmitEntries} :
    Follows (Steadily tenant known) (Counting.submit tenant count version r actor) := by
  refine checkFields_follows.bind fun _ => follows_editableCount_bind fun seen => ?_
  split
  · exact check_follows
  · exact submitEntries_steady (List.mem_cons_of_mem count List.mem_cons_self)

theorem listItems_steady {version : Option Int} :
    Follows (Steadily tenant known) (Counting.listItems tenant count version) :=
  follows_getCount_bind fun _ => counts_follows fun _ =>
    steadily_of_known rfl rfl List.mem_cons_self trivial

end Recording

section Review

theorem nextItems_steady {version : Int} {time : Time} {items : List Item} :
    Follows (Steadily tenant known) (nextItems version time items) := by
  induction items with
  | nil => exact pure_follows
  | cons i items ih =>
    exact steadily_aboutStore.freshId_follows.bind fun _ => ih.bind fun _ => pure_follows

theorem openRecount_steady :
    Follows (Steadily tenant known) (Counting.openRecount tenant count actor) := by
  refine follows_getCount_bind fun seen => ?_
  dsimp only
  split
  · exact check_follows
  · refine Follows.bind (counts_follows fun _ => steadily_of_known rfl rfl List.mem_cons_self trivial)
      fun items => ?_
    split
    · exact pure_follows
    · refine steadily_aboutStore.now_follows.bind fun time => nextItems_steady.bind fun newItems => ?_
      exact Follows.bind (counts_follows fun _ => steadily_of_tenant rfl rfl trivial)
        fun _ => pure_follows

theorem versionHistory_steady :
    Follows (Steadily tenant known) (Counting.versionHistory tenant count) := by
  refine follows_getCount_bind fun seen => ?_
  refine Follows.bind (counts_follows fun _ => steadily_of_known rfl rfl List.mem_cons_self trivial)
    fun items => ?_
  refine Follows.bind (counts_follows fun _ => steadily_of_known rfl rfl List.mem_cons_self trivial)
    fun reports => arithmetic_follows.bind fun _ => pure_follows

theorem listReports_steady {version : Option Int} :
    Follows (Steadily tenant known) (Counting.listReports tenant count version) :=
  follows_getCount_bind fun _ => counts_follows fun _ =>
    steadily_of_known rfl rfl List.mem_cons_self trivial

theorem resolveReport_steady {report : Id} {r : ResolveReport} :
    Follows (Steadily tenant known) (Counting.resolveReport tenant count report r actor) := by
  refine checkFields_follows.bind fun _ => follows_getCount_bind fun seen => ?_
  split
  · exact check_follows
  · refine follows_counts_bind
      (fun _ => steadily_of_known rfl rfl List.mem_cons_self trivial) fun answer => ?_
    refine require_follows fun stored hstored => ?_
    subst hstored
    dsimp only
    split
    · exact check_follows
    · refine steadily_aboutStore.now_follows.bind fun time => counts_follows fun _ => ?_
      exact steadily_of_known rfl rfl List.mem_cons_self trivial

end Review

section Loading

variable {sources : Loading.Sources} {seen : Count} {location : Id}

theorem storeAll_steady {summary : Loading.Summary} {records : List ItemRecord}
    (hseen : seen.id ∈ known) :
    Follows (Steadily tenant known) (Loading.storeAll seen location summary records) := by
  induction records generalizing summary with
  | nil => exact pure_follows
  | cons r records ih =>
    refine steadily_aboutStore.now_follows.bind fun time =>
      steadily_aboutStore.freshId_follows.bind fun id => ?_
    have hupsert : ∀ i : Item, i.count = seen.id →
        Follows (Steadily tenant known) (counts (.upsertItem i)) := fun i hcount =>
      counts_follows fun _ => steadily_of_known rfl rfl (hcount ▸ hseen) trivial
    exact (hupsert (Loading.itemOfRecord seen location r id time) rfl).attempt.bind fun _ => ih

theorem storeRecords_steady {summary : Loading.Summary} {records : List ItemRecord}
    (hseen : seen.id ∈ known) :
    Follows (Steadily tenant known) (Loading.storeRecords seen location summary records) :=
  arithmetic_follows.bind fun _ => storeAll_steady hseen

theorem loadItems_steady {r : Loading.LoadRequest} :
    Follows (Steadily tenant known) (Loading.loadItems sources tenant count r) := by
  rw [Loading.loadItems_eq_seen]
  refine follows_editableCount_bind fun seen => steadily_lookups.loadSeen_follows fun _ _ _ => ?_
  exact storeRecords_steady (List.mem_cons_of_mem count List.mem_cons_self)

theorem importItems_steady {content : File.Content} {filename : String} {place mapping : Option Id} :
    Follows (Steadily tenant known)
      (Loading.importItems tenant count content filename place mapping) := by
  refine follows_editableCount_bind fun seen => steadily_lookups.getGiven_follows.bind fun _ =>
    check_follows.bind fun _ => Follows.bind (storeRecords_steady ?_) fun _ => pure_follows
  exact List.mem_cons_of_mem count List.mem_cons_self

theorem exportItems_steady {version : Option Int} {mapping : Option Id} :
    Follows (Steadily tenant known) (Loading.exportItems tenant count version mapping) :=
  follows_getCount_bind fun _ => steadily_lookups.getGiven_follows.bind fun _ =>
    Follows.bind (counts_follows fun _ => steadily_of_known rfl rfl List.mem_cons_self trivial)
      fun _ => pure_follows

end Loading

section Mappings

variable {connections : Erp.Connections}

theorem createMapping_steady {r : CreateMapping} :
    Follows (Steadily tenant known) (Mapping.create connections tenant r actor) := by
  intro h
  simp only [Mapping.create, keeps_bind, keeps_checkFields, keeps_now, keeps_freshId, keeps_check]
  refine fun _ => ⟨⟨trivial, trivial⟩, fun time => ⟨⟨trivial, trivial⟩, fun id _ _ =>
    keeps_mappings.mpr ⟨⟨?_, trivial⟩, fun _ => trivial⟩⟩⟩
  exact
    { owner := fun owner howner => .inl (Option.some.inj howner).symm
      count := fun _ hc => by cases hc
      fresh := fun m hm => by
        cases hm
        exact List.mem_cons_self }

theorem updateMapping_steady {id : Id} {r : UpdateMapping} :
    Follows (Steadily tenant known) (Mapping.update connections tenant id r) := by
  refine checkFields_follows.bind fun _ h => ?_
  simp only [Mapping.get, keeps_bind, keeps_mappings, keeps_require]
  refine ⟨steadily_lookups.mapping h id, ?_⟩
  rintro _ stored rfl
  simp only [keeps_ite, keeps_fail, keeps_bind, keeps_now, keeps_check]
  refine ⟨fun _ => trivial, fun _ => ⟨⟨trivial, trivial⟩, fun time _ _ =>
    keeps_mappings.mpr ⟨⟨?_, trivial⟩, fun _ => trivial⟩⟩⟩
  -- The mapping that is changed was looked up under the name of the tenant.
  exact
    { owner := fun owner howner => .inr (by simp [owners, ← Option.some.inj howner, Mapping.withChanges])
      count := fun _ hc => by cases hc
      fresh := fun m hm => by cases hm }

theorem setActive_steady {id : Id} {active : Bool} :
    Follows (Steadily tenant known) (Mapping.setActive tenant id active) :=
  mappings_follows fun _ => ⟨.of_tenant rfl rfl fun _ => nofun, trivial⟩

end Mappings

section WritingBack

variable {connections : Erp.Connections} {default : Option Id}

theorem send_steady {r : WriteBack.SendRequest} :
    Follows (Steadily tenant known) (WriteBack.send connections default tenant count r actor) := by
  rw [WriteBack.send_eq_seen]
  refine follows_getCount_bind fun seen => ?_
  have hseen : seen.id ∈ count :: seen.id :: known := List.mem_cons_of_mem count List.mem_cons_self
  split
  · exact check_follows
  · exact steadily_lookups.sendSeen_follows
      (fun _ => steadily_of_known rfl rfl List.mem_cons_self trivial)
      (fun _ => steadily_of_known rfl rfl List.mem_cons_self trivial)
      (fun _ _ _ _ _ => steadily_of_known rfl rfl hseen trivial)
      fun _ => steadily_of_tenant rfl rfl trivial

end WritingBack

end Recount.Concurrent
