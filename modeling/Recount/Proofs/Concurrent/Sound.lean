import Recount.Proofs.Concurrent.Founded

/-!
# Sound worlds

In a sound world the store is sound, no identifier that a task has in reserve is in use
or in reserve elsewhere, and what a task was shown still is where it was, if it is there
at all. So what a task writes always fits the store, whatever happened since it looked.
-/

namespace Recount.Concurrent

open Program (Exchange)

variable {w w' : World} {n : Nat}

/-- An identifier was drawn, and no task has it in reserve. -/
def World.Knows (w : World) (id : Id) : Prop :=
  id ∈ w.drawn ∧ ∀ work ∈ w.works, id ∉ recentIds work.past

/-- An identifier is known, and if there is an item with it, it has this key. -/
def World.Remembers (w : World) (i : Item) : Prop :=
  w.Knows i.id ∧ ∀ j ∈ w.store.items, j.id = i.id → j.key = i.key

/-- What holds of all tasks and their store at any time. -/
structure World.Sound (w : World) : Prop where
  store : w.store.Sound
  keeps : ∀ work ∈ w.works, work.rest.Keeps (Allowed work.task) (fun _ _ => True) work.past
  known : ∀ id ∈ w.store.ids, w.Knows id
  reserve_nodup : ∀ work ∈ w.works, (recentIds work.past).Nodup
  reserve_drawn : ∀ work ∈ w.works, ∀ id ∈ recentIds work.past, id ∈ w.drawn
  /-- No two tasks have one identifier in reserve. -/
  apart : ∀ (m n : Nat) (a b : Work), m ≠ n → w.works[m]? = some a → w.works[n]? = some b →
    ∀ id ∈ recentIds a.past, id ∉ recentIds b.past
  shown : ∀ work ∈ w.works, ∀ i, Shown work.past i → w.Remembers i
  listed : ∀ work ∈ w.works, ∀ count version items,
    ⟨.store (.counts (.listItems count (some version))), .ok items⟩ ∈ work.past →
      (items.map Item.key).Nodup ∧ ∀ i ∈ items, i.count = count ∧ i.version = version ∧ i.Consistent
  report_shown : ∀ work ∈ w.works, ∀ count id r,
    ⟨.store (.counts (.getReport count id)), .ok (some r)⟩ ∈ work.past →
      w.Knows r.id ∧ ∀ q ∈ w.store.reports, q.id = r.id → q.subject = r.subject

theorem World.Sound.empty : World.Sound {} where
  store := .empty
  keeps _ hwork := absurd hwork List.not_mem_nil
  known _ hid := absurd hid List.not_mem_nil
  reserve_nodup _ hwork := absurd hwork List.not_mem_nil
  reserve_drawn _ hwork := absurd hwork List.not_mem_nil
  apart _ _ _ _ _ ha := by cases ha
  shown _ hwork := absurd hwork List.not_mem_nil
  listed _ hwork := absurd hwork List.not_mem_nil
  report_shown _ hwork := absurd hwork List.not_mem_nil

section Begin

variable {sources : Loading.Sources} {t : Task}

theorem mem_begin {work : Work} (h : work ∈ (w.begin sources t).works) :
    work ∈ w.works ∨ work = ⟨t, [], t.program sources⟩ :=
  (List.mem_append.mp h).imp_right List.mem_singleton.mp

theorem getElem?_begin {work : Work} (h : (w.begin sources t).works[n]? = some work) :
    w.works[n]? = some work ∨ (n = w.works.length ∧ work = ⟨t, [], t.program sources⟩) := by
  unfold World.begin at h
  rw [List.getElem?_append] at h
  split at h
  · exact .inl h
  · next hle =>
    obtain ⟨hlt, hwork⟩ := List.getElem?_eq_some_iff.mp h
    rw [List.length_singleton] at hlt
    exact .inr ⟨by omega, (List.mem_singleton.mp (List.mem_of_getElem? h))⟩

theorem World.Knows.begin {id : Id} (h : w.Knows id) : (w.begin sources t).Knows id := by
  refine ⟨h.1, fun work hwork => ?_⟩
  rcases mem_begin hwork with hwork | rfl
  · exact h.2 work hwork
  · exact List.not_mem_nil

theorem World.Sound.begin (h : w.Sound) : (w.begin sources t).Sound where
  store := h.store
  keeps work hwork := by
    rcases mem_begin hwork with hwork | rfl
    · exact h.keeps work hwork
    · exact t.program_keeps sources
  known id hid := (h.known id hid).begin
  reserve_nodup work hwork := by
    rcases mem_begin hwork with hwork | rfl
    · exact h.reserve_nodup work hwork
    · exact List.nodup_nil
  reserve_drawn work hwork := by
    rcases mem_begin hwork with hwork | rfl
    · exact h.reserve_drawn work hwork
    · exact fun id hid => absurd hid List.not_mem_nil
  apart m n a b hne ha hb id hida hidb := by
    rcases getElem?_begin ha with ha | ⟨-, rfl⟩
    · rcases getElem?_begin hb with hb | ⟨-, rfl⟩
      · exact h.apart m n a b hne ha hb id hida hidb
      · exact List.not_mem_nil hidb
    · exact List.not_mem_nil hida
  shown work hwork i hi := by
    rcases mem_begin hwork with hwork | rfl
    · obtain ⟨hknows, hkey⟩ := h.shown work hwork i hi
      exact ⟨hknows.begin, hkey⟩
    · cases hi with
      | read he => exact absurd he List.not_mem_nil
      | inserted he => exact absurd he List.not_mem_nil
  listed work hwork := by
    rcases mem_begin hwork with hwork | rfl
    · exact h.listed work hwork
    · exact fun _ _ _ he => absurd he List.not_mem_nil
  report_shown work hwork count id r he := by
    rcases mem_begin hwork with hwork | rfl
    · obtain ⟨hknows, hsubject⟩ := h.report_shown work hwork count id r he
      exact ⟨hknows.begin, hsubject⟩
    · exact absurd he List.not_mem_nil

end Begin

section Fitting

/-- Identifiers in reserve are new to the store. -/
theorem World.Sound.areNew (h : w.Sound) {work : Work} (hwork : work ∈ w.works) {new ids : List Id}
    (hids : ∀ id ∈ ids, id ∈ recentIds work.past) (hnodup : ids.Nodup)
    (hnew : ∀ id ∈ recentIds work.past, id ∈ new) : w.store.AreNew new ids where
  nodup := hnodup
  mem id hid := hnew id (hids id hid)
  unused id hid hused := (h.known id hused).2 work hwork (hids id hid)

/-- Identifiers that are drawn for a call are new to the store. -/
theorem World.Sound.areNew_supply (h : w.Sound) {supply : Supply} {recent : List Id}
    (hfresh : Fresh w.drawn supply w.store.demand) :
    w.store.AreNew (supply.ids w.store.demand ++ recent) (supply.ids w.store.demand) where
  nodup := hfresh.1
  mem _ hid := List.mem_append_left recent hid
  unused id hid hused := hfresh.2 id hid (h.known id hused).1

/-- What a task may ask of the store always fits it. -/
theorem World.Sound.fits (h : w.Sound) {work : Work} (hwork : work ∈ w.works) {call : CountCall}
    (hallowed : Allowed work.task work.past (.store (.counts call))) {new : List Id}
    (hnew : ∀ id ∈ recentIds work.past, id ∈ new) : w.store.Fits new call := by
  have hsingle : ∀ id ∈ recentIds work.past, w.store.AreNew new [id] := fun id hid =>
    h.areNew hwork (fun _ hid' => List.mem_singleton.mp hid' ▸ hid) (List.nodup_singleton id) hnew
  rcases hallowed with hfounded | ⟨-, r, hr, hsave⟩
  · cases call with
    | change tenant count t =>
      cases hfounded with
      | stage change version actor hchange => exact .stage change version actor hchange
      | completion version actor => exact .completion version actor
      | recount version actor items ids time hitems hids hlength =>
        obtain ⟨hkeys, hlisted⟩ := h.listed work hwork _ _ _ hitems
        have hmem : ∀ id ∈ ids, id ∈ recentIds work.past := by
          intro id hid
          rw [hids]
          exact List.mem_reverse.mpr hid
        have hnodup : ids.Nodup := List.nodup_reverse.mp (hids ▸ h.reserve_nodup work hwork)
        exact .recount version actor items ids time hlisted hkeys (h.areNew hwork hmem hnodup hnew)
          hlength
    | upsertItem i => exact ⟨hfounded.1, hsingle _ hfounded.2⟩
    | insertItem i => exact ⟨hfounded.1, hsingle _ hfounded.2⟩
    | recordItem i change =>
      cases hfounded with
      | @mk shown counted qty report actor time id created hshown hcounted hid hreport =>
        obtain ⟨hcid, hckey, -, hqty⟩ := Item.withCounted_same hcounted
        have hconsistent : counted.Consistent := Item.consistent_of_withCounted hcounted
        refine ⟨fun j hj hjid => ?_, ?_, hconsistent, ?_⟩
        · exact ((h.shown work hwork shown hshown).2 j hj (hjid.trans hcid)).trans hckey.symm
        · exact Option.isSome_iff_exists.mpr ⟨qty, hqty⟩
        · exact ⟨id, created, report, hsingle id hid, hreport, rfl⟩
    | saveReport r => exact hfounded.elim
    | _ => trivial
  · cases hr
    cases hsave with
    | @mk tenant count id seen stored status resolution actor time hseen hstatus hstored hqueries =>
      exact (h.report_shown work hwork _ _ _ hstored).2

/-- A call fits with the identifiers that are drawn for it and those in reserve. -/
theorem World.Sound.fits_call (h : w.Sound) {work : Work} (hwork : work ∈ w.works) {call : CountCall}
    (hallowed : Allowed work.task work.past (.store (.counts call))) (supply : Supply) :
    w.store.Fits (supply.ids w.store.demand ++ recentIds work.past) call :=
  h.fits hwork hallowed fun _ hid => List.mem_append_right _ hid

end Fitting

section Advance

variable {work : Work} {e : Exchange} {rest : Program Request Request.Answer Unit} {s : Store}
  {drawn new : List Id}

theorem getElem?_answered {m : Nat} {other : Work}
    (h : (w.answered n work e rest s drawn).works[m]? = some other) :
    (m = n ∧ other = ⟨work.task, e :: work.past, rest⟩) ∨ (m ≠ n ∧ w.works[m]? = some other) := by
  unfold World.answered at h
  rw [List.getElem?_set] at h
  split at h
  · next heq =>
    split at h
    · cases h
      exact .inl ⟨heq.symm, rfl⟩
    · cases h
  · next hne => exact .inr ⟨fun heq => hne heq.symm, h⟩

theorem mem_answered {other : Work} (h : other ∈ (w.answered n work e rest s drawn).works) :
    other = ⟨work.task, e :: work.past, rest⟩ ∨ ∃ m, m ≠ n ∧ w.works[m]? = some other := by
  obtain ⟨m, hm⟩ := List.mem_iff_getElem?.mp h
  rcases getElem?_answered hm with ⟨-, heq⟩ | ⟨hne, hm⟩
  · exact .inl heq
  · exact .inr ⟨m, hne, hm⟩

/-- What a task has in reserve after it was answered, and what entered the store, it had in reserve
before, or it was drawn now. -/
structure Draws (w : World) (work : Work) (e : Exchange) (drawn new : List Id) : Prop where
  grows : ∀ id ∈ w.drawn, id ∈ drawn
  nodup : (recentIds (e :: work.past)).Nodup
  reserve : ∀ id ∈ recentIds (e :: work.past),
    id ∈ drawn ∧ (id ∈ w.drawn → id ∈ recentIds work.past)
  entered : ∀ id ∈ new, id ∈ drawn ∧ id ∉ recentIds (e :: work.past) ∧
    (id ∈ w.drawn → id ∈ recentIds work.past)

theorem Draws.knows (hdraws : Draws w work e drawn new) (hwork : w.works[n]? = some work) {id : Id}
    (hid : w.Knows id) : (w.answered n work e rest s drawn).Knows id := by
  refine ⟨hdraws.grows id hid.1, fun other hother hmem => ?_⟩
  rcases mem_answered hother with rfl | ⟨m, -, hm⟩
  · exact hid.2 work (List.mem_of_getElem? hwork) ((hdraws.reserve id hmem).2 hid.1)
  · exact hid.2 other (List.mem_of_getElem? hm) hmem

theorem Draws.knows_new (hdraws : Draws w work e drawn new) (h : w.Sound)
    (hwork : w.works[n]? = some work) {id : Id} (hid : id ∈ new) :
    (w.answered n work e rest s drawn).Knows id := by
  obtain ⟨hdrawn, hnot, hold⟩ := hdraws.entered id hid
  refine ⟨hdrawn, fun other hother hmem => ?_⟩
  rcases mem_answered hother with rfl | ⟨m, hne, hm⟩
  · exact hnot hmem
  · have hmem' := hold (h.reserve_drawn other (List.mem_of_getElem? hm) id hmem)
    exact h.apart m n other work hne hm hwork id hmem hmem'

/-- An identifier that is known was not drawn or used just now. -/
theorem Draws.not_mem_new (hdraws : Draws w work e drawn new) (hwork : w.works[n]? = some work)
    {id : Id} (hid : w.Knows id) : id ∉ new :=
  fun hmem => hid.2 work (List.mem_of_getElem? hwork) ((hdraws.entered id hmem).2.2 hid.1)

/-- An answer shows what is stored. -/
structure Truthful (s : Store) (e : Exchange) : Prop where
  shown : ∀ i, Shown [e] i → i ∈ s.items
  listed : ∀ count version items,
    e = ⟨.store (.counts (.listItems count (some version))), .ok items⟩ →
      (items.map Item.key).Nodup ∧ ∀ i ∈ items, i.count = count ∧ i.version = version ∧ i.Consistent
  report_shown : ∀ count id r, e = ⟨.store (.counts (.getReport count id)), .ok (some r)⟩ →
    r ∈ s.reports

theorem Truthful.of_other (he : ∀ call, e.request ≠ .store call) : Truthful s e where
  shown i hi := by
    cases hi with
    | read hmem => exact absurd (congrArg Exchange.request (List.mem_singleton.mp hmem)).symm (he _)
    | inserted hmem =>
      exact absurd (congrArg Exchange.request (List.mem_singleton.mp hmem)).symm (he _)
  listed _ _ _ heq := absurd (congrArg Exchange.request heq) (he _)
  report_shown _ _ _ heq := absurd (congrArg Exchange.request heq) (he _)

theorem Truthful.of_step {call : StoreCall} {answer} {supply : Supply} (hs : s.Sound) {s' : Store}
    (h : s.step supply call = (.ok answer, s')) : Truthful s' ⟨.store call, answer⟩ where
  shown i hi := by
    cases hi with
    | read hmem =>
      cases List.mem_singleton.mp hmem
      exact Store.step_getItem h
    | inserted hmem =>
      cases List.mem_singleton.mp hmem
      exact Store.step_insertItem h
  listed count version items heq := by
    cases heq
    rw [Store.step_listItems h]
    exact hs.listItems
  report_shown count id r heq := by
    cases heq
    exact (Store.step_getReport h).1

section Answered

variable (hdraws : Draws w work e drawn new) (hwork : w.works[n]? = some work)
  (hnext : w.store.Next new s)

include hdraws hwork hnext

theorem Draws.knows_ids (h : w.Sound) {id : Id} (hid : id ∈ s.ids) :
    (w.answered n work e rest s drawn).Knows id := by
  rcases hnext.evolves.mem_ids hid with hid | hid
  · exact hdraws.knows_new h hwork hid
  · exact hdraws.knows hwork (h.known id hid)

theorem Draws.remembers {i : Item} (hi : w.Remembers i) :
    (w.answered n work e rest s drawn).Remembers i := by
  obtain ⟨hknows, hkey⟩ := hi
  refine ⟨hdraws.knows hwork hknows, fun j hj hid => ?_⟩
  rcases hnext.evolves.items j hj with hnew | ⟨k, hk, hkid, hkkey⟩
  · exact absurd (hid ▸ hnew) (hdraws.not_mem_new hwork hknows)
  · exact hkkey ▸ hkey k hk (hkid.trans hid)

theorem Draws.subject_eq {r q : Report} (hknows : w.Knows r.id)
    (hsubject : ∀ q ∈ w.store.reports, q.id = r.id → q.subject = r.subject)
    (hq : q ∈ s.reports) (hid : q.id = r.id) : q.subject = r.subject := by
  rcases hnext.evolves.reports q hq with hnew | ⟨p, hp, hpid, hpsubject⟩
  · exact absurd (hid ▸ hnew) (hdraws.not_mem_new hwork hknows)
  · exact hpsubject ▸ hsubject p hp (hpid.trans hid)

end Answered

/-- What is in reserve stays apart when a task is answered, since what it drew is in no other
reserve. -/
theorem Draws.apart (hdraws : Draws w work e drawn new) (h : w.Sound)
    (hwork : w.works[n]? = some work) {m k : Nat} {a b : Work} (hne : m ≠ k)
    (ha : (w.answered n work e rest s drawn).works[m]? = some a)
    (hb : (w.answered n work e rest s drawn).works[k]? = some b) {id : Id}
    (hida : id ∈ recentIds a.past) (hidb : id ∈ recentIds b.past) : False := by
  rcases getElem?_answered ha with ⟨hmn, rfl⟩ | ⟨hm, ha'⟩ <;>
    rcases getElem?_answered hb with ⟨hkn, rfl⟩ | ⟨hk, hb'⟩
  · exact hne (hmn.trans hkn.symm)
  · have hdrawn := h.reserve_drawn b (List.mem_of_getElem? hb') id hidb
    exact h.apart k n b work hk hb' hwork id hidb ((hdraws.reserve id hida).2 hdrawn)
  · have hdrawn := h.reserve_drawn a (List.mem_of_getElem? ha') id hida
    exact h.apart m n a work hm ha' hwork id hida ((hdraws.reserve id hidb).2 hdrawn)
  · exact h.apart m k a b hne ha' hb' id hida hidb

/-- A world stays sound when a task is answered truly. -/
theorem World.Sound.answered (h : w.Sound) (hwork : w.works[n]? = some work)
    (hrest : rest.Keeps (Allowed work.task) (fun _ _ => True) (e :: work.past))
    (hdraws : Draws w work e drawn new) (hnext : w.store.Next new s) (htrue : Truthful s e) :
    (w.answered n work e rest s drawn).Sound where
  store := hnext.sound
  keeps other hother := by
    rcases mem_answered hother with rfl | ⟨m, -, hm⟩
    · exact hrest
    · exact h.keeps other (List.mem_of_getElem? hm)
  known _ hid := hdraws.knows_ids hwork hnext h hid
  reserve_nodup other hother := by
    rcases mem_answered hother with rfl | ⟨m, -, hm⟩
    · exact hdraws.nodup
    · exact h.reserve_nodup other (List.mem_of_getElem? hm)
  reserve_drawn other hother id hid := by
    rcases mem_answered hother with rfl | ⟨m, -, hm⟩
    · exact (hdraws.reserve id hid).1
    · exact hdraws.grows id (h.reserve_drawn other (List.mem_of_getElem? hm) id hid)
  apart _ _ _ _ hne ha hb _ hida := hdraws.apart h hwork hne ha hb hida
  shown other hother i hi := by
    rcases mem_answered hother with rfl | ⟨m, -, hm⟩
    · rcases hi.cons_cases with hi | hi
      · have hmem := htrue.shown i hi
        refine ⟨hdraws.knows_ids hwork hnext h (Store.item_id_mem_ids hmem), fun j hj hid => ?_⟩
        rw [eq_of_id_eq hnext.sound.items_nodup hj hmem hid]
      · exact hdraws.remembers hwork hnext (h.shown work (List.mem_of_getElem? hwork) i hi)
    · exact hdraws.remembers hwork hnext (h.shown other (List.mem_of_getElem? hm) i hi)
  listed other hother count version items he := by
    rcases mem_answered hother with rfl | ⟨m, -, hm⟩
    · rcases List.mem_cons.mp he with he | he
      · exact htrue.listed count version items he.symm
      · exact h.listed work (List.mem_of_getElem? hwork) count version items he
    · exact h.listed other (List.mem_of_getElem? hm) count version items he
  report_shown other hother count id r he := by
    rcases mem_answered hother with rfl | ⟨m, -, hm⟩
    · rcases List.mem_cons.mp he with he | he
      · have hmem := htrue.report_shown count id r he.symm
        refine ⟨hdraws.knows_ids hwork hnext h (Store.report_id_mem_ids hmem), fun q hq hid => ?_⟩
        rw [eq_of_id_eq hnext.sound.reports_nodup hq hmem hid]
      · obtain ⟨hknows, hsubject⟩ :=
          h.report_shown work (List.mem_of_getElem? hwork) count id r he
        exact ⟨hdraws.knows hwork hknows, fun q => hdraws.subject_eq hwork hnext hknows hsubject⟩
    · obtain ⟨hknows, hsubject⟩ := h.report_shown other (List.mem_of_getElem? hm) count id r he
      exact ⟨hdraws.knows hwork hknows, fun q => hdraws.subject_eq hwork hnext hknows hsubject⟩

/-- A task that stops keeps its history, and the others do not notice. -/
theorem getElem?_stopped (hwork : w.works[n]? = some work) {overflow : Overflow} {m : Nat}
    {other : Work} (h : (w.works.set n { work with rest := .stop overflow })[m]? = some other) :
    ∃ before, w.works[m]? = some before ∧ before.past = other.past ∧
      (other.rest = .stop overflow ∨ other = before) := by
  rw [List.getElem?_set] at h
  split at h
  · next heq =>
    split at h
    · cases h
      exact ⟨work, heq ▸ hwork, rfl, .inl rfl⟩
    · cases h
  · exact ⟨other, h, rfl, .inr rfl⟩

theorem mem_stopped (hwork : w.works[n]? = some work) {overflow : Overflow} {other : Work}
    (h : other ∈ w.works.set n { work with rest := .stop overflow }) :
    ∃ before ∈ w.works, before.past = other.past ∧
      (other.rest = .stop overflow ∨ other = before) := by
  obtain ⟨m, hm⟩ := List.mem_iff_getElem?.mp h
  obtain ⟨before, hbefore, hpast, hrest⟩ := getElem?_stopped hwork hm
  exact ⟨before, List.mem_of_getElem? hbefore, hpast, hrest⟩

theorem World.Knows.stopped {id : Id} (h : w.Knows id) (hwork : w.works[n]? = some work)
    (overflow : Overflow) :
    World.Knows { w with works := w.works.set n { work with rest := .stop overflow } } id := by
  refine ⟨h.1, fun other hother => ?_⟩
  obtain ⟨before, hbefore, hpast, -⟩ := mem_stopped hwork hother
  exact hpast ▸ h.2 before hbefore

/-- A world stays sound when a task stops. -/
theorem World.Sound.stopped (h : w.Sound) (hwork : w.works[n]? = some work) (overflow : Overflow) :
    World.Sound { w with works := w.works.set n { work with rest := .stop overflow } } where
  store := h.store
  keeps other hother := by
    obtain ⟨before, hbefore, hpast, hrest | rfl⟩ := mem_stopped hwork hother
    · rw [hrest]
      trivial
    · exact h.keeps other hbefore
  known id hid := (h.known id hid).stopped hwork overflow
  reserve_nodup other hother := by
    obtain ⟨before, hbefore, hpast, -⟩ := mem_stopped hwork hother
    exact hpast ▸ h.reserve_nodup before hbefore
  reserve_drawn other hother := by
    obtain ⟨before, hbefore, hpast, -⟩ := mem_stopped hwork hother
    exact hpast ▸ h.reserve_drawn before hbefore
  apart m k a b hne ha hb := by
    obtain ⟨a', ha', hapast, -⟩ := getElem?_stopped hwork ha
    obtain ⟨b', hb', hbpast, -⟩ := getElem?_stopped hwork hb
    exact hapast ▸ hbpast ▸ h.apart m k a' b' hne ha' hb'
  shown other hother i hi := by
    obtain ⟨before, hbefore, hpast, -⟩ := mem_stopped hwork hother
    obtain ⟨hid, hkey⟩ := h.shown before hbefore i (hpast ▸ hi)
    exact ⟨hid.stopped hwork overflow, hkey⟩
  listed other hother := by
    obtain ⟨before, hbefore, hpast, -⟩ := mem_stopped hwork hother
    exact hpast ▸ h.listed before hbefore
  report_shown other hother count id r he := by
    obtain ⟨before, hbefore, hpast, -⟩ := mem_stopped hwork hother
    obtain ⟨hid, hsubject⟩ := h.report_shown before hbefore count id r (hpast ▸ he)
    exact ⟨hid.stopped hwork overflow, hsubject⟩

/-- The store that a call of a task leaves is sound, and what is new there was in reserve or is
drawn now. -/
theorem World.Sound.next (h : w.Sound) (hwork : work ∈ w.works) {call : StoreCall} {answer}
    (hallowed : Allowed work.task work.past (.store call)) {supply : Supply} {s' : Store}
    (hfresh : Fresh w.drawn supply w.store.demand)
    (hstep : w.store.step supply call = (answer, s')) :
    w.store.Next (supply.ids w.store.demand ++ recentIds work.past) s' := by
  rcases Store.step_cases hstep with ⟨result, -, hanswer⟩ | ⟨rfl, -⟩
  · cases call with
    | counts call =>
      exact h.store.answer (h.fits_call hwork hallowed supply) (h.areNew_supply hfresh) hanswer
    | mappings call =>
      obtain ⟨hcounts, hitems, hreports, -⟩ := Store.answerMappings_eq_ok hanswer
      exact h.store.next_of_same hcounts hitems hreports
  · exact .refl h.store

/-- What an answer draws and enters, and that it is true. -/
theorem World.Sound.draws (h : w.Sound) (hmem : work ∈ w.works) {q : Request} {answer : q.Answer}
    (hallowed : Allowed work.task work.past q) (hanswer : Answers w.store w.drawn q answer s drawn) :
    ∃ new, Draws w work ⟨q, answer⟩ drawn new ∧ w.store.Next new s ∧ Truthful s ⟨q, answer⟩ := by
  have hreserve : ∀ id ∈ recentIds work.past, id ∈ w.drawn := h.reserve_drawn work hmem
  cases hanswer with
  | @store call answer s' supply hfresh hstep =>
    refine ⟨_, ?_, h.next hmem hallowed hfresh hstep, .of_step h.store hstep⟩
    refine ⟨fun id hid => List.mem_append_right _ hid, List.nodup_nil,
      fun id hid => absurd hid List.not_mem_nil, fun id hid => ?_⟩
    rcases List.mem_append.mp hid with hid | hid
    · exact ⟨List.mem_append_left _ hid, List.not_mem_nil, fun hdrawn =>
        absurd hdrawn (hfresh.2 id hid)⟩
    · exact ⟨List.mem_append_right _ (hreserve id hid), List.not_mem_nil, fun _ => hid⟩
  | erp answer =>
    refine ⟨[], ?_, .refl h.store, .of_other fun call heq => by cases heq⟩
    exact ⟨fun id hid => hid, List.nodup_nil, fun id hid => absurd hid List.not_mem_nil,
      fun id hid => absurd hid List.not_mem_nil⟩
  | @freshId id hfresh =>
    refine ⟨[], ?_, .refl h.store, .of_other fun call heq => by cases heq⟩
    refine ⟨fun id hid => List.mem_cons_of_mem _ hid, ?_, fun id' hid' => ?_,
      fun id hid => absurd hid List.not_mem_nil⟩
    · exact List.nodup_cons.mpr ⟨fun hid => hfresh (hreserve id hid), h.reserve_nodup work hmem⟩
    · rcases List.mem_cons.mp hid' with rfl | hid'
      · exact ⟨List.mem_cons_self, fun hdrawn => absurd hdrawn hfresh⟩
      · exact ⟨List.mem_cons_of_mem _ (hreserve id' hid'), fun _ => hid'⟩
  | now time =>
    refine ⟨[], ?_, .refl h.store, .of_other fun call heq => by cases heq⟩
    exact ⟨fun id hid => hid, h.reserve_nodup work hmem, fun id hid => ⟨hreserve id hid, fun _ => hid⟩,
      fun id hid => absurd hid List.not_mem_nil⟩

/-- A task asks only what it may ask. -/
theorem World.Sound.allowed (h : w.Sound) (hwork : w.works[n]? = some work) {q : Request} {next}
    (hrest : work.rest = .ask q next) : Allowed work.task work.past q := by
  have hkeeps := h.keeps work (List.mem_of_getElem? hwork)
  rw [hrest] at hkeeps
  exact hkeeps.1

/-- A task makes a call about counts that fits, and it is answered. -/
structure Makes (n : Nat) (w w' : World) (call : CountCall) (result : call.Result) (new : List Id)
    (supply : Supply) : Prop where
  asked : ∃ work next, w.works[n]? = some work ∧ work.rest = .ask (.store (.counts call)) next
  log : w'.log = ⟨.store (.counts call), .ok result⟩ :: w.log
  fits : w.store.Fits new call
  fresh : Fresh w.drawn supply w.store.demand
  areNew : w.store.AreNew new (supply.ids w.store.demand)
  answer : w.store.answer supply (.counts call) = .ok (result, w'.store)

/-- Counts, items and reports stay as they are, and no call about them is answered. -/
structure Rests (w w' : World) : Prop where
  counts : w'.store.counts = w.store.counts
  items : w'.store.items = w.store.items
  reports : w'.store.reports = w.store.reports
  log : ∃ last, w'.log = last ++ w.log ∧
    ∀ call result, ⟨.store (.counts call), .ok result⟩ ∉ last

theorem Rests.of_exchange {e : Exchange} (hcounts : w'.store.counts = w.store.counts)
    (hitems : w'.store.items = w.store.items) (hreports : w'.store.reports = w.store.reports)
    (hlog : w'.log = e :: w.log) (he : ∀ call result, e ≠ ⟨.store (.counts call), .ok result⟩) :
    Rests w w' where
  counts := hcounts
  items := hitems
  reports := hreports
  log := ⟨[e], hlog, fun call result hmem => he call result (List.mem_singleton.mp hmem).symm⟩

theorem Rests.ne_of_log {e : Exchange} (h : Rests w w') (hlog : w'.log = e :: w.log)
    (call : CountCall) (result : call.Result) : e ≠ ⟨.store (.counts call), .ok result⟩ := by
  rintro rfl
  obtain ⟨last, hlast, hnot⟩ := h.log
  obtain rfl : [_] = last := List.append_cancel_right (hlog.symm.trans hlast)
  exact hnot call result (List.mem_singleton_self _)

/-- When a task goes on, a call about counts is answered, or none of them changes. -/
theorem World.Sound.advance_cases (h : w.Sound) (hadvance : Advance n w w') :
    (∃ call result new supply, Makes n w w' call result new supply) ∨ Rests w w' := by
  cases hadvance with
  | @answered work q next answer s' drawn' hwork hrest hanswer =>
    have hallowed := h.allowed hwork hrest
    cases hanswer with
    | @store call answer s' supply hfresh hstep =>
      rcases Store.step_cases hstep with ⟨result, heq, hanswer⟩ | ⟨rfl, hnot⟩
      · cases heq
        cases call with
        | mappings call =>
          obtain ⟨hcounts, hitems, hreports, -⟩ := Store.answerMappings_eq_ok hanswer
          refine .inr (.of_exchange hcounts hitems hreports rfl fun call result heq => ?_)
          injection heq with heq
          cases heq
        | counts call =>
          have hfits := h.fits_call (List.mem_of_getElem? hwork) hallowed supply
          exact .inl ⟨call, result, _, supply, ⟨work, next, hwork, hrest⟩, rfl, hfits, hfresh,
            h.areNew_supply hfresh, hanswer⟩
      · refine .inr (.of_exchange rfl rfl rfl rfl fun call result heq => ?_)
        cases heq
        exact hnot result rfl
    | _ =>
      refine .inr (.of_exchange rfl rfl rfl rfl fun call result heq => ?_)
      injection heq with heq
      cases heq
  | stopped => exact .inr ⟨rfl, rfl, rfl, [], rfl, fun call result => List.not_mem_nil⟩

theorem World.Sound.advance (h : w.Sound) (hadvance : Advance n w w') : w'.Sound := by
  cases hadvance with
  | @answered work q next answer s' drawn' hwork hrest hanswer =>
    have hmem : work ∈ w.works := List.mem_of_getElem? hwork
    have hkeeps := h.keeps work hmem
    rw [hrest] at hkeeps
    obtain ⟨new, hdraws, hnext, htrue⟩ := h.draws hmem (h.allowed hwork hrest) hanswer
    exact h.answered hwork (hkeeps.2 answer) hdraws hnext htrue
  | stopped hwork hrest supply hfresh hstep => exact h.stopped hwork _

end Advance

/-- Every world that is reached is sound. -/
theorem Reachable.sound {sources : Loading.Sources} {alone : Task → Prop}
    (hw : Reachable sources alone w) : w.Sound :=
  hw.induction .empty (fun _ _ h => h.begin) fun _ _ _ h hadvance => h.advance hadvance

end Recount.Concurrent
