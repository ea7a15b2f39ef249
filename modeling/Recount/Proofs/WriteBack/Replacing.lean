import Recount.Proofs.Concurrent.History
import Recount.Proofs.Decimal.Numeral
import Recount.Proofs.WriteBack.Retries
import Mathlib.Data.List.Induction

/-!
# What a planning system holds afterwards

A statement that replaces a quantity names its row by the code of the item alone, and items in
different places may have one code. So what is held of a code in the end is the value of the last
item with this code whose statement was accepted, whatever is recorded of the ones before.
-/

namespace Recount.WriteBack

open Concurrent (Exchange)
open Program (Rule)

/-- The number that a parameter denotes: an integer, or what a numeral denotes. -/
def number? : Json → Option ℚ
  | .num (.int n) => some n
  | .str numeral => (Decimal.ofNumeral? numeral).map Decimal.value
  | _ => none

/-- A quantity is passed exactly. -/
theorem number?_toParameter (d : Decimal) : number? d.toParameter = some d.value := by
  have hnumeral : number? (.str d.normalize.toNumeral) = some d.value := by
    obtain ⟨e, hread, hvalue⟩ := Decimal.exists_ofNumeral?_toNumeral d.normalize
    rw [number?, hread, Option.map_some, hvalue, Decimal.normalize_value]
  unfold Decimal.toParameter
  split
  · next n hint =>
    split
    · rw [Decimal.value_of_toInt? hint]
      rfl
    · exact hnumeral
  · exact hnumeral

/-- The quantities that a planning system holds, by the values of its key column. -/
abbrev Holdings := String → ℚ

namespace Holdings

/-- A statement that replaces the quantity of a code sets it, if the statement is accepted. -/
def write (held : Holdings) : Sql.Query × Bool → Holdings
  | (⟨_, [value, .str code]⟩, true) =>
    (number? value).elim held fun quantity => Function.update held code quantity
  | _ => held

/-- What is held after the statements of a task. -/
def after (held : Holdings) (past : List Exchange) : Holdings := (sent past).foldl write held

/-- What would be held if all that is recorded as written were there. -/
def note (held : Holdings) (d : WriteDetail) : Holdings :=
  if d.success then Function.update held d.code d.value.value else held

end Holdings

/-- The last item of a code that is recorded as written. -/
def lastWritten? (details : List WriteDetail) (code : String) : Option WriteDetail :=
  (details.filter fun d => d.success && d.code = code).getLast?

section Effects

variable {held : Holdings} {dialect : Sql.Dialect} {target : Target} {items : List Item}
  {answers : List (Except Error (List Row))} {details : List WriteDetail} {code : String}

/-- A statement does what is recorded of it. -/
theorem write_written {i : Item} {answer : Except Error (List Row)} :
    held.write (written dialect target .replace i answer) =
      held.note (recorded .replace i answer) := by
  cases answer with
  | ok rows =>
    change (number? (valueFor .replace i).toParameter).elim held _ = _
    rw [number?_toParameter]
    rfl
  | error e => rfl

theorem foldl_write_written :
    (List.zipWith (written dialect target .replace) items answers).foldl Holdings.write held =
      (List.zipWith (recorded .replace) items answers).foldl Holdings.note held := by
  induction items generalizing held answers with
  | nil => rfl
  | cons i items ih =>
    cases answers with
    | nil => rfl
    | cons answer answers =>
      rw [List.zipWith_cons_cons, List.zipWith_cons_cons, List.foldl_cons, List.foldl_cons,
        write_written, ih]

/-- What is recorded last of a code decides. -/
theorem foldl_note :
    details.foldl Holdings.note held code =
      (lastWritten? details code).elim (held code) (·.value.value) := by
  induction details using List.reverseRecOn with
  | nil => rfl
  | append_singleton details d ih =>
    rw [List.foldl_append, List.foldl_cons, List.foldl_nil, lastWritten?, List.filter_append]
    by_cases hlast : d.success = true ∧ d.code = code
    · obtain ⟨hsuccess, rfl⟩ := hlast
      simp [Holdings.note, hsuccess]
    · have hnot : (d.success && decide (d.code = code)) = false := by simpa using hlast
      have hsame : (details.foldl Holdings.note held).note d code =
          details.foldl Holdings.note held code := by
        unfold Holdings.note
        split
        · next hsuccess =>
          exact Function.update_of_ne (fun heq => hlast ⟨hsuccess, heq.symm⟩) _ _
        · rfl
      rw [hsame, ih, List.filter_cons_of_neg (by simpa using hlast), List.filter_nil,
        List.append_nil]
      rfl

/-- What is recorded as written is held just if no two items of one code were written with
different quantities. -/
theorem foldl_note_iff :
    (∀ d ∈ details, d.success = true → details.foldl Holdings.note held d.code = d.value.value) ↔
      ∀ d ∈ details, ∀ e ∈ details, d.success = true → e.success = true → d.code = e.code →
        d.value.value = e.value.value := by
  constructor
  · intro hheld d hd e he hdsuccess hesuccess hcode
    rw [← hheld d hd hdsuccess, hcode, hheld e he hesuccess]
  · intro hsame d hd hsuccess
    have hmem : d ∈ details.filter fun e => e.success && e.code = d.code :=
      List.mem_filter.mpr ⟨hd, by simp [hsuccess]⟩
    obtain ⟨last, hlast⟩ := Option.ne_none_iff_exists'.mp
      (fun hnone => List.ne_nil_of_mem hmem (List.getLast?_eq_none_iff.mp hnone))
    obtain ⟨hlastmem, hwritten⟩ := List.mem_filter.mp (List.mem_of_getLast? hlast)
    obtain ⟨hlastsuccess, hcode⟩ : last.success = true ∧ last.code = d.code := by
      simpa using hwritten
    rw [foldl_note, lastWritten?, hlast]
    exact hsame last hlastmem d hd hlastsuccess hsuccess hcode

end Effects

/-- What is recorded of items tells what became of their statements, or why none was sent. -/
inductive Tells (strategy : Strategy) (items : List Item) (past : List Exchange)
    (details : List WriteDetail) : Prop
  | held (dialect : Sql.Dialect) (target : Target) {answers : List (Except Error (List Row))}
      (hlength : answers.length = items.length)
      (hsent : sent past = List.zipWith (written dialect target strategy) items answers)
      (hdetails : details = List.zipWith (recorded strategy) items answers)
  | unopened {e : Error} (hsent : sent past = [])
      (hdetails : details = items.map fun i => recorded strategy i (.error e))

/-- An attempt tells what became of the items that were to be written of a completed count, as they
were listed to the task that made it. -/
structure WritesBack (count : Id) (strategy : Strategy) (past : List Exchange) (a : Attempt)
    (c : Count) (stored : List Item) (reports : List Report) : Prop where
  status : c.status = .completed
  version : a.version = c.currentVersion
  listed : ⟨.store (.counts (.listItems count (some c.currentVersion))), .ok stored⟩ ∈ past
  reported : ⟨.store (.counts (.listReports count (some c.currentVersion))), .ok reports⟩ ∈ past
  tells : Tells strategy (itemsToWrite stored reports) past a.details

section Details

variable {strategy : Strategy} {items : List Item} {past : List Exchange}
  {details : List WriteDetail} {held : Holdings}

/-- What is held after replacing statements is what is recorded of them. -/
theorem Tells.after_eq (h : Tells .replace items past details) :
    held.after past = details.foldl Holdings.note held := by
  unfold Holdings.after
  cases h with
  | held _ _ _ hsent hdetails => rw [hsent, hdetails, foldl_write_written]
  | unopened hsent hdetails =>
    rw [hsent, hdetails, List.foldl_map]
    clear hdetails
    induction items with
    | nil => rfl
    | cons i items ih => exact ih

/-- Every detail is of an item that was to be written, with the value that was written for it. -/
theorem Tells.exists_item (h : Tells strategy items past details) {d : WriteDetail}
    (hd : d ∈ details) : ∃ i ∈ items, d.item = i.id ∧ d.code = i.code ∧
      d.value = valueFor strategy i := by
  have hrecorded : ∃ i ∈ items, ∃ answer, d = recorded strategy i answer := by
    cases h with
    | held _ _ _ _ hdetails =>
      subst hdetails
      obtain ⟨k, hk, rfl⟩ := List.mem_iff_getElem.mp hd
      rw [List.getElem_zipWith]
      exact ⟨_, List.getElem_mem _, _, rfl⟩
    | unopened _ hdetails =>
      subst hdetails
      obtain ⟨i, hi, rfl⟩ := List.mem_map.mp hd
      exact ⟨i, hi, _, rfl⟩
  obtain ⟨i, hi, answer, rfl⟩ := hrecorded
  cases answer <;> exact ⟨i, hi, rfl, rfl, rfl⟩

/-- Every item that is to be written was counted, so there is a value to replace by. -/
theorem haveValues_replace {stored : List Item} {reports : List Report} :
    HaveValues .replace (itemsToWrite stored reports) := by
  intro i hi
  obtain ⟨-, hwrite⟩ := List.mem_filter.mp hi
  cases hcounted : i.countedQty with
  | none => simp [hcounted] at hwrite
  | some counted => simp [valueFor, valueOf?, hcounted]

theorem countedQty_of_mem_itemsToWrite {stored : List Item} {reports : List Report} {i : Item}
    (hi : i ∈ itemsToWrite stored reports) : i.countedQty = some (valueFor .replace i) := by
  have hvalue := haveValues_replace i hi
  cases hcounted : i.countedQty with
  | none => simp [valueOf?, hcounted] at hvalue
  | some counted => simp [valueFor, valueOf?, hcounted]

end Details

section Program

/-- No attempt was recorded yet. -/
def Unrecorded (past : List Exchange) : Prop :=
  ∀ e ∈ past, ∀ a, e.request ≠ .store (.counts (.addAttempt a))

/-- All statements are sent before the attempt is recorded, which tells what became of them. -/
def Orderly (count : Id) (strategy : Strategy) : Rule Request Request.Answer := fun past q =>
  match q with
  | .erp _ (.query _) => Unrecorded past
  | .store (.counts (.addAttempt a)) =>
    ∃ c stored reports, WritesBack count strategy past a c stored reports
  | _ => True

variable {count tenant actor connection : Id} {strategy : Strategy} {past : List Exchange}
  {items : List Item} {dialect : Sql.Dialect} {target : Target}

theorem Unrecorded.cons {e : Exchange} (h : Unrecorded past)
    (he : ∀ a, e.request ≠ .store (.counts (.addAttempt a))) : Unrecorded (e :: past) := by
  intro e' he'
  rcases List.mem_cons.mp he' with rfl | he'
  · exact he
  · exact h e' he'

/-- Items were written before the attempt is recorded, each by its statement. -/
structure Sent (dialect : Sql.Dialect) (target : Target) (strategy : Strategy) (items : List Item)
    (answers : List (Except Error (List Row))) (past past' : List Exchange) : Prop where
  length : answers.length = items.length
  sent : sent past' = sent past ++ List.zipWith (written dialect target strategy) items answers
  unrecorded : Unrecorded past'
  suffix : past <:+ past'

/-- The items are written one after the other, whatever the answers are. -/
theorem keeps_writeItems (hvalues : HaveValues strategy items) (hpast : Unrecorded past) :
    (writeItems connection dialect target strategy items).run.Keeps (Orderly count strategy)
      (fun result past' => ∃ answers, Sent dialect target strategy items answers past past' ∧
        result = .ok (List.zipWith (recorded strategy) items answers)) past := by
  induction items generalizing past with
  | nil => exact ⟨[], ⟨rfl, by simp, hpast, List.suffix_refl _⟩, rfl⟩
  | cons i items ih =>
    have hvalue := hvalues i List.mem_cons_self
    have hothers : HaveValues strategy items := fun j hj => hvalues j (List.mem_cons_of_mem i hj)
    unfold writeItems
    rw [hvalue]
    refine ⟨hpast, fun answer => ?_⟩
    let statement := target.statement dialect strategy i.code (valueFor strategy i)
    have hasked : Unrecorded (⟨.erp connection (.query statement), answer⟩ :: past) :=
      hpast.cons fun a heq => by cases heq
    have hnext := ih hothers hasked
    refine Action.keeps_run_bind.mpr (hnext.mono (fun _ _ h => h) ?_)
    rintro _ past' - ⟨answers, hsent, rfl⟩
    refine ⟨answer.mapError .erp :: answers, ⟨by simp [hsent.length], ?_, hsent.unrecorded,
      (List.suffix_cons _ _).trans hsent.suffix⟩, rfl⟩
    rw [hsent.sent, sent_cons]
    cases answer <;> simp [statement?, written, statement, Except.mapError, Except.isOk, Except.toBool]

/-- A session ends with what became of all items, or it was not opened. -/
theorem keeps_withSession (hvalues : HaveValues strategy items) (hpast : Unrecorded past)
    (hsilent : sent past = []) :
    (Erp.withSession connection (writeItems connection dialect target strategy items)).run.Keeps
      (Orderly count strategy)
      (fun result past' => past <:+ past' ∧ Unrecorded past' ∧
        ((∃ details, result = .ok details ∧ Tells strategy items past' details) ∨
          ∃ e, result = .error e ∧ sent past' = [])) past := by
  unfold Erp.withSession
  refine ⟨trivial, fun answer => ?_⟩
  let opening : Exchange := ⟨.erp connection .connect, answer⟩
  have hopening : Unrecorded (opening :: past) := hpast.cons fun a heq => by cases heq
  have hopened : sent (opening :: past) = [] := by rw [sent_cons, hsilent]; rfl
  cases answer with
  | error fault =>
    refine ⟨trivial, fun closing => ⟨?_, hopening.cons (fun a heq => by cases heq), .inr ⟨_, rfl, ?_⟩⟩⟩
    · exact (List.suffix_cons _ _).trans (List.suffix_cons _ _)
    · rw [sent_cons, hopened]
      rfl
  | ok u =>
    refine Action.keeps_run_bind.mpr (Action.keeps_run_attempt.mpr ?_)
    refine (keeps_writeItems hvalues hopening).mono (fun _ _ h => h) ?_
    rintro _ past' - ⟨answers, hsent, rfl⟩
    refine ⟨trivial, fun closing => ⟨?_, hsent.unrecorded.cons (fun a heq => by cases heq),
      .inl ⟨_, rfl, .held dialect target hsent.length ?_ rfl⟩⟩⟩
    · exact ((List.suffix_cons _ _).trans hsent.suffix).trans (List.suffix_cons _ _)
    · rw [sent_cons, hsent.sent, hopened]
      simp [statement?]

theorem Tells.of_sent_eq {past' : List Exchange} {details : List WriteDetail}
    (h : Tells strategy items past details) (hsent : sent past' = sent past) :
    Tells strategy items past' details := by
  cases h with
  | held dialect target hlength hsent' hdetails =>
    exact .held dialect target hlength (hsent.trans hsent') hdetails
  | unopened hsent' hdetails => exact .unopened (hsent.trans hsent') hdetails

/-- Where to write is told by one look at the mappings. -/
theorem keeps_resolveTarget {default : Option Id} {r : SendRequest}
    {post : Target × Id → List Exchange → Prop}
    (hpost : ∀ answer found,
      post found (⟨.store (.mappings (.findActive tenant .stock)), .ok answer⟩ :: past)) :
    Action.Keeps (Orderly count strategy) post (resolveTarget tenant default r) past := by
  unfold resolveTarget
  simp only [Action.keeps_bind, Action.keeps_mappings, Action.keeps_check]
  refine ⟨trivial, fun answer target _ _ _ => ?_⟩
  split
  · exact Action.keeps_pure.mpr (hpost answer _)
  · exact Action.keeps_fail.mpr trivial

/-- The attempt is recorded with the details that were told, and no statement is sent after that. -/
theorem keeps_finish {c : Count} {stored : List Item} {reports : List Report} {started : Time}
    {session : Except Error (List WriteDetail)} {details : List WriteDetail}
    (hstatus : c.status = .completed)
    (hlisted : ⟨.store (.counts (.listItems count (some c.currentVersion))), .ok stored⟩ ∈ past)
    (hreported :
      ⟨.store (.counts (.listReports count (some c.currentVersion))), .ok reports⟩ ∈ past)
    (htells : Tells strategy (itemsToWrite stored reports) past details) :
    Action.Keeps (Orderly count strategy) (fun _ _ => True)
      (finish c tenant count strategy actor started session details) past := by
  unfold finish
  simp only [Action.keeps_bind, Action.keeps_freshId, Action.keeps_now, Action.keeps_counts,
    Action.keeps_check, Action.keeps_ite, Action.keeps_pure]
  refine ⟨trivial, fun id => ⟨trivial, fun completed => ⟨?_, fun _ _ _ _ _ => ?_⟩⟩⟩
  · refine ⟨c, stored, reports, hstatus, rfl, ?_, ?_, htells.of_sent_eq ?_⟩
    · exact List.mem_cons_of_mem _ (List.mem_cons_of_mem _ hlisted)
    · exact List.mem_cons_of_mem _ (List.mem_cons_of_mem _ hreported)
    · simp [statement?]
  · exact ⟨fun _ => ⟨trivial, fun _ => trivial⟩, fun _ => trivial⟩

/-- An attempt that replaces quantities is recorded after all statements, with what became of
them. -/
theorem keeps_send {connections : Erp.Connections} {default : Option Id} {r : SendRequest}
    (hreplace : r.strategy = .replace) :
    Action.Keeps (Orderly count .replace) (fun _ _ => True)
      (send connections default tenant count r actor) [] := by
  obtain ⟨strategy, target, connection⟩ := r
  obtain rfl : strategy = .replace := hreplace
  unfold send Counting.getCount
  simp only [Action.keeps_bind, Action.keeps_counts, Action.keeps_require, Action.keeps_ite,
    Action.keeps_fail]
  refine ⟨trivial, fun answer c _ => ⟨fun _ => trivial, fun hstatus => ?_⟩⟩
  have hstatus : c.status = .completed := not_not.mp hstatus
  refine keeps_resolveTarget fun answer found => ?_
  simp only [Action.keeps_now, Action.keeps_check]
  refine ⟨trivial, fun reports => ⟨trivial, fun stored => ⟨trivial, fun started dialect _ => ?_⟩⟩⟩
  refine Action.keeps_attempt.mpr ((keeps_withSession haveValues_replace ?_ ?_).mono
    (fun _ _ h => h) ?_)
  · intro e he a heq
    simp only [List.mem_cons, List.not_mem_nil, or_false] at he
    rcases he with rfl | rfl | rfl | rfl | rfl <;> cases heq
  · simp [statement?]
  · rintro session past' - ⟨hsuffix, -, hsession⟩
    have hlisted := hsuffix.subset (List.mem_cons_of_mem _ List.mem_cons_self)
    have hreported := hsuffix.subset
      (List.mem_cons_of_mem _ (List.mem_cons_of_mem _ List.mem_cons_self))
    rcases hsession with ⟨details, rfl, htells⟩ | ⟨e, rfl, hsent⟩
    · exact Action.keeps_bind.mpr (Action.keeps_pure.mpr
        (keeps_finish hstatus hlisted hreported htells))
    · refine Action.keeps_bind.mpr (Action.keeps_arithmetic.mpr fun details hdetails => ?_)
      rw [failedDetails_eq haveValues_replace] at hdetails
      cases hdetails
      exact keeps_finish hstatus hlisted hreported (.unopened hsent rfl)

end Program

section Runs

open Concurrent (World Work Reachable Step Move nobody played played_reachable goOn newCount newItem
  oneDigit exchanged_since)

/-- The attempt that an exchange records. -/
def attempt? : Exchange → Option Attempt
  | ⟨.store (.counts (.addAttempt a)), _⟩ => some a
  | _ => none

/-- The attempts that a task has recorded. -/
def attempts (past : List Exchange) : List Attempt := past.filterMap attempt?

variable {sources : Loading.Sources} {w : World} {work : Work} {tenant count actor : Id}
  {r : SendRequest} {a : Attempt}

theorem sent_append {later earlier : List Exchange} :
    sent (later ++ earlier) = sent earlier ++ sent later := by
  unfold sent
  rw [List.reverse_append, List.filterMap_append]

/-- A task that has recorded an attempt to replace quantities has sent the statements that the
attempt tells of, and sends no other. -/
theorem writesBack_of_mem_attempts (hw : Reachable sources nobody w) (hwork : work ∈ w.works)
    (htask : work.task = .send tenant count r actor) (hreplace : r.strategy = .replace)
    (hrecorded : a ∈ attempts work.past) :
    ∃ c stored reports, WritesBack count .replace work.past a c stored reports := by
  obtain ⟨rest, hrest, -⟩ := hw.reaches hwork
  rw [htask] at hrest
  obtain ⟨rest', hrest', -⟩ := Program.Reaches.of_bind_done hrest
  obtain ⟨-, hkept⟩ := hrest'.keeps (keeps_send hreplace)
  obtain ⟨e, he, hattempt⟩ := List.mem_filterMap.mp hrecorded
  obtain ⟨later, earlier, hpast⟩ := List.append_of_mem he
  have hrequest : e.request = .store (.counts (.addAttempt a)) := by
    unfold attempt? at hattempt
    split at hattempt
    · cases hattempt
      rfl
    · cases hattempt
  have hrule := hkept later e earlier hpast
  rw [hrequest] at hrule
  obtain ⟨c, stored, reports, h⟩ := hrule
  have hmem : ∀ e' ∈ earlier, e' ∈ work.past := fun e' he' =>
    hpast ▸ List.mem_append_right later (List.mem_cons_of_mem e he')
  have hsilent : sent later = [] := by
    refine List.filterMap_eq_nil_iff.mpr fun e' he' => ?_
    obtain ⟨last, between, hlater⟩ := List.append_of_mem (List.mem_reverse.mp he')
    have hrule' := hkept last e' (between ++ e :: earlier) (by simp [hpast, hlater])
    unfold statement?
    split
    · -- A statement is sent only as long as no attempt was recorded.
      exact absurd hrequest (hrule' e (List.mem_append_right _ List.mem_cons_self) a)
    · rfl
  have hrecording : statement? e = none := by
    unfold statement?
    split
    · cases hrequest
    · rfl
  refine ⟨c, stored, reports, h.status, h.version, hmem _ h.listed, hmem _ h.reported,
    h.tells.of_sent_eq ?_⟩
  rw [hpast, sent_append, sent_cons, hrecording, hsilent]
  simp

/-- An attempt that replaces quantities records the counted quantity of every item that was to be
written, in places that are all different. Of each code, the planning system holds in the end what
was written last for it. So it holds all that is recorded as written just if no two of these items
have one code and different quantities. -/
theorem replaced_iff (hw : Reachable sources nobody w) (hwork : work ∈ w.works)
    (htask : work.task = .send tenant count r actor) (hreplace : r.strategy = .replace)
    (hrecorded : a ∈ attempts work.past) (held : Holdings) :
    (∃ c stored reports, WritesBack count .replace work.past a c stored reports ∧
      (stored.map Item.key).Nodup ∧ ∀ d ∈ a.details, ∃ i ∈ itemsToWrite stored reports,
        d.item = i.id ∧ d.code = i.code ∧ i.countedQty = some d.value) ∧
    (∀ code, held.after work.past code =
      (lastWritten? a.details code).elim (held code) (·.value.value)) ∧
    ((∀ d ∈ a.details, d.success = true → held.after work.past d.code = d.value.value) ↔
      ∀ d ∈ a.details, ∀ e ∈ a.details, d.success = true → e.success = true → d.code = e.code →
        d.value.value = e.value.value) := by
  obtain ⟨c, stored, reports, h⟩ := writesBack_of_mem_attempts hw hwork htask hreplace hrecorded
  have hdistinct := (hw.sound.listed work hwork _ _ _ h.listed).1
  rw [h.tells.after_eq]
  refine ⟨⟨c, stored, reports, h, hdistinct, fun d hd => ?_⟩, fun code => foldl_note, foldl_note_iff⟩
  obtain ⟨i, hi, hitem, hcode, hvalue⟩ := h.tells.exists_item hd
  exact ⟨i, hi, hitem, hcode, hvalue ▸ countedQty_of_mem_itemsToWrite hi⟩

/-- Quantities are sent to be replaced. -/
def replaceAll : SendRequest := ⟨.replace, some ⟨"stock", "qty", "code"⟩, some (.ofNat 9)⟩

/-- What a task recorded that sends the first count, after some moves and alone. -/
theorem exists_attempt {moves : List Move} {first rounds : Nat} {p : Attempt → Bool}
    (h : (((played oneConnection moves).begin oneConnection
        (.send (.ofNat 1) (.ofNat 1000) replaceAll (.ofNat 3))).play? oneConnection
          (goOn first (played oneConnection moves).works.length rounds)).any (fun w =>
      (w.works[(played oneConnection moves).works.length]?).any fun work =>
        (attempts work.past).any p) = true) :
    ∃ w work a, Reachable oneConnection nobody w ∧ work ∈ w.works ∧
      work.task = .send (.ofNat 1) (.ofNat 1000) replaceAll (.ofNat 3) ∧
      a ∈ attempts work.past ∧ p a = true := by
  have hplayed : Reachable oneConnection nobody (played oneConnection moves) :=
    played_reachable fun _ _ h => h
  have hbegun := hplayed.tail (.begin (.send (.ofNat 1) (.ofNat 1000) replaceAll (.ofNat 3))
    fun h => h)
  obtain ⟨w, hplay, hfound⟩ := (Option.any_eq_true _ _).mp h
  have hrun : Relation.ReflTransGen (Step oneConnection nobody) _ w :=
    World.play?_steps (fun _ _ h => h) hplay
  obtain ⟨work, hwork, hrecorded⟩ := (Option.any_eq_true _ _).mp hfound
  obtain ⟨a, ha, hp⟩ := List.any_eq_true.mp hrecorded
  obtain ⟨after, hafter, htask, -⟩ := exchanged_since hrun World.getElem?_begin_length
  cases hwork.symm.trans hafter
  exact ⟨w, work, a, hbegun.trans hrun, List.mem_of_getElem? hwork, htask, ha, hp⟩

theorem replaced_iff_twoItems :
    ∃ w work a, Reachable oneConnection nobody w ∧ work ∈ w.works ∧ a ∈ attempts work.past ∧
      a.details.map (fun d => (d.code, d.value, d.success)) =
        [("A", oneDigit 2, true), ("B", oneDigit 2, true)] ∧
      ∀ held : Holdings, ∀ d ∈ a.details, held.after work.past d.code = d.value.value := by
  have hplay : (((played oneConnection twoItems).begin oneConnection
      (.send (.ofNat 1) (.ofNat 1000) replaceAll (.ofNat 3))).play? oneConnection
        (goOn 23 (played oneConnection twoItems).works.length 13)).any (fun w =>
      (w.works[(played oneConnection twoItems).works.length]?).any fun work =>
        (attempts work.past).any fun a =>
          a.details.map (fun d => (d.code, d.value, d.success)) =
            [("A", oneDigit 2, true), ("B", oneDigit 2, true)]) = true := by
    decide +kernel
  obtain ⟨w, work, a, hw, hwork, htask, ha, hdetails⟩ := exists_attempt hplay
  have hdetails := of_decide_eq_true hdetails
  have hcases : ∀ d ∈ a.details, d.success = true ∧ d.value = oneDigit 2 := by
    intro d hd
    have hmem := List.mem_map_of_mem (f := fun d => (d.code, d.value, d.success)) hd
    rw [hdetails] at hmem
    simp only [List.mem_cons, List.not_mem_nil, or_false, Prod.mk.injEq] at hmem
    rcases hmem with ⟨-, hvalue, hsuccess⟩ | ⟨-, hvalue, hsuccess⟩ <;> exact ⟨hsuccess, hvalue⟩
  refine ⟨w, work, a, hw, hwork, ha, hdetails, fun held d hd => ?_⟩
  obtain ⟨-, -, hiff⟩ := replaced_iff hw hwork htask rfl ha held
  refine hiff.mpr (fun d hd e he _ _ _ => ?_) d hd (hcases d hd).1
  rw [(hcases d hd).2, (hcases e he).2]

/-- Two of an item are counted in one place and three in another, and the count is completed and
approved. -/
def twoPlaces : List Move :=
  .begin newCount :: goOn 1 0 1 ++
    .begin (newItem "A" (some (oneDigit 2))) :: goOn 2 1 8 ++
    .begin (.addItem (.ofNat 1) (.ofNat 1000)
      ⟨.ofNat 6, "A", "A", none, none, .zero, some (oneDigit 3)⟩ (.ofNat 3)) :: goOn 10 2 8 ++
    .begin (.completeCount (.ofNat 1) (.ofNat 1000) (.ofNat 3)) :: goOn 18 3 3 ++
    .begin (.changeStage (.ofNat 1) (.ofNat 1000) ⟨.finalize, finalize_mem_stageChanges⟩ (.ofNat 3)) ::
      goOn 21 4 2

/-- The quantity of the second place replaces the one of the first, which is recorded as written
all the same. -/
theorem not_replaced : ¬ ∀ (sources : Loading.Sources) (tenant count actor : Id) (r : SendRequest)
    (w : World) (work : Work) (a : Attempt) (held : Holdings), Reachable sources nobody w →
      work ∈ w.works → work.task = .send tenant count r actor → r.strategy = .replace →
      a ∈ attempts work.past → (∀ d ∈ a.details, d.success = true) →
      ∀ d ∈ a.details, held.after work.past d.code = d.value.value := by
  intro h
  have hplay : (((played oneConnection twoPlaces).begin oneConnection
      (.send (.ofNat 1) (.ofNat 1000) replaceAll (.ofNat 3))).play? oneConnection
        (goOn 23 (played oneConnection twoPlaces).works.length 13)).any (fun w =>
      (w.works[(played oneConnection twoPlaces).works.length]?).any fun work =>
        (attempts work.past).any fun a =>
          (∀ d ∈ a.details, d.success = true) ∧ (∃ d ∈ a.details, d.code = "A" ∧ d.value = oneDigit 2) ∧
            ∃ e ∈ a.details, e.code = "A" ∧ e.value = oneDigit 3) = true := by
    decide +kernel
  obtain ⟨w, work, a, hw, hwork, htask, ha, hdetails⟩ := exists_attempt hplay
  obtain ⟨hall, ⟨d, hd, hdcode, hdvalue⟩, e, he, hecode, hevalue⟩ := of_decide_eq_true hdetails
  have hheld := h _ _ _ _ _ w work a (fun _ => 0) hw hwork htask rfl ha hall
  have hsame : d.value.value = e.value.value := by
    rw [← hheld d hd, ← hheld e he, hdcode, hecode]
  rw [hdvalue, hevalue] at hsame
  simp [Decimal.value, Decimal.coeff, oneDigit] at hsame

end Runs

end Recount.WriteBack
