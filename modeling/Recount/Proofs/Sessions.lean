import Recount.Proofs.Concurrent.History
import Recount.Proofs.Concurrent.Replay
import Recount.Proofs.Concurrent.Sound
import Recount.Proofs.WriteBack.Sending

/-!
# Planning systems are called in sessions

Every task that works with planning systems calls them in sessions, one after the other: a session
is opened, and if that succeeded, it is used for queries or for one test; then it is ended, once.
Nothing depends on how it ended. This holds whatever is answered, and whatever other tasks do in
between.
-/

namespace Recount.Erp

open Concurrent (Exchange)
open WriteBack (HaveValues valueFor)

/-! ## Sessions -/

/-- A call on a connection, and whether it succeeded. -/
structure Made where
  connection : Id
  call : ErpCall
  succeeded : Bool

/-- The call of an exchange, if it is one on a connection. -/
def made? : Exchange → Option Made
  | ⟨.erp connection call, answer⟩ => some ⟨connection, call, answer.isOk⟩
  | _ => none

/-- The calls of a history, in the order in which they were made. -/
def made (h : List Exchange) : List Made := h.reverse.filterMap made?

/-- Nothing but queries was sent, all of them over one connection. -/
def OnlyQueries (connection : Id) (calls : List Made) : Prop :=
  ∀ m ∈ calls, m.connection = connection ∧ ∃ query, m.call = .query query

/-- What a session is used for: one test, or queries. -/
inductive Use (connection : Id) : List Made → Prop
  | test (succeeded : Bool) : Use connection [⟨connection, .test, succeeded⟩]
  | queries {calls : List Made} (hcalls : OnlyQueries connection calls) : Use connection calls

/-- The calls of one session. It is used only if it could be opened, and it is ended in both
cases. -/
inductive Session : List Made → Prop
  | refused (connection : Id) (ended : Bool) :
      Session [⟨connection, .connect, false⟩, ⟨connection, .disconnect, ended⟩]
  | held {connection : Id} {used : List Made} (huse : Use connection used) (ended : Bool) :
      Session (⟨connection, .connect, true⟩ :: (used ++ [⟨connection, .disconnect, ended⟩]))

/-- Calls are made in sessions, one after the other. -/
def Bracketed (calls : List Made) : Prop :=
  ∃ sessions : List (List Made), (∀ session ∈ sessions, Session session) ∧ calls = sessions.flatten

section Calls

variable {calls later : List Made} {h h' : List Exchange}
  {e : Exchange}

@[simp] theorem made_nil : made [] = [] := rfl

@[simp] theorem made_append : made (h' ++ h) = made h ++ made h' := by
  simp [made]

@[simp] theorem made_cons : made (e :: h) = made h ++ (made? e).toList := by
  unfold made
  rw [List.reverse_cons, List.filterMap_append]
  cases he : made? e <;> simp [he]

theorem bracketed_nil : Bracketed [] := ⟨[], List.forall_mem_nil _, rfl⟩

theorem Session.bracketed (hcalls : Session calls) : Bracketed calls :=
  ⟨[calls], List.forall_mem_singleton.mpr hcalls, by simp⟩

theorem Bracketed.append (hcalls : Bracketed calls) (hlater : Bracketed later) :
    Bracketed (calls ++ later) := by
  obtain ⟨sessions, hsessions, rfl⟩ := hcalls
  obtain ⟨others, hothers, rfl⟩ := hlater
  refine ⟨sessions ++ others, fun session hsession => ?_, List.flatten_append.symm⟩
  exact (List.mem_append.mp hsession).elim (hsessions session) (hothers session)

end Calls

/-! ## Programs that work in sessions

What remains of a program tells where it stands: if it is about to call a planning system, a session
may be open, and if it is about to do anything else, every session has been ended. -/

/-- What remains of a program goes with the calls that it made so far. How a session ends makes no
difference to what comes after it. -/
def Fits {α : Type} (calls : List Made) : Program Request Request.Answer α → Prop
  | .ask (.erp _ call) next => call = .disconnect → ∀ answer answer', next answer = next answer'
  | _ => Bracketed calls

/-- Listed items are consistent. -/
def ListsConsistent (h : List Exchange) : Prop :=
  ∀ count version items,
    ⟨.store (.counts (.listItems count (some version))), .ok items⟩ ∈ h → ∀ i ∈ items, i.Consistent

/-- A program calls planning systems in sessions, as long as the items that it is shown are
consistent. -/
def InSessions {α : Type} (p : Program Request Request.Answer α) : Prop :=
  ∀ h r, p.Reaches h r → ListsConsistent h → Fits (made h) r

section Programs

variable {α β : Type} {calls later : List Made} {p r : Program Request Request.Answer α}
  {h h' : List Exchange}

theorem ListsConsistent.of_subset (hh : ListsConsistent h) (hsubset : h' ⊆ h) :
    ListsConsistent h' :=
  fun count version items hmem => hh count version items (hsubset hmem)

/-- Calls in sessions may have been made before. -/
theorem Fits.after (hr : Fits later r) (hcalls : Bracketed calls) : Fits (calls ++ later) r := by
  cases r with
  | done a => exact hcalls.append hr
  | stop o => exact hcalls.append hr
  | ask q next =>
    cases q with
    | erp connection call => exact hr
    | _ => exact hcalls.append hr

/-- Work that comes afterwards waits for the end. -/
theorem Fits.bind {f : α → Program Request Request.Answer β} (hr : Fits calls r)
    (hdone : ∀ a, r = .done a → Fits calls (f a)) : Fits calls (r.bind f) := by
  cases r with
  | done a => exact hdone a rfl
  | stop o => exact hr
  | ask q next =>
    cases q with
    | erp connection call =>
      exact fun hcall answer answer' => congrArg (·.bind f) (hr hcall answer answer')
    | _ => exact hr

theorem inSessions_done {a : α} : InSessions (.done a) := by
  intro h r hr _
  obtain ⟨rfl, rfl⟩ := hr.of_done
  exact bracketed_nil

theorem inSessions_stop {o : Overflow} :
    InSessions (.stop o : Program Request Request.Answer α) := by
  intro h r hr _
  obtain ⟨rfl, rfl⟩ := hr.of_stop
  exact bracketed_nil

/-- One program after the other: the second one is told what the first one was. -/
theorem InSessions.bind {f : α → Program Request Request.Answer β} (hp : InSessions p)
    (hf : ∀ a h, p.Reaches h (.done a) → ListsConsistent h → InSessions (f a)) :
    InSessions (p.bind f) := by
  intro h r hr hh
  rcases hr.bind_cases with ⟨r', hr', rfl⟩ | ⟨a, earlier, later, rfl, hdone, hlater⟩
  · refine (hp h r' hr' hh).bind ?_
    rintro a rfl
    have hfirst := (hf a h hr' hh [] _ .start (hh.of_subset (List.nil_subset h))).after
      (hp h _ hr' hh)
    rwa [made_nil, List.append_nil] at hfirst
  · have hearlier := hh.of_subset (List.subset_append_right later earlier)
    rw [made_append]
    exact (hf a earlier hdone hearlier later r hlater
      (hh.of_subset (List.subset_append_left later earlier))).after (hp earlier _ hdone hearlier)

/-- What is no call on a connection is asked outside of sessions. -/
theorem inSessions_ask {q : Request} {next : q.Answer → Program Request Request.Answer α}
    (hq : ∀ connection call, q ≠ .erp connection call)
    (hnext : ∀ answer, InSessions (next answer)) : InSessions (.ask q next) := by
  intro h r hr hh
  have hmade : ∀ answer, made? ⟨q, answer⟩ = none := by
    intro answer
    cases q with
    | erp connection call => exact absurd rfl (hq connection call)
    | _ => rfl
  rcases hr.of_ask with ⟨rfl, rfl⟩ | ⟨answer, later, rfl, hlater⟩
  · cases q with
    | erp connection call => exact absurd rfl (hq connection call)
    | _ => exact bracketed_nil
  · have hfits := hnext answer later r hlater (hh.of_subset (List.subset_append_left later _))
    simpa [hmade] using hfits

end Programs

section Actions

variable {α β : Type} {x : Action α} {f : α → Action β}

theorem inSessions_check {result : Except Error α} :
    InSessions (Action.check result : Action α).run :=
  inSessions_done

theorem inSessions_pure {a : α} : InSessions (pure a : Action α).run :=
  inSessions_done

theorem inSessions_arithmetic {result : Except Overflow α} :
    InSessions (Action.arithmetic result : Action α).run := by
  cases result with
  | ok a => exact inSessions_done
  | error o => exact inSessions_stop

theorem inSessions_counts {call : CountCall} : InSessions (Action.counts call).run :=
  inSessions_ask (by rintro _ _ ⟨⟩) fun _ => inSessions_done

theorem inSessions_mappings {call : MappingCall} : InSessions (Action.mappings call).run :=
  inSessions_ask (by rintro _ _ ⟨⟩) fun _ => inSessions_done

theorem inSessions_freshId : InSessions Action.freshId.run :=
  inSessions_ask (by rintro _ _ ⟨⟩) fun _ => inSessions_done

theorem inSessions_now : InSessions Action.now.run :=
  inSessions_ask (by rintro _ _ ⟨⟩) fun _ => inSessions_done

/-- An action goes on with what the one before succeeded with. -/
theorem InSessions.andThen_ends (hx : InSessions x.run)
    (hf : ∀ a h, Action.Ends x h (.ok a) → ListsConsistent h → InSessions (f a).run) :
    InSessions (x >>= f).run := by
  refine InSessions.bind hx fun result h hend hh => ?_
  cases result with
  | ok a => exact hf a h hend hh
  | error e => exact inSessions_done

theorem InSessions.andThen (hx : InSessions x.run) (hf : ∀ a, InSessions (f a).run) :
    InSessions (x >>= f).run :=
  hx.andThen_ends fun a _ _ _ => hf a

theorem InSessions.attempt (hx : InSessions x.run) : InSessions (Action.attempt x).run :=
  InSessions.bind hx fun _ _ _ _ => inSessions_done

theorem inSessions_require {missing : Missing} {o : Option α} :
    InSessions (Action.require missing o : Action α).run := by
  cases o <;> exact inSessions_check

end Actions

/-! ## What is done in sessions

A session is worked in without asking for anything but queries, or the one test, and this work comes
to an end: no overflow keeps the session from being ended. -/

/-- What a program that works in a session has made so far, and what remains of it. -/
def Works {α : Type} (connection : Id) (use : List Made → Prop) (calls : List Made) :
    Program Request Request.Answer α → Prop
  | .done _ => use calls
  | .ask (.erp place call) _ => place = connection ∧ call ≠ .disconnect
  | _ => False

/-- A program does nothing but use the session in which it works, and ends. -/
def Uses {α : Type} (connection : Id) (use : List Made → Prop)
    (p : Program Request Request.Answer α) : Prop :=
  ∀ h r, p.Reaches h r → Works connection use (made h) r

section Work

variable {α β : Type} {connection : Id} {use : List Made → Prop} {calls : List Made}
  {x work : Action α} {f : α → Action β}

/-- One call uses the session for it. -/
theorem uses_erp {call : ErpCall} (hcall : call ≠ .disconnect)
    (huse : ∀ succeeded, use [⟨connection, call, succeeded⟩]) :
    Uses connection use (Action.erp connection call).run := by
  intro h r hr
  rcases hr.of_ask with ⟨rfl, rfl⟩ | ⟨answer, later, rfl, hlater⟩
  · exact ⟨rfl, hcall⟩
  · obtain ⟨rfl, rfl⟩ := hlater.of_done
    exact huse _

/-- What is done one after the other in a session is done in it, if the calls may be put
together. -/
theorem Uses.bind {p : Program Request Request.Answer α} {f : α → Program Request Request.Answer β}
    (happend : ∀ calls later, use calls → use later → use (calls ++ later))
    (hp : Uses connection use p) (hf : ∀ a, Uses connection use (f a)) :
    Uses connection use (p.bind f) := by
  have hafter : ∀ a earlier, use (made earlier) → ∀ later r, (f a).Reaches later r →
      Works connection use (made earlier ++ made later) r := by
    intro a earlier hearlier later r hr
    have hworks := hf a later r hr
    cases r with
    | done b => exact happend _ _ hearlier hworks
    | stop o => exact hworks
    | ask q next =>
      cases q with
      | erp place call => exact hworks
      | _ => exact hworks
  intro h r hr
  rcases hr.bind_cases with ⟨r', hr', rfl⟩ | ⟨a, earlier, later, rfl, hdone, hlater⟩
  · have hworks := hp h r' hr'
    cases r' with
    | done a =>
      have hfirst := hafter a h hworks [] _ .start
      rwa [made_nil, List.append_nil] at hfirst
    | stop o => exact hworks
    | ask q next =>
      cases q with
      | erp place call => exact hworks
      | _ => exact hworks
  · rw [made_append]
    exact hafter a earlier (hp earlier _ hdone) later r hlater

theorem Uses.mono {p : Program Request Request.Answer α} {use' : List Made → Prop}
    (hp : Uses connection use p) (huse : ∀ calls, use calls → use' calls) :
    Uses connection use' p := by
  intro h r hr
  have hworks := hp h r hr
  cases r with
  | done a => exact huse _ hworks
  | stop o => exact hworks
  | ask q next =>
    cases q with
    | erp place call => exact hworks
    | _ => exact hworks

theorem uses_onlyQueries_done {a : α} :
    Uses connection (OnlyQueries connection) (.done a) := by
  intro h r hr
  obtain ⟨rfl, rfl⟩ := hr.of_done
  exact fun _ hm => absurd hm List.not_mem_nil

/-- A session is opened and worked in, or not opened, and ended in both cases. -/
theorem withSession_run : (withSession connection work).run =
    .ask (.erp connection .connect) fun opened =>
      let close (result : Except Error α) : Program Request Request.Answer (Except Error α) :=
        .ask (.erp connection .disconnect) fun _ => .done result
      match opened with
      | .ok () => work.run.bind close
      | .error fault => close (.error (.erp fault)) := by
  refine congrArg (Program.ask (Request.erp connection .connect)) (funext fun opened => ?_)
  have hclose : ∀ result : Except Error α, (do
      let _ ← Action.attempt (Action.erp connection .disconnect)
      Action.check result : Action α).run =
        Program.ask (Request.erp connection .disconnect) fun _ => .done result := by
    intro result
    refine congrArg (Program.ask (Request.erp connection .disconnect)) (funext fun ended => ?_)
    cases ended <;> rfl
  cases opened with
  | error fault => exact hclose (.error (.erp fault))
  | ok u =>
    exact (Program.bind_assoc work.run _ _).trans (congrArg work.run.bind (funext hclose))

/-- Work in a session of its own. -/
theorem inSessions_withSession (hwork : Uses connection (Use connection) work.run) :
    InSessions (withSession connection work).run := by
  -- ending a session makes it one of those that have been ended, whatever is answered
  have hclose : ∀ (calls : List Made) (result : Except Error α),
      (∀ ended, Session (calls ++ [⟨connection, .disconnect, ended⟩])) → ∀ later r,
        Program.Reaches (.ask (.erp connection .disconnect) fun _ => .done result) later r →
          Fits (calls ++ made later) r := by
    intro calls result hsession later r hr
    rcases hr.of_ask with ⟨rfl, rfl⟩ | ⟨answer, later, rfl, hlater⟩
    · exact fun _ _ _ => rfl
    · obtain ⟨rfl, rfl⟩ := hlater.of_done
      exact (hsession _).bracketed
  intro h r hr _
  rw [withSession_run] at hr
  rcases hr.of_ask with ⟨rfl, rfl⟩ | ⟨opened, later, rfl, hlater⟩
  · rintro ⟨⟩
  · rw [made_append]
    cases opened with
    | error fault =>
      exact hclose _ _ (fun ended => .refused connection ended) later r hlater
    | ok u =>
      rcases hlater.bind_cases with ⟨r', hr', rfl⟩ | ⟨result, used, ending, rfl, hdone, hending⟩
      · have hworks := hwork later r' hr'
        cases r' with
        | done result =>
          have hfirst := hclose (⟨connection, .connect, true⟩ :: made later) result
            (fun ended => Session.held hworks ended) [] _ .start
          rwa [made_nil, List.append_nil] at hfirst
        | stop o => exact hworks.elim
        | ask q next =>
          cases q with
          | erp place call => exact fun hcall => absurd hcall hworks.2
          | _ => exact hworks.elim
      · rw [made_append]
        have hfits := hclose (⟨connection, .connect, true⟩ :: made used) result
          (fun ended => Session.held (hwork used _ hdone) ended) ending r hending
        exact List.append_assoc .. ▸ hfits

theorem inSessions_runQuery {query : Sql.Query} : InSessions (runQuery connection query).run := by
  refine inSessions_withSession (uses_erp (by rintro ⟨⟩) fun succeeded => .queries fun m hm => ?_)
  rw [List.mem_singleton.mp hm]
  exact ⟨rfl, query, rfl⟩

theorem OnlyQueries.append {later : List Made} (hcalls : OnlyQueries connection calls)
    (hlater : OnlyQueries connection later) : OnlyQueries connection (calls ++ later) :=
  fun m hm => (List.mem_append.mp hm).elim (hcalls m) (hlater m)

/-- Items that have values are written by queries alone, and the last one is written. -/
theorem uses_writeItems {dialect : Sql.Dialect} {target : Target} {strategy : Strategy}
    {items : List Item} (hvalues : HaveValues strategy items) :
    Uses connection (OnlyQueries connection)
      (WriteBack.writeItems connection dialect target strategy items).run := by
  induction items with
  | nil => exact uses_onlyQueries_done
  | cons i items ih =>
    have hothers := ih fun j hj => hvalues j (List.mem_cons_of_mem i hj)
    let query := target.statement dialect strategy i.code (valueFor strategy i)
    have hsend : Uses connection (OnlyQueries connection)
        (Action.attempt (Action.erp connection (.query query))).run := by
      refine .bind (fun _ _ => .append) (uses_erp (by rintro ⟨⟩) fun succeeded m hm => ?_)
        fun _ => uses_onlyQueries_done
      rw [List.mem_singleton.mp hm]
      exact ⟨rfl, query, rfl⟩
    have hrun : (WriteBack.writeItems connection dialect target strategy (i :: items)).run = (do
        let result ← Action.attempt (Action.erp connection (.query query))
        return WriteBack.recorded strategy i result ::
          (← WriteBack.writeItems connection dialect target strategy items) : Action _).run := by
      change (Action.arithmetic (WriteBack.valueOf? strategy i) >>= _ : Action _).run = _
      rw [hvalues i List.mem_cons_self]
      rfl
    rw [hrun]
    refine .bind (fun _ _ => .append) hsend fun result => ?_
    cases result with
    | error e => exact uses_onlyQueries_done
    | ok result =>
      refine .bind (fun _ _ => .append) hothers fun written => ?_
      cases written <;> exact uses_onlyQueries_done

end Work

/-! ## The operations -/

section Operations

variable {connections : Connections} {connection tenant count actor : Id}
  {sources : Loading.Sources} {limit : Nat}

theorem inSessions_testConnection : InSessions (testConnection connections connection).run := by
  refine inSessions_check.andThen fun _ => InSessions.andThen (.attempt ?_) fun _ => inSessions_pure
  exact inSessions_withSession (uses_erp (by rintro ⟨⟩) .test)

theorem inSessions_fetchCatalog : InSessions (fetchCatalog connections connection).run :=
  inSessions_check.andThen fun _ => inSessions_runQuery.andThen fun _ => inSessions_pure

theorem inSessions_getMapping {id : Id} : InSessions (Mapping.get tenant id).run :=
  inSessions_mappings.andThen fun _ => inSessions_require

theorem inSessions_preview {r : PreviewRequest} :
    InSessions (preview connections tenant r).run := by
  have hmapping : InSessions (Mapping.getGiven tenant r.mapping).run := by
    cases r.mapping with
    | none => exact inSessions_pure
    | some id => exact inSessions_getMapping.andThen fun _ => inSessions_pure
  refine hmapping.andThen fun mapping => ?_
  dsimp only
  split
  · next connection _ =>
    refine inSessions_check.andThen fun dialect => ?_
    split
    · exact (inSessions_fetchCatalog.andThen fun _ => inSessions_pure).andThen fun catalog =>
        inSessions_check.andThen fun query => inSessions_runQuery.andThen fun _ => inSessions_pure
    · exact inSessions_pure.andThen fun catalog =>
        inSessions_check.andThen fun query => inSessions_runQuery.andThen fun _ => inSessions_pure
  · exact inSessions_check

theorem inSessions_getCount : InSessions (Counting.getCount tenant count).run :=
  inSessions_counts.andThen fun _ => inSessions_require

theorem inSessions_loadMapping {m : Mapping} :
    InSessions (Loading.loadMapping sources m limit).run :=
  inSessions_check.andThen fun _ => inSessions_check.andThen fun _ =>
    inSessions_runQuery.andThen fun _ => inSessions_pure

theorem inSessions_loadExtra {dataset : Dataset} :
    InSessions (Loading.loadExtra sources tenant limit dataset).run := by
  refine inSessions_mappings.andThen fun m => ?_
  cases m with
  | none => exact inSessions_pure
  | some m => exact inSessions_loadMapping.andThen fun _ => inSessions_pure

theorem inSessions_loadConfigured :
    InSessions (Loading.loadConfigured sources tenant limit).run := by
  refine inSessions_mappings.andThen fun items => inSessions_mappings.andThen fun stock => ?_
  cases items with
  | none => exact inSessions_pure
  | some items =>
    cases stock with
    | none => exact inSessions_pure
    | some stock =>
      exact inSessions_loadMapping.andThen fun _ => inSessions_loadMapping.andThen fun _ =>
        inSessions_loadExtra.andThen fun _ => inSessions_loadExtra.andThen fun _ => inSessions_pure

theorem inSessions_loadLegacy : InSessions (Loading.loadLegacy sources limit).run := by
  unfold Loading.loadLegacy
  split
  · exact inSessions_check.andThen fun _ => inSessions_check.andThen fun _ =>
      inSessions_runQuery.andThen fun _ => inSessions_pure
  · exact inSessions_pure

theorem inSessions_storeAll {c : Count} {location : Id} {summary : Loading.Summary}
    {records : List ItemRecord} :
    InSessions (Loading.storeAll c location summary records).run := by
  induction records generalizing summary with
  | nil => exact inSessions_pure
  | cons r records ih =>
    exact inSessions_now.andThen fun _ => inSessions_freshId.andThen fun _ =>
      inSessions_counts.attempt.andThen fun _ => ih

theorem inSessions_storeBatch {c : Count} {location : Id} {source : Loading.Source}
    {attempts : List Loading.Attempted} {batch : Batch} :
    InSessions (Loading.storeBatch c location source attempts batch).run :=
  inSessions_arithmetic.andThen fun _ => inSessions_storeAll

theorem inSessions_loadFirst {c : Count} {location : Id} {attempts : List Loading.Attempted}
    {candidates : List (Loading.Source × String × Action (Option Batch))}
    (hcandidates : ∀ candidate ∈ candidates, InSessions candidate.2.2.run) :
    InSessions (Loading.loadFirst c location attempts candidates).run := by
  induction candidates generalizing attempts with
  | nil => exact inSessions_pure
  | cons candidate candidates ih =>
    obtain ⟨hload, hothers⟩ := List.forall_mem_cons.mp hcandidates
    refine hload.attempt.andThen fun result => ?_
    dsimp only
    split
    · exact inSessions_storeBatch
    · exact ih hothers

theorem inSessions_loadItems {r : Loading.LoadRequest} :
    InSessions (Loading.loadItems sources tenant count r).run := by
  have heditable : InSessions (Counting.editableCount tenant count).run :=
    inSessions_getCount.andThen fun _ => inSessions_check.andThen fun _ => inSessions_pure
  refine heditable.andThen fun c => inSessions_check.andThen fun limit => ?_
  dsimp only
  split
  · exact inSessions_getMapping.andThen fun _ => inSessions_loadMapping.andThen fun _ =>
      inSessions_storeBatch
  · refine inSessions_loadFirst ?_
    simp only [Loading.sourcesInOrder, List.forall_mem_cons, List.not_mem_nil, false_imp_iff,
      implies_true, and_true]
    exact ⟨inSessions_loadConfigured, inSessions_loadLegacy⟩

theorem inSessions_resolveTarget {default : Option Id} {r : WriteBack.SendRequest} :
    InSessions (WriteBack.resolveTarget tenant default r).run := by
  refine inSessions_mappings.andThen fun stock => inSessions_check.andThen fun target =>
    inSessions_check.andThen fun _ => ?_
  split
  · exact inSessions_pure
  · exact inSessions_check

theorem inSessions_finish {c : Count} {strategy : Strategy} {started : Time}
    {session : Except Error (List WriteDetail)} {details : List WriteDetail} :
    InSessions (WriteBack.finish c tenant count strategy actor started session details).run := by
  refine inSessions_freshId.andThen fun id => inSessions_now.andThen fun completed =>
    inSessions_counts.andThen fun _ => inSessions_check.andThen fun _ => ?_
  split
  · exact inSessions_counts.andThen fun _ => inSessions_pure
  · exact inSessions_pure

/-- The items that are written back have values, as they are consistent when they are listed. -/
theorem inSessions_send {default : Option Id} {r : WriteBack.SendRequest} :
    InSessions (WriteBack.send connections default tenant count r actor).run := by
  refine inSessions_getCount.andThen fun c => ?_
  split
  · exact inSessions_check
  · refine inSessions_resolveTarget.andThen fun found => inSessions_counts.andThen fun reports =>
      inSessions_counts.andThen_ends fun items h hend hh => ?_
    have hvalues : HaveValues r.strategy (WriteBack.itemsToWrite items reports) := by
      rw [Action.ends_counts] at hend
      exact WriteBack.haveValues r.strategy
        (hh count c.currentVersion items (hend ▸ List.mem_singleton_self _))
    refine inSessions_now.andThen fun started => inSessions_check.andThen fun dialect =>
      InSessions.andThen (.attempt (inSessions_withSession ?_)) fun session => ?_
    · exact (uses_writeItems hvalues).mono fun calls => .queries
    · cases session with
      | ok details => exact inSessions_pure.andThen fun _ => inSessions_finish
      | error e => exact inSessions_arithmetic.andThen fun _ => inSessions_finish

end Operations

/-! ## Whole tasks

What was said of programs holds of tasks among others: the items that a task is shown are consistent
in every world that can be reached. -/

/-- Exchanges are the same, up to how a session ended. -/
inductive SameButEnding : Exchange → Exchange → Prop
  | same (e : Exchange) : SameButEnding e e
  | ending (connection : Id) (answer answer' : Except ErpFault Unit) :
      SameButEnding ⟨.erp connection .disconnect, answer⟩ ⟨.erp connection .disconnect, answer'⟩

/-- Every request of a store or of a planning system fails. -/
def declining : Program.Server Request Request.Answer := fun _ q =>
  match q with
  | .store _ => .error (.fields [])
  | .erp _ _ => .error .notOpen
  | .freshId => default
  | .now => default

section Programs

variable {α : Type} {calls : List Made} {p r : Program Request Request.Answer α}
  {h h' : List Exchange}

/-- Outside of sessions, every session has been ended. -/
theorem Fits.bracketed (hr : Fits calls r)
    (hoff : ∀ connection call next, r ≠ .ask (.erp connection call) next) : Bracketed calls := by
  cases r with
  | done a => exact hr
  | stop o => exact hr
  | ask q next =>
    cases q with
    | erp connection call => exact absurd rfl (hoff connection call next)
    | _ => exact hr

/-- At any moment, the calls so far can be completed. -/
theorem InSessions.exists_bracketed (hp : InSessions p) (hr : p.Reaches h r)
    (hh : ListsConsistent h) : ∃ later, Bracketed (made h ++ later) := by
  obtain ⟨later, hlater, hserved⟩ : ∃ later, (r.against declining h).1 = later ++ h ∧
      ∀ e ∈ later, ∃ earlier, e.answer = declining earlier e.request := Program.exists_against_eq
  have hend : p.Reaches (r.against declining h).1 (.ofArithmetic (r.against declining h).2) :=
    hr.against
  rw [hlater] at hend
  have hall : ListsConsistent (later ++ h) := by
    intro count version items hmem
    rcases List.mem_append.mp hmem with hmem | hmem
    · obtain ⟨earlier, hanswer⟩ := hserved _ hmem
      cases hanswer
    · exact hh count version items hmem
  refine ⟨made later, made_append ▸ (hp _ _ hend hall).bracketed ?_⟩
  intro connection call next hask
  cases hresult : (r.against declining h).2 with
  | ok a => rw [hresult] at hask; cases hask
  | error o => rw [hresult] at hask; cases hask

/-- What remains of a program does not depend on how its sessions ended. -/
theorem InSessions.reaches_of_same (hp : InSessions p) (hr : p.Reaches h r) (hh : ListsConsistent h)
    (hsame : List.Forall₂ SameButEnding h h') : p.Reaches h' r := by
  induction hr generalizing h' with
  | start =>
    cases hsame
    exact .start
  | @ask h q next hbefore answer ih =>
    obtain ⟨e', earlier', he, hearlier, rfl⟩ := List.forall₂_cons_left_iff.mp hsame
    have hbeforehand := hh.of_subset (List.subset_cons_self _ h)
    have hask := ih hbeforehand hearlier
    cases he with
    | same => exact .ask hask answer
    | ending connection _ answer' =>
      rw [hp h _ hbefore hbeforehand rfl _ answer']
      exact .ask hask answer'

end Programs

end Recount.Erp

namespace Recount.Concurrent

open Erp (made Bracketed ListsConsistent InSessions SameButEnding)

variable {sources : Loading.Sources} {alone : Task → Prop} {w : World} {work : Work} {t : Task}

/-- The task works with planning systems. -/
def Task.holdsSessions : Task → Prop
  | loadItems .. | send .. | testConnection .. | fetchCatalog .. | preview .. => True
  | _ => False

theorem Task.inSessions (ht : t.holdsSessions) : InSessions (t.action sources).run := by
  cases t with
  | loadItems tenant count r => exact Erp.inSessions_loadItems
  | send tenant count r actor => exact Erp.inSessions_send
  | testConnection connection => exact Erp.inSessions_testConnection
  | fetchCatalog connection => exact Erp.inSessions_fetchCatalog
  | preview tenant r => exact Erp.inSessions_preview
  | _ => exact ht.elim

theorem Reachable.listsConsistent (hw : Reachable sources alone w) (hwork : work ∈ w.works) :
    ListsConsistent work.past :=
  fun count version items hmem i hi =>
    ((hw.sound.listed work hwork count version items hmem).2 i hi).2.2

/-- A task that ran alone is there, with what it asked. -/
theorem RunsAlone.exists_work {w' : World} {past : List Exchange}
    (h : RunsAlone sources w t past w') :
    ∃ work, w'.works[w.works.length]? = some work ∧ work.task = t ∧ work.past = past := by
  obtain ⟨work, hwork, hpast⟩ := h.asked
  have hsteps : Relation.ReflTransGen (Step sources nobody) (w.begin sources t) w' :=
    Relation.ReflTransGen.mono (fun _ _ => Step.advance) _ _ h.run
  obtain ⟨after, hafter, htask, -⟩ := exchanged_since hsteps World.getElem?_begin_length
  cases hwork.symm.trans hafter
  exact ⟨work, hwork, htask, hpast⟩

/-- Whatever planning systems answer and other tasks do, the calls of a task that works with
planning systems are made in sessions: whenever it is about to do anything else, or is over, all its
sessions have been ended, and at any moment its calls are the beginning of such a sequence. How its
sessions ended makes no difference to its result. -/
theorem sessions_bracketed (hw : Reachable sources alone w) (hwork : work ∈ w.works)
    (htask : work.task.holdsSessions) :
    ((∀ connection call next, work.rest ≠ .ask (.erp connection call) next) →
        Bracketed (made work.past)) ∧
      (∃ later, Bracketed (made work.past ++ later)) ∧
      ∀ past', List.Forall₂ SameButEnding work.past past' → ∀ result,
        Action.Ends (work.task.action sources) work.past result ↔
          Action.Ends (work.task.action sources) past' result := by
  have hsessions : InSessions (work.task.action sources).run := Task.inSessions htask
  have hlists := hw.listsConsistent hwork
  obtain ⟨rest, hrest, hcame⟩ := hw.reaches hwork
  rw [Task.program_eq_work] at hrest
  obtain ⟨r, hr, rfl⟩ := Program.Reaches.of_bind_done hrest
  refine ⟨fun hoff => (hsessions _ r hr hlists).bracketed ?_, hsessions.exists_bracketed hr hlists,
    fun past' hsame result => ⟨fun hend => ?_, fun hend => ?_⟩⟩
  · rintro connection call next rfl
    rcases hcame with heq | ⟨o, -, call', next', heq⟩
    · exact hoff connection call _ heq
    · cases heq
  · exact hsessions.reaches_of_same hend hlists hsame
  · obtain rfl := (hsessions.reaches_of_same hr hlists hsame).unique hend
    exact hr

/-- The first rows of a table are shown, after it was looked up among the tables that there are. -/
def previewItems : Task :=
  .preview (.ofNat 1) ⟨some (.ofNat 9), none, some ⟨"items", [], [], [], none⟩, none, none, true⟩

/-- The tables are told, but the session cannot be ended; in the next one the query fails, too. -/
def previewFails : List Aid :=
  let tables : (call : ErpCall) → Except ErpFault call.Result
    | .query _ => .ok [[("table_name", .str "items")]]
    | call => calm call
  [calm, tables, stormy, calm, stormy, stormy].zipIdx.map fun (answer, round) =>
    ⟨roundSupply round, answer⟩

theorem sessions_bracketed_previewFails :
    ∃ w past, RunsAlone ⟨[(.ofNat 9, .postgres)], {}⟩ {} previewItems past w ∧
      (made past).map (·.succeeded) = [true, true, false, true, false, false] ∧
      Bracketed (made past) := by
  have hplayed : (World.alone? ⟨[(.ofNat 9, .postgres)], {}⟩ {} previewItems previewFails).any
      (fun result => (made result.2).map (·.succeeded) = [true, true, false, true, false, false]) =
        true := by
    decide +kernel
  obtain ⟨⟨w, past⟩, halone, hcalls⟩ := (Option.any_eq_true _ _).mp hplayed
  have hruns := World.alone?_runsAlone halone
  obtain ⟨work, hwork, htask, rfl⟩ := hruns.exists_work
  have hsessions := sessions_bracketed (hruns.reachable .refl) (List.mem_of_getElem? hwork)
    (htask ▸ trivial)
  exact ⟨w, work.past, hruns, of_decide_eq_true hcalls,
    hsessions.1 fun _ _ _ => hruns.ended work hwork _ _⟩

end Recount.Concurrent
