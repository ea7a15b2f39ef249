import Recount.Proofs.Database.Statements
import Recount.Proofs.Database.Transactions

/-!
# Clients of a database that serves a store

An action of a client that is answered by a server comes to a result, and sends statements on its way.
Where the server answers as a database with the entries of a store does, the statements of a transition
select and write what they mean.
-/

namespace Recount.Database

/-- What answers the calls of a client, by the history that they come after. -/
abbrev Server := Program.Server Call Call.Answer

/-- The statement that was sent in an exchange, if one was. -/
def sent? : Exchange → Option Statement
  | ⟨.send statement, _⟩ => some statement
  | _ => none

/-- The statements of a history in their order. -/
def sent (h : List Exchange) : List Statement := (h.filterMap sent?).reverse

variable {α β ρ : Type} {server : Server} {work : Client α} {text : String}
  {parameters : List Parameter}

/-- Whatever came before, an action that is answered by a server ends, and its result and the statements
that it sends satisfy a condition. -/
def Ends (server : Server) (work : Client α) (post : Except Error α → List Statement → Prop) : Prop :=
  ∀ h, ∃ h' result statements, work.run.against server h = (h', .ok result) ∧
    sent h' = sent h ++ statements ∧ post result statements

/-- Whatever came before, an action succeeds, and its result and the statements that it sends satisfy a
condition. -/
def Succeeds (server : Server) (work : Client α) (post : α → List Statement → Prop) : Prop :=
  Ends server work fun result statements => ∃ a, result = .ok a ∧ post a statements

section Steps

variable {post : Except Error α → List Statement → Prop} {f : α → Client β}
  {postOf : α → List Statement → Prop} {last : Except Error β → List Statement → Prop}

theorem Ends.mono {weaker : Except Error α → List Statement → Prop} (hwork : Ends server work post)
    (h : ∀ result statements, post result statements → weaker result statements) :
    Ends server work weaker := by
  intro past
  obtain ⟨h', result, statements, hrun, hsent, hpost⟩ := hwork past
  exact ⟨h', result, statements, hrun, hsent, h result statements hpost⟩

theorem Succeeds.mono {weaker : α → List Statement → Prop} (hwork : Succeeds server work postOf)
    (h : ∀ a statements, postOf a statements → weaker a statements) : Succeeds server work weaker := by
  refine Ends.mono hwork ?_
  rintro _ statements ⟨a, rfl, ha⟩
  exact ⟨a, rfl, h a statements ha⟩

theorem check_ends {result : Except Error α} (h : post result []) :
    Ends server (Action.check result) post :=
  fun past => ⟨past, result, [], rfl, (List.append_nil _).symm, h⟩

theorem check_succeeds {a : α} (h : postOf a []) : Succeeds server (Action.check (.ok a)) postOf :=
  check_ends ⟨a, rfl, h⟩

theorem pure_succeeds {a : α} (h : postOf a []) : Succeeds server (pure a) postOf := check_succeeds h

theorem arithmetic_succeeds {a : α} (h : postOf a []) :
    Succeeds server (Action.arithmetic (.ok a)) postOf := check_succeeds h

/-- What goes on after an action sends its statements after those of the action. -/
theorem Ends.bind (hwork : Ends server work fun result statements =>
      match result with
      | .ok a => Ends server (f a) fun result more => last result (statements ++ more)
      | .error e => last (.error e) statements) : Ends server (work >>= f) last := by
  intro past
  obtain ⟨h, result, statements, hrun, hsent, hrest⟩ := hwork past
  cases result with
  | error e =>
    refine ⟨h, .error e, statements, (Program.against_bind (p := work.run)).trans ?_, hsent, hrest⟩
    rw [hrun]
    rfl
  | ok a =>
    obtain ⟨h', result, more, hrun', hsent', hlast⟩ := hrest h
    refine ⟨h', result, statements ++ more, (Program.against_bind (p := work.run)).trans ?_,
      by rw [hsent', hsent, List.append_assoc], hlast⟩
    rw [hrun]
    exact hrun'

theorem Succeeds.bind (hwork : Succeeds server work postOf)
    (hf : ∀ a statements, postOf a statements →
      Ends server (f a) fun result more => last result (statements ++ more)) :
    Ends server (work >>= f) last := by
  refine Ends.bind (Ends.mono hwork ?_)
  rintro _ statements ⟨a, rfl, ha⟩
  exact hf a statements ha

/-- An action that succeeds does so if it is attempted, too. -/
theorem Succeeds.orClash {clash : Clash} (hwork : Succeeds server work postOf) :
    Succeeds server (Client.orClash clash work) postOf := by
  have hattempt : Succeeds server (Action.attempt work) fun result statements =>
      ∃ a, result = .ok a ∧ postOf a statements := by
    intro past
    obtain ⟨h, result, statements, hrun, hsent, hpost⟩ := hwork past
    refine ⟨h, .ok result, statements, ?_, hsent, result, rfl, hpost⟩
    refine Program.against_bind.trans ?_
    rw [hrun]
    rfl
  refine Succeeds.bind hattempt ?_
  rintro _ statements ⟨a, rfl, ha⟩
  refine check_succeeds ?_
  rwa [List.append_nil]

theorem freshId_succeeds {postOf : Id → List Statement → Prop} (h : ∀ id, postOf id []) :
    Succeeds server Client.freshId postOf :=
  fun _ => ⟨_, _, [], rfl, (List.append_nil _).symm, _, rfl, h _⟩

/-- A statement that is carried out answers its reply. -/
theorem send_succeeds {postOf : Reply → List Statement → Prop}
    (h : ∀ past, ∃ reply, server past (.send ⟨text, parameters⟩) = .ok reply ∧
      postOf reply [⟨text, parameters⟩]) : Succeeds server (Client.send text parameters) postOf := by
  intro past
  obtain ⟨reply, hserver, hreply⟩ := h past
  refine ⟨⟨.send ⟨text, parameters⟩, .ok reply⟩ :: past, .ok reply, [⟨text, parameters⟩], ?_,
    List.reverse_cons, reply, rfl, hreply⟩
  change (_, _) = _
  rw [hserver]
  rfl

/-- What an action sends does not depend on what becomes of its result. -/
theorem Succeeds.discard {sends : List Statement → Prop}
    (hwork : Succeeds server work fun _ statements => sends statements) :
    Succeeds server (do let _ ← work) fun _ statements => sends statements := by
  refine Succeeds.bind hwork fun _ statements hsends => pure_succeeds ?_
  rwa [List.append_nil]

/-- Work on a list that sends one statement for each member sends them in the order of the list. -/
theorem forM_succeeds {f : α → Client PUnit} {means : α → Meaning} {as : List α}
    (hf : ∀ a ∈ as, Succeeds server (f a) fun _ statements =>
      ∃ q, statements = [q] ∧ q.meaning? = some (means a)) :
    Succeeds server (as.forM f) fun _ statements =>
      statements.map Statement.meaning? = as.map fun a => some (means a) := by
  induction as with
  | nil => exact pure_succeeds rfl
  | cons a as ih =>
    obtain ⟨ha, has⟩ := List.forall_mem_cons.mp hf
    refine Succeeds.bind ha ?_
    rintro _ _ ⟨q, rfl, hq⟩
    exact (ih has).mono fun _ statements hall => congrArg₂ List.cons hq hall

/-- Work on a list that sends nothing gives the results in the order of the list. -/
theorem mapM_succeeds {gives : α → β → Prop} {as : List α}
    (hf : ∀ a ∈ as, Succeeds server (f a) fun b statements => gives a b ∧ statements = []) :
    Succeeds server (as.mapM f) fun bs statements => List.Forall₂ gives as bs ∧ statements = [] := by
  have hloop : ∀ before, Succeeds server (List.mapM.loop f as before) fun bs statements =>
      ∃ rest, bs = before.reverse ++ rest ∧ List.Forall₂ gives as rest ∧ statements = [] := by
    induction as with
    | nil => exact fun before => pure_succeeds ⟨[], (List.append_nil _).symm, .nil, rfl⟩
    | cons a as ih =>
      intro before
      obtain ⟨ha, has⟩ := List.forall_mem_cons.mp hf
      refine Succeeds.bind ha ?_
      rintro b _ ⟨hb, rfl⟩
      refine (ih has (b :: before)).mono ?_
      rintro _ _ ⟨rest, rfl, hrest, rfl⟩
      exact ⟨b :: rest, by rw [List.reverse_cons, List.append_assoc]; rfl, .cons hb hrest, rfl⟩
  refine (hloop []).mono ?_
  rintro _ _ ⟨rest, rfl, hrest, rfl⟩
  exact ⟨hrest, rfl⟩

end Steps

section Replies

variable {statement : Statement} {good : Row → Prop} {columns : Columns ρ α}
  {goodOf : α → Prop}

/-- Whatever came before, a server answers rows to a statement, the first of which satisfies a
condition. -/
def Replies (server : Server) (statement : Statement) (good : Row → Prop) : Prop :=
  ∀ past, ∃ reply row, server past (.send statement) = .ok reply ∧ reply.rows.head? = some row ∧ good row

theorem firstRow?_succeeds (h : Replies server ⟨text, parameters⟩ good) :
    Succeeds server (Client.firstRow? text parameters) fun row? statements =>
      (∃ row, row? = some row ∧ good row) ∧ statements = [⟨text, parameters⟩] := by
  have hsend : Succeeds server (Client.send text parameters) fun reply statements =>
      (∃ row, reply.rows.head? = some row ∧ good row) ∧ statements = [⟨text, parameters⟩] :=
    send_succeeds fun past => by
      obtain ⟨reply, row, hserver, hrow, hgood⟩ := h past
      exact ⟨reply, hserver, ⟨row, hrow, hgood⟩, rfl⟩
  refine Succeeds.bind hsend ?_
  rintro reply _ ⟨hrow, rfl⟩
  exact pure_succeeds ⟨hrow, rfl⟩

theorem firstRow_succeeds (h : Replies server ⟨text, parameters⟩ good) :
    Succeeds server (Client.firstRow text parameters) fun row statements =>
      good row ∧ statements = [⟨text, parameters⟩] := by
  refine Succeeds.bind (firstRow?_succeeds h) ?_
  rintro _ _ ⟨⟨row, rfl, hrow⟩, rfl⟩
  exact pure_succeeds ⟨hrow, rfl⟩

theorem first?_succeeds
    (h : Replies server ⟨text, parameters⟩ fun row => ∃ a, columns.read row = .ok a ∧ goodOf a) :
    Succeeds server (Client.first? columns text parameters) fun a? statements =>
      (∃ a, a? = some a ∧ goodOf a) ∧ statements = [⟨text, parameters⟩] := by
  refine Succeeds.bind (firstRow?_succeeds h) ?_
  rintro _ _ ⟨⟨row, rfl, a, hread, ha⟩, rfl⟩
  have hsome : (some <$> Action.check (columns.read row) : Client (Option α)) =
      Action.check (.ok (some a)) := by
    rw [hread]
    rfl
  dsimp only
  rw [hsome]
  exact check_succeeds ⟨⟨a, rfl, ha⟩, rfl⟩

theorem first_succeeds
    (h : Replies server ⟨text, parameters⟩ fun row => ∃ a, columns.read row = .ok a ∧ goodOf a) :
    Succeeds server (Client.first columns text parameters) fun a statements =>
      goodOf a ∧ statements = [⟨text, parameters⟩] := by
  refine Succeeds.bind (firstRow_succeeds h) ?_
  rintro row _ ⟨⟨a, hread, ha⟩, rfl⟩
  rw [hread]
  exact check_succeeds ⟨ha, rfl⟩

theorem all_succeeds {goodAll : List α → Prop} (h : ∀ past, ∃ reply as,
      server past (.send ⟨text, parameters⟩) = .ok reply ∧ reply.rows.mapM columns.read = .ok as ∧
        goodAll as) :
    Succeeds server (Client.all columns text parameters) fun as statements =>
      goodAll as ∧ statements = [⟨text, parameters⟩] := by
  have hsend : Succeeds server (Client.send text parameters) fun reply statements =>
      (∃ as, reply.rows.mapM columns.read = .ok as ∧ goodAll as) ∧
        statements = [⟨text, parameters⟩] :=
    send_succeeds fun past => by
      obtain ⟨reply, as, hserver, has, hgood⟩ := h past
      exact ⟨reply, hserver, ⟨as, has, hgood⟩, rfl⟩
  refine Succeeds.bind hsend ?_
  rintro reply _ ⟨⟨as, has, hgood⟩, rfl⟩
  rw [has]
  exact check_succeeds ⟨hgood, rfl⟩

end Replies

section Serving

open Columns

/-- A reply answers what a statement means as a database with the entries of a store does: with what it
selects, and with the rows that it has written. A report may keep some columns of one that was there. -/
structure Answered (s : Store) (m : Meaning) (reply : Reply) : Prop where
  count : ∀ tenant id, m = countOf tenant id →
    List.Forall₂ countColumns.Holds reply.rows (s.count? tenant id).toList
  items : ∀ count version, m = itemsOf count version →
    ∃ kept, kept.Perm (s.itemsOf count (some version)) ∧
      List.Forall₂ itemColumns.Holds reply.rows kept
  inserted : m.verb = .insert →
    ∃ row, reply.rows = [row] ∧ ∀ p ∈ m.sets, cell row p.1 = p.2.toCell
  updated : ∀ i ∈ s.items, m.verb = .update → m.table = "count_items" →
    m.keys = [("id", .id i.id), ("count_id", .id i.count)] →
    ∃ row time, reply.rows = [row] ∧ time.InBounds ∧ (∀ p ∈ m.sets, cell row p.1 = p.2.toCell) ∧
      ∀ p ∈ itemColumns.row { i with updatedAt := time }, p.1 ∉ m.sets.map Prod.fst →
        cell row p.1 = p.2
  upserted : m.verb = .upsert → m.table = "variance_reports" →
    ∃ (row : Row) (old : Report) (stays : List String), reply.rows = [row] ∧ old.InBounds ∧
      (∀ p ∈ m.sets, p.1 ∉ stays → cell row p.1 = p.2.toCell) ∧
      ∀ p ∈ reportColumns.row old, p.1 ∈ stays → cell row p.1 = p.2

/-- A server answers as a database with the entries of a store does, without faults, at a time. -/
structure Serves (s : Store) (time : Time) (server : Server) : Prop where
  start : ∀ past, server past .start = .ok ()
  commit : ∀ past, server past .commit = .ok ()
  now : ∀ past, server past .now = time
  send : ∀ past statement m, statement.meaning? = some m → m.IsProper →
    ∃ reply, server past (.send statement) = .ok reply ∧ Answered s m reply

variable {s : Store} {time : Time} {c : Count} {i j : Item} {r : Report} {tenant count : Id}
  {version : Int} {post : Except Error α → List Statement → Prop}

theorem Serves.now_succeeds (h : Serves s time server) :
    Succeeds server Client.now fun t statements => t = time ∧ statements = [] := by
  intro past
  refine ⟨_, .ok (server past .now), [], rfl, (List.append_nil _).symm, _, rfl, h.now past, rfl⟩

/-- Inside a transaction, an action comes to what it comes to. -/
theorem Serves.transaction_ends (h : Serves s time server) (hwork : Ends server work post) :
    Ends server (Client.transaction work) post := by
  intro past
  obtain ⟨h', result, statements, hrun, hsent, hpost⟩ := hwork (⟨.start, .ok ()⟩ :: past)
  have hstart : (Client.transaction work).run.against server past =
      (work.run.bind commitAfter).against server (⟨.start, .ok ()⟩ :: past) := by
    rw [transaction_run, Program.against, h.start]
  have hend : (Client.transaction work).run.against server past =
      (commitAfter result).against server h' := by
    rw [hstart, Program.against_bind, hrun]
  cases result with
  | error e => exact ⟨h', .error e, statements, hend, hsent, hpost⟩
  | ok a =>
    refine ⟨⟨.commit, .ok ()⟩ :: h', .ok a, statements, hend.trans ?_, hsent, hpost⟩
    rw [commitAfter, Program.against, h.commit]
    rfl

/-- The count that is locked is what is kept of the count. -/
theorem Serves.lockCount_succeeds (h : Serves s time server) (hc : s.count? tenant count = some c)
    (hbounds : c.InBounds) :
    Succeeds server (lockCount tenant count) fun d statements => d = c.seen storedTime ∧
      ∃ statement, statements = [statement] ∧ statement.meaning? = some (countOf tenant count) := by
  have hreplies : Replies server
      ⟨selection countColumns "inventory_counts" (ofTenant ++ " FOR UPDATE"), [.id count, .id tenant]⟩
      fun row => ∃ d, countColumns.read row = .ok d ∧ d = c.seen storedTime := by
    intro past
    obtain ⟨reply, hreply, hanswer⟩ := h.send past _ _ meaning?_lockCount proper_countOf
    have hrows := hanswer.count tenant count rfl
    rw [hc] at hrows
    obtain ⟨row, rest, hrow, -, hrows⟩ := List.forall₂_cons_right_iff.mp hrows
    exact ⟨reply, row, hreply, by rw [hrows]; rfl, _, keep_count.read row c hbounds hrow, rfl⟩
  refine Succeeds.bind (first?_succeeds hreplies) ?_
  rintro _ _ ⟨⟨d, rfl, rfl⟩, rfl⟩
  exact check_succeeds ⟨rfl, _, rfl, meaning?_lockCount⟩

/-- The items that are locked are what is kept of the items of the version, in some order. -/
theorem Serves.lockItems_succeeds (h : Serves s time server) (hbounds : ∀ i ∈ s.items, i.InBounds) :
    Succeeds server (lockItems count version) fun entries statements =>
      (∃ kept : List Item, kept.Perm (s.itemsOf count (some version)) ∧
        entries.map Prod.fst = kept.map (Item.seen storedTime)) ∧
      ∃ statement, statements = [statement] ∧ statement.meaning? = some (itemsOf count version) := by
  have hreplies : ∀ past, ∃ reply items, server past
        (.send ⟨selection itemColumns "count_items" "count_id = $1 AND version = $2 FOR UPDATE",
          [.id count, .int version]⟩) = .ok reply ∧
      reply.rows.mapM itemColumns.read = .ok items ∧
      ∃ kept : List Item, kept.Perm (s.itemsOf count (some version)) ∧
        items = kept.map (Item.seen storedTime) := by
    intro past
    obtain ⟨reply, hreply, hanswer⟩ := h.send past _ _ meaning?_lockItems proper_itemsOf
    obtain ⟨kept, hperm, hrows⟩ := hanswer.items count version rfl
    refine ⟨reply, kept.map (Item.seen storedTime), hreply, mapM_eq_ok_iff.mpr ?_, kept, hperm, rfl⟩
    have hkept : ∀ i ∈ kept, i.InBounds := fun i hi =>
      hbounds i (Store.mem_itemsOf.mp (hperm.subset hi)).1
    have hread : List.Forall₂ (fun i row => i.InBounds ∧ itemColumns.Holds row i) kept reply.rows :=
      (List.forall₂_and_left kept reply.rows).mpr ⟨hkept, hrows.flip⟩
    rw [List.forall₂_map_right_iff]
    exact (hread.imp fun i row hi => keep_item.read row i hi.1 hi.2).flip
  refine Succeeds.bind (all_succeeds hreplies) ?_
  rintro _ _ ⟨⟨kept, hperm, rfl⟩, rfl⟩
  -- drawing the identifiers sends nothing and leaves the items as they are
  have hpair : ∀ i ∈ kept.map (Item.seen storedTime), Succeeds server
      (do return (i, ← Client.freshId)) fun entry statements => i = entry.1 ∧ statements = [] := by
    intro i _
    have hid : Succeeds server Client.freshId fun _ statements => statements = [] :=
      freshId_succeeds fun _ => rfl
    refine Succeeds.bind hid ?_
    rintro id _ rfl
    exact pure_succeeds ⟨rfl, rfl⟩
  refine (mapM_succeeds hpair).mono ?_
  rintro entries _ ⟨hentries, rfl⟩
  refine ⟨⟨kept, hperm, ?_⟩, _, rfl, meaning?_lockItems⟩
  rw [← List.forall₂_eq_eq_eq, List.forall₂_map_left_iff]
  exact List.Forall₂.flip (hentries.imp fun _ _ heq => heq.symm)

/-- Writing the stage of a count sends what does so. -/
theorem Serves.updateStage_succeeds (h : Serves s time server) :
    Succeeds server (updateStage c) fun _ statements =>
      ∃ statement, statements = [statement] ∧ statement.meaning? = some (stageOf c) := by
  obtain ⟨text, parameters, heq, hmeaning⟩ := exists_updateStage c
  have hsend : Succeeds server (Client.send text parameters) fun _ statements =>
      statements = [⟨text, parameters⟩] :=
    send_succeeds fun past => by
      obtain ⟨reply, hreply, -⟩ := h.send past _ _ hmeaning proper_stageOf
      exact ⟨reply, hreply, rfl⟩
  rw [heq]
  refine Succeeds.bind hsend.orClash ?_
  rintro _ _ rfl
  exact pure_succeeds ⟨_, rfl, hmeaning⟩

/-- Entering a quantity of an item that is stored sends what does so. -/
theorem Serves.updateCounted_succeeds (h : Serves s time server) (hi : i ∈ s.items)
    (hbounds : i.InBounds) (hj : j.InBounds) (hid : j.id = i.id) (hcount : j.count = i.count) :
    Succeeds server (updateCounted j) fun _ statements =>
      ∃ statement, statements = [statement] ∧ statement.meaning? = some (countedOf j) := by
  obtain ⟨text, parameters, heq, hmeaning⟩ := exists_updateCounted j
  have hreplies : Replies server ⟨text, parameters⟩ fun row =>
      ∃ a, itemColumns.read row = .ok a ∧ True := by
    intro past
    obtain ⟨reply, hreply, hanswer⟩ := h.send past _ _ hmeaning proper_countedOf
    obtain ⟨row, t, hrow, ht, hgiven, hstays⟩ :=
      hanswer.updated i hi rfl rfl (by rw [← hid, ← hcount]; rfl)
    rw [sets_countedOf] at hgiven hstays
    -- the row holds what was counted of the item, and the other cells of the one that is stored
    have hstored : ({ i with updatedAt := t } : Item).InBounds :=
      ⟨hbounds.version, hbounds.countedAt, hbounds.createdAt, ht⟩
    obtain ⟨a, ha⟩ := keep_item.read_parts (· ∈ countedColumns) hj hstored
      (fun p hp hcounted => by
        obtain ⟨parameter, hmem, hcell⟩ := mem_row_iff.mp hp
        rw [← hcell]
        exact hgiven (p.1, parameter) (List.mem_filter.mpr ⟨hmem, decide_eq_true hcounted⟩))
      fun p hp hother => hstays p hp fun hmem => by
        obtain ⟨q, hq, heq⟩ := List.mem_map.mp hmem
        exact hother (heq ▸ of_decide_eq_true (List.mem_filter.mp hq).2)
    exact ⟨reply, row, hreply, by rw [hrow]; rfl, a, ha, trivial⟩
  rw [heq]
  refine Succeeds.bind (first?_succeeds hreplies) ?_
  rintro _ _ ⟨⟨a, rfl, -⟩, rfl⟩
  exact check_succeeds ⟨_, rfl, hmeaning⟩

/-- Inserting an item sends what does so. -/
theorem Serves.insertRow_succeeds (h : Serves s time server) (hi : i.InBounds) :
    Succeeds server (insertRow i) fun _ statements =>
      ∃ statement, statements = [statement] ∧ statement.meaning? = some (insertionOf i) := by
  obtain ⟨text, parameters, heq, hmeaning⟩ := exists_insertRow i
  have hreplies : Replies server ⟨text, parameters⟩ fun row => itemColumns.Holds row i := by
    intro past
    obtain ⟨reply, hreply, hanswer⟩ := h.send past _ _ hmeaning proper_insertionOf
    obtain ⟨row, hrow, hgiven⟩ := hanswer.inserted rfl
    rw [sets_insertionOf] at hgiven
    refine ⟨reply, row, hreply, by rw [hrow]; rfl, fun p hp => ?_⟩
    obtain ⟨parameter, hmem, hcell⟩ := mem_row_iff.mp hp
    rw [← hcell]
    exact hgiven (p.1, parameter) hmem
  rw [heq]
  refine Succeeds.bind (firstRow_succeeds hreplies).orClash ?_
  rintro row _ ⟨hrow, rfl⟩
  rw [keep_item.read row i hi hrow]
  exact check_succeeds ⟨_, rfl, hmeaning⟩

/-- Inserting a report, or putting it in the place of another one, sends what does so. -/
theorem Serves.upsertReport_succeeds (h : Serves s time server) (hr : r.InBounds) :
    Succeeds server (upsertReport r) fun _ statements =>
      ∃ statement, statements = [statement] ∧ statement.meaning? = some (upsertOf r) := by
  obtain ⟨text, parameters, heq, hmeaning⟩ := exists_upsertReport r
  have hreplies : Replies server ⟨text, parameters⟩ fun row =>
      ∃ a, reportColumns.read row = .ok a ∧ True := by
    intro past
    obtain ⟨reply, hreply, hanswer⟩ := h.send past _ _ hmeaning proper_upsertOf
    obtain ⟨row, old, stays, hrow, hold, hgiven, hstays⟩ := hanswer.upserted rfl rfl
    rw [sets_upsertOf] at hgiven
    obtain ⟨a, ha⟩ := keep_report.read_parts (· ∉ stays) hr hold
      (fun p hp hnot => by
        obtain ⟨parameter, hmem, hcell⟩ := mem_row_iff.mp hp
        rw [← hcell]
        exact hgiven (p.1, parameter) hmem hnot)
      fun p hp hstay => hstays p hp (not_not.mp hstay)
    exact ⟨reply, row, hreply, by rw [hrow]; rfl, a, ha, trivial⟩
  rw [heq]
  refine Succeeds.bind (first_succeeds hreplies) ?_
  rintro _ _ ⟨-, rfl⟩
  exact pure_succeeds ⟨_, rfl, hmeaning⟩

end Serving

end Recount.Database
