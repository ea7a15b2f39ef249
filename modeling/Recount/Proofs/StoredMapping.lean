import Recount.Proofs.ActiveMapping
import Recount.Proofs.Concurrent.MappingWrites
import Recount.Proofs.Concurrent.Sound
import Recount.Proofs.Sql.AnyLimit
import Recount.Proofs.Store.Mappings

/-!
# A stored mapping loads

A mapping is checked once, before it is written, for the dialect of its connection and without a
row limit. It is read later with a limit, and for any dialect it is read in the same way.
-/

/-! ## Mappings are kept as they were checked

A mapping is checked before it is written. A change starts from a mapping that was read, which may
be stale by then, but it was checked too when it was written. -/

namespace Recount

/-- A mapping as it is stored: it was checked, and its own query is not blank. -/
structure Mapping.Kept (connections : Erp.Connections) (m : Mapping) : Prop where
  checked : m.checkStorable connections = .ok ()
  given : ∀ raw, m.rawQuery = some raw → Text.isBlankText raw = false

section Kept

variable {connections : Erp.Connections} {m : Mapping} {query : Option String}

/-- The check says nothing about the flag of a mapping. -/
theorem Mapping.Kept.flagged (h : m.Kept connections) {active : Bool} {time : Time} :
    (m.flagged active time).Kept connections := ⟨h.checked, h.given⟩

theorem Mapping.not_blank_of_givenQuery {raw : String} (h : givenQuery query = some raw) :
    Text.isBlankText raw = false := by
  obtain ⟨-, hgiven⟩ := Option.filter_eq_some_iff.mp h
  simpa using hgiven

/-- A changed mapping has the query that it had, or one that is given with the change. -/
theorem Mapping.Kept.withChanges (h : m.Kept connections) {r : UpdateMapping} {time : Time}
    (hcheck : (m.withChanges r time).checkStorable connections = .ok ()) :
    (m.withChanges r time).Kept connections where
  checked := hcheck
  given raw hraw := by
    change (r.rawQuery.map givenQuery).getD m.rawQuery = some raw at hraw
    cases hquery : r.rawQuery with
    | none =>
      rw [hquery] at hraw
      exact h.given raw hraw
    | some query =>
      rw [hquery] at hraw
      exact not_blank_of_givenQuery hraw

end Kept

namespace Concurrent

open Recount.Action
open Program (Rule)

/-- The mappings that a task was shown. -/
def shownMappings : Exchange → List Mapping
  | ⟨.store (.mappings (.get _ _)), .ok (some m)⟩ => [m]
  | _ => []

/-- A mapping may be written that is kept, provided that those were which the task was shown. -/
def WritesKept (connections : Erp.Connections) : Rule Request Request.Answer := fun h q =>
  match q with
  | .store (.mappings (.create m)) | .store (.mappings (.update m)) =>
    (∀ n ∈ h.flatMap shownMappings, n.Kept connections) → m.Kept connections
  | _ => True

/-- What holds of the mappings of a world at any time. -/
structure World.KeepsMappings (connections : Erp.Connections) (w : World) : Prop where
  stored : ∀ m ∈ w.store.mappings, m.Kept connections
  asks : ∀ work ∈ w.works, work.rest.Keeps (WritesKept connections) (fun _ _ => True) work.past
  shown : ∀ work ∈ w.works, ∀ m ∈ work.past.flatMap shownMappings, m.Kept connections

variable {connections : Erp.Connections} {sources : Loading.Sources} {w w' : World} {n : Nat}
  {work : Work} {t : Task}

theorem writesKept_aboutMappings : AboutMappings (WritesKept connections) where
  erp _ _ _ := trivial
  freshId _ := trivial
  now _ := trivial
  counts _ _ _ _ := trivial
  enters _ _ _ := trivial
  addAttempt _ _ := trivial
  get _ _ _ := trivial
  list _ _ _ := trivial
  setActive _ _ _ _ := trivial
  findActive _ _ _ := trivial

theorem createMapping_writesKept {tenant actor : Id} {r : CreateMapping} :
    Follows (WritesKept connections) (Mapping.create connections tenant r actor) := by
  refine checkFields_follows.bind fun _ h => ?_
  simp only [keeps_bind, keeps_now, keeps_freshId, keeps_check]
  refine ⟨trivial, fun time => ⟨trivial, fun id _ hchecked => keeps_mappings.mpr ⟨?_, fun _ => trivial⟩⟩⟩
  exact fun _ => ⟨hchecked, fun raw hraw => Mapping.not_blank_of_givenQuery hraw⟩

/-- A change is written of a mapping that was shown. -/
theorem updateMapping_writesKept {tenant id : Id} {r : UpdateMapping} :
    Follows (WritesKept connections) (Mapping.update connections tenant id r) := by
  refine checkFields_follows.bind fun _ h => ?_
  simp only [Mapping.get, keeps_bind, keeps_mappings, keeps_require, keeps_ite, keeps_fail,
    keeps_now, keeps_check]
  refine ⟨trivial, ?_⟩
  rintro _ stored rfl
  refine ⟨fun _ => trivial, fun _ => ⟨trivial, fun time _ hchecked =>
    keeps_mappings.mpr ⟨fun hshown => ?_, fun _ => trivial⟩⟩⟩
  have hstored : stored.Kept connections := hshown stored (by simp [shownMappings])
  exact hstored.withChanges hchecked

/-- Whatever a task is answered, it writes mappings that are kept. -/
theorem Task.program_writesKept (sources : Loading.Sources) (t : Task) :
    (t.program sources).Keeps (WritesKept sources.connections) (fun _ _ => True) [] := by
  have haction : Follows (WritesKept sources.connections) (t.action sources) := by
    by_cases ht : t.writesMapping
    · cases t with
      | createMapping => exact createMapping_writesKept
      | updateMapping => exact updateMapping_writesKept
      | _ => exact ht.elim
    · exact writesKept_aboutMappings.action_follows ht
  rw [t.program_eq_work]
  exact Program.keeps_bind.mpr (Program.Keeps.mono (haction []) (fun _ _ hq => hq)
    fun _ _ _ _ => trivial)

theorem World.KeepsMappings.empty : World.KeepsMappings connections {} where
  stored _ hm := absurd hm List.not_mem_nil
  asks _ hwork := absurd hwork List.not_mem_nil
  shown _ hwork := absurd hwork List.not_mem_nil

theorem World.KeepsMappings.begin (h : w.KeepsMappings sources.connections) :
    (w.begin sources t).KeepsMappings sources.connections where
  stored := h.stored
  asks work hwork := by
    rcases mem_begin hwork with hwork | rfl
    · exact h.asks work hwork
    · exact t.program_writesKept sources
  shown work hwork := by
    rcases mem_begin hwork with hwork | rfl
    · exact h.shown work hwork
    · exact fun _ hm => absurd hm List.not_mem_nil

/-- What a task is shown is stored. -/
theorem Answers.mem_of_shownMappings {s s' : Store} {drawn drawn' : List Id} {q : Request}
    {answer : q.Answer} (h : Answers s drawn q answer s' drawn') {m : Mapping}
    (hm : m ∈ shownMappings ⟨q, answer⟩) : m ∈ s.mappings := by
  unfold shownMappings at hm
  split at hm
  · next tenant id shown heq =>
    cases heq
    obtain rfl := List.mem_singleton.mp hm
    cases h with
    | store supply hfresh hstep =>
      have hfound : s.mapping? tenant id = some m :=
        (Except.ok.inj (Except.ok.inj (Prod.mk.inj hstep).1))
      exact (Store.mapping?_eq_some hfound).1
  · exact absurd hm List.not_mem_nil

/-- The answer to a task leaves mappings that are kept. -/
theorem World.KeepsMappings.answered (h : w.KeepsMappings connections)
    (hwork : w.works[n]? = some work) {q : Request} {next} (hrest : work.rest = .ask q next)
    {answer : q.Answer} {s' : Store} {drawn' : List Id}
    (hanswer : Answers w.store w.drawn q answer s' drawn') :
    (w.answered n work ⟨q, answer⟩ (next answer) s' drawn').KeepsMappings connections := by
  have hmem : work ∈ w.works := List.mem_of_getElem? hwork
  have hkeeps := h.asks work hmem
  rw [hrest] at hkeeps
  refine ⟨fun m hm => ?stored, fun other hother => ?asks, fun other hother => ?shown⟩
  case stored =>
    rcases hanswer.store_cases with rfl | ⟨call, supply, result, rfl, -, heq⟩
    · exact h.stored m hm
    · cases call with
      | counts call => exact h.stored m ((Store.answerCounts_eq_ok heq).1 ▸ hm)
      | mappings call =>
        rcases Store.answerMappings_cases heq hm with rfl | rfl | ⟨old, hold, active, time, rfl⟩
        · exact hkeeps.1 (h.shown work hmem)
        · exact hkeeps.1 (h.shown work hmem)
        · exact (h.stored old hold).flagged
  case asks =>
    rcases mem_answered hother with rfl | ⟨m, -, hm⟩
    · exact hkeeps.2 answer
    · exact h.asks other (List.mem_of_getElem? hm)
  case shown =>
    rcases mem_answered hother with rfl | ⟨m, -, hm⟩
    · rw [List.flatMap_cons, List.forall_mem_append]
      exact ⟨fun m hm => h.stored m (hanswer.mem_of_shownMappings hm), h.shown work hmem⟩
    · exact h.shown other (List.mem_of_getElem? hm)

theorem World.KeepsMappings.stopped (h : w.KeepsMappings connections)
    (hwork : w.works[n]? = some work) (overflow : Overflow) :
    World.KeepsMappings connections
      { w with works := w.works.set n { work with rest := .stop overflow } } where
  stored := h.stored
  asks other hother := by
    obtain ⟨before, hbefore, hpast, hrest | rfl⟩ := mem_stopped hwork hother
    · rw [hrest]
      trivial
    · exact h.asks other hbefore
  shown other hother := by
    obtain ⟨before, hbefore, hpast, -⟩ := mem_stopped hwork hother
    exact hpast ▸ h.shown before hbefore

/-- In every world that is reached, mappings are kept. -/
theorem Reachable.keepsMappings {alone : Task → Prop} (hw : Reachable sources alone w) :
    w.KeepsMappings sources.connections := by
  refine hw.induction (P := World.KeepsMappings sources.connections) .empty
    (fun _ _ h => h.begin) fun w n w' h hadvance => ?_
  cases hadvance with
  | answered hwork hrest hanswer => exact h.answered hwork hrest hanswer
  | stopped hwork => exact h.stopped hwork _

end Concurrent
end Recount

/-! ## Loading -/

namespace Recount

open Sql

section Checked

variable {connections : Erp.Connections} {m : Mapping} {raw : String}

/-- A mapping that can be stored has a query in the dialect of its connection. -/
theorem Mapping.Kept.exists_query (h : m.Kept connections) :
    ∃ dialect q, Compiler.compileMapping ⟨dialect, none⟩ m none = .ok q := by
  have hcheck := h.checked
  unfold Mapping.checkStorable at hcheck
  split at hcheck
  · cases hcheck
  · obtain ⟨dialect, -, hcheck⟩ := bind_eq_ok_iff.mp hcheck
    obtain ⟨q, hquery, -⟩ := bind_eq_ok_iff.mp hcheck
    refine ⟨dialect, q, ?_⟩
    cases hcompile : Compiler.compileMapping ⟨dialect, none⟩ m none with
    | error defect =>
      rw [hcompile] at hquery
      cases hquery
    | ok query =>
      rw [hcompile] at hquery
      cases hquery
      rfl

/-- A query that is written by hand is checked without regard to the limit and the dialect. -/
theorem Mapping.Kept.exists_statement (h : m.Kept connections) (hraw : m.rawQuery = some raw) :
    ∃ statement, checkSelect raw = .ok statement ∧ ∀ (d : Dialect) (n : Nat), 1 ≤ n → n ≤ maxRows →
      Compiler.compileMapping ⟨d, none⟩ m (some n) =
        .ok ⟨d.beforeStatement n ++ statement ++ ") q" ++ d.limitClause (some n), []⟩ := by
  have hgiven : m.rawQuery.filter (fun q => !Text.isBlankText q) = some raw := by
    simp [hraw, h.given raw hraw]
  obtain ⟨dialect, q, hquery⟩ := h.exists_query
  unfold Compiler.compileMapping at hquery ⊢
  rw [hgiven] at hquery ⊢
  obtain ⟨_, -, hquery⟩ := bind_eq_ok_iff.mp hquery
  obtain ⟨statement, hstatement, -⟩ := bind_eq_ok_iff.mp hquery
  obtain ⟨htrimmed, hseparator⟩ := checkSelect_eq_ok hstatement
  refine ⟨statement, hstatement, fun d n hpos hle => ?_⟩
  refine bind_eq_ok_iff.mpr ⟨(), checkLimit_of_le hpos hle, ?_⟩
  refine bind_eq_ok_iff.mpr ⟨statement, hstatement, ?_⟩
  rw [limitStatement_eq htrimmed hseparator]

end Checked

namespace Concurrent

variable {sources : Loading.Sources} {alone : Task → Prop} {w : World}

/-- However mappings are created, changed, and made active or inactive, each one that is stored has a
query for any dialect and any row limit within bounds. Without a query written by hand it is
compiled; its parameters are the operands of the filters, and the limit is stated once, directly
after `SELECT` or at the end. A query that is written by hand has no parameters, and is wrapped into
one with the limit. -/
theorem stored_mapping_loads (hw : Reachable sources alone w) {m : Mapping}
    (hm : m ∈ w.store.mappings) :
    (m.rawQuery = none → ∃ body : Dialect → String, ∀ (d : Dialect) (n : Nat), 1 ≤ n → n ≤ maxRows →
      ∃ sql, Compiler.compileMapping ⟨d, none⟩ m (some n) =
          .ok ⟨sql, m.filters.flatMap Filter.operands⟩ ∧
        sql = "SELECT " ++ d.topClause (some n) ++ body d ++ d.limitClause (some n) ∧
        StatesLimit d n sql) ∧
    ∀ raw, m.rawQuery = some raw → ∃ statement, checkSelect raw = .ok statement ∧
      ∀ (d : Dialect) (n : Nat), 1 ≤ n → n ≤ maxRows →
        Compiler.compileMapping ⟨d, none⟩ m (some n) =
          .ok ⟨"SELECT " ++ d.topClause (some n) ++ "* FROM (" ++ statement ++ ") q" ++
            d.limitClause (some n), []⟩ := by
  have hkept : m.Kept sources.connections := hw.keepsMappings.stored m hm
  refine ⟨fun hnone => ?_, fun raw hraw => hkept.exists_statement hraw⟩
  have hcompiled : ∀ c limit, Compiler.compileMapping c m limit = c.compile (.ofMapping m limit) :=
    fun c limit => compileMapping_eq_compile fun raw hraw => by cases hnone.symm.trans hraw
  obtain ⟨dialect, q, hquery⟩ := hkept.exists_query
  rw [hcompiled] at hquery
  obtain ⟨body, hbody⟩ := compile_anyLimit hquery
  refine ⟨body, fun d n hpos hle => ?_⟩
  rw [hcompiled]
  exact hbody d n hpos hle

/-- A mapping gets a query that is written by hand, or loses it. -/
def giveQuery (mapping : Nat) (query : Option String) : Task :=
  .updateMapping (.ofNat 1) (.ofNat mapping) ⟨none, none, none, none, none, some query⟩

/-- The version of a mapping, its own query and the text of its query for five rows. -/
def queried (m : Mapping) : Int × Option String × Option String :=
  (m.version, m.rawQuery, (Compiler.compileMapping ⟨.msSql, none⟩ m (some 5)).toOption.map (·.sql))

/-- Two mappings get queries that are written by hand, and one of them loses it again. -/
def switched : List Move :=
  [.begin (newMapping "A" true), .begin (newMapping "B" false)] ++ goOn 1 0 3 ++ goOn 4 1 3 ++
  [.begin (giveQuery 2000 (some "SELECT 1")), .begin (giveQuery 5000 (some " SELECT code FROM items; "))] ++
  goOn 7 2 3 ++ goOn 10 3 3 ++ [.begin (giveQuery 2000 none)] ++ goOn 13 4 3

theorem stored_mapping_loads_switched :
    (∃ m ∈ (played oneConnection switched).store.mappings, m.version = 3 ∧ m.rawQuery = none ∧
      ∃ sql parameters, Compiler.compileMapping ⟨.msSql, none⟩ m (some 5) = .ok ⟨sql, parameters⟩ ∧
        sql = "SELECT TOP 5 code AS [item_code] FROM items i" ∧ StatesLimit .msSql 5 sql) ∧
    ∃ m ∈ (played oneConnection switched).store.mappings, m.version = 2 ∧
      m.rawQuery = some " SELECT code FROM items; " ∧
      Compiler.compileMapping ⟨.mySql, none⟩ m (some 10000) =
        .ok ⟨"SELECT * FROM (SELECT code FROM items) q LIMIT 10000", []⟩ := by
  have hw : Reachable oneConnection nobody (played oneConnection switched) :=
    played_reachable fun _ _ h => h
  have hqueried : (played oneConnection switched).store.mappings.map queried =
      [(3, none, some "SELECT TOP 5 code AS [item_code] FROM items i"),
        (2, some " SELECT code FROM items; ",
          some "SELECT TOP 5 * FROM (SELECT code FROM items) q")] := by
    decide +kernel
  constructor
  · obtain ⟨m, hm, hfirst⟩ := List.mem_map.mp (hqueried ▸ List.mem_cons_self)
    obtain ⟨hversion, hquery⟩ := Prod.mk.inj hfirst
    obtain ⟨hraw, htext⟩ := Prod.mk.inj hquery
    obtain ⟨body, hbody⟩ := (stored_mapping_loads hw hm).1 hraw
    obtain ⟨sql, hcompile, -, hlimit⟩ := hbody .msSql 5 (by decide) (by decide)
    rw [hcompile] at htext
    exact ⟨m, hm, hversion, hraw, sql, _, hcompile, Option.some.inj htext, hlimit⟩
  · obtain ⟨m, hm, hsecond⟩ :=
      List.mem_map.mp (hqueried ▸ List.mem_cons_of_mem _ List.mem_cons_self)
    obtain ⟨hversion, hquery⟩ := Prod.mk.inj hsecond
    obtain ⟨hraw, -⟩ := Prod.mk.inj hquery
    obtain ⟨statement, hstatement, hwrapped⟩ := (stored_mapping_loads hw hm).2 _ hraw
    have hchecked : checkSelect " SELECT code FROM items; " = .ok "SELECT code FROM items" := by
      decide
    cases hchecked.symm.trans hstatement
    exact ⟨m, hm, hversion, hraw, hwrapped .mySql 10000 (by decide) (by decide)⟩

end Concurrent
end Recount
