import Recount.Proofs.Program.Keeps

/-!
# What remains of a program

A program that was asked some requests and had its answers goes on with what remains of
it. What remains is determined by the history, so a task that has come to the end of an
action has come to one result.
-/

namespace Recount.Program

variable {Q : Type} {A : Q → Type} {α β : Type} {p r r' : Program Q A α}
  {h : List (Exchange Q A)}

/-- After a history, the latest exchange of which comes first, something remains of a program. -/
inductive Reaches (p : Program Q A α) : List (Exchange Q A) → Program Q A α → Prop
  | start : Reaches p [] p
  | ask {h q next} (hp : Reaches p h (.ask q next)) (answer : A q) :
      Reaches p (⟨q, answer⟩ :: h) (next answer)

theorem Reaches.unique (hr : p.Reaches h r) (hr' : p.Reaches h r') : r = r' := by
  induction hr generalizing r' with
  | start =>
    cases hr'
    rfl
  | ask hp answer ih =>
    cases hr' with
    | ask hp' answer' =>
      cases ih hp'
      rfl

/-- A program that keeps a rule has kept it with every request of its history. -/
theorem Reaches.keeps {rule : Rule Q A} {post : α → List (Exchange Q A) → Prop}
    (hr : p.Reaches h r) (hp : p.Keeps rule post []) :
    r.Keeps rule post h ∧ ∀ later e earlier, h = later ++ e :: earlier → rule earlier e.request := by
  induction hr with
  | start => exact ⟨hp, fun later e earlier heq => by cases later <;> cases heq⟩
  | @ask h q next _ answer ih =>
    obtain ⟨⟨hrule, hrest⟩, hbefore⟩ := ih
    refine ⟨hrest answer, fun later e earlier heq => ?_⟩
    cases later with
    | nil =>
      cases heq
      exact hrule
    | cons last later => exact hbefore later e earlier (List.cons.inj heq).2

/-- What remains of two programs one after the other is what remains of the first one, with the second
one after it, or what remains of the second one after the first one has ended. -/
theorem Reaches.bind_cases {f : α → Program Q A β} {r : Program Q A β} (hr : (p.bind f).Reaches h r) :
    (∃ r', p.Reaches h r' ∧ r = r'.bind f) ∨
      ∃ a earlier later, h = later ++ earlier ∧ p.Reaches earlier (.done a) ∧
        (f a).Reaches later r := by
  induction hr with
  | start => exact .inl ⟨p, .start, rfl⟩
  | @ask h q next _ answer ih =>
    rcases ih with ⟨r', hr', heq⟩ | ⟨a, earlier, later, rfl, hdone, hlater⟩
    · cases r' with
      | done a =>
        refine .inr ⟨a, h, [⟨q, answer⟩], rfl, hr', .ask ?_ answer⟩
        exact heq ▸ .start
      | stop o => cases heq
      | ask q' next' =>
        obtain ⟨rfl, hnext⟩ := Program.ask.inj heq
        cases hnext
        exact .inl ⟨next' answer, .ask hr' answer, rfl⟩
    · exact .inr ⟨a, earlier, ⟨q, answer⟩ :: later, rfl, hdone, .ask hlater answer⟩

/-- Nothing is asked after the end. -/
theorem Reaches.of_done {a : α} (hr : (done a : Program Q A α).Reaches h r) : h = [] ∧ r = .done a := by
  induction hr with
  | start => exact ⟨rfl, rfl⟩
  | ask hp answer ih => cases ih.2

/-- Nothing is asked after an overflow. -/
theorem Reaches.of_stop {o : Overflow} (hr : (stop o : Program Q A α).Reaches h r) :
    h = [] ∧ r = .stop o := by
  induction hr with
  | start => exact ⟨rfl, rfl⟩
  | ask hp answer ih => cases ih.2

/-- After its first request, a program goes on with the answer. -/
theorem Reaches.of_ask {q : Q} {next : A q → Program Q A α} (hr : (Program.ask q next).Reaches h r) :
    (h = [] ∧ r = .ask q next) ∨
      ∃ answer later, h = later ++ [⟨q, answer⟩] ∧ (next answer).Reaches later r := by
  induction hr with
  | start => exact .inl ⟨rfl, rfl⟩
  | @ask h q' next' _ answer ih =>
    rcases ih with ⟨rfl, heq⟩ | ⟨first, later, rfl, hlater⟩
    · obtain ⟨rfl, hnext⟩ := Program.ask.inj heq
      cases hnext
      exact .inr ⟨answer, [], rfl, .start⟩
    · exact .inr ⟨first, ⟨q', answer⟩ :: later, rfl, .ask hlater answer⟩

/-- If a program only has its result changed at the end, what remains of it has so, too. -/
theorem Reaches.of_bind_done {f : α → β} {r : Program Q A β}
    (hr : (p.bind fun a => .done (f a)).Reaches h r) :
    ∃ r', p.Reaches h r' ∧ r = r'.bind fun a => .done (f a) := by
  rcases hr.bind_cases with hr' | ⟨a, earlier, later, rfl, hdone, hlater⟩
  · exact hr'
  · obtain ⟨rfl, rfl⟩ := hlater.of_done
    exact ⟨.done a, hdone, rfl⟩

/-- What remains goes on. -/
theorem Reaches.trans {later : List (Exchange Q A)} (hp : p.Reaches h r) (hr : r.Reaches later r') :
    p.Reaches (later ++ h) r' := by
  induction hr with
  | start => exact hp
  | ask _ answer ih => exact .ask ih answer

/-- A later history is one of what remains. -/
theorem Reaches.rest {later : List (Exchange Q A)} (hp : p.Reaches h r)
    (hr : p.Reaches (later ++ h) r') : r.Reaches later r' := by
  induction later generalizing r' with
  | nil => exact hp.unique hr ▸ .start
  | cons e later ih =>
    cases hr with
    | ask hr answer => exact .ask (ih hr) answer

/-- Work that comes afterwards waits for the end. -/
theorem Reaches.bind_left {f : α → Program Q A β} (hp : p.Reaches h r) :
    (p.bind f).Reaches h (r.bind f) := by
  induction hp with
  | start => exact .start
  | ask _ answer ih => exact .ask ih answer

/-- A program comes to an end once: no history at its end goes on. -/
theorem Reaches.eq_of_suffix {a : α} {h' : List (Exchange Q A)} (hp : p.Reaches h (.done a))
    (hp' : p.Reaches h' r) (hsuffix : h <:+ h') : h' = h ∧ r = .done a := by
  induction hp' with
  | start =>
    obtain rfl := List.suffix_nil.mp hsuffix
    exact ⟨rfl, hp.unique .start ▸ rfl⟩
  | @ask h' q next hbefore answer ih =>
    rcases List.suffix_cons_iff.mp hsuffix with rfl | hsuffix
    · exact ⟨rfl, (hp.unique (.ask hbefore answer)).symm⟩
    · cases (ih hsuffix).2

/-- In one history a program comes to its end once. -/
theorem Reaches.eq_of_suffixes {a b : α} {h' whole : List (Exchange Q A)}
    (hp : p.Reaches h (.done a)) (hp' : p.Reaches h' (.done b)) (hsuffix : h <:+ whole)
    (hsuffix' : h' <:+ whole) :
    h' = h ∧ b = a := by
  rcases List.suffix_or_suffix_of_suffix hsuffix hsuffix' with hle | hle
  · obtain ⟨rfl, heq⟩ := hp.eq_of_suffix hp' hle
    cases heq
    exact ⟨rfl, rfl⟩
  · obtain ⟨rfl, heq⟩ := hp'.eq_of_suffix hp hle
    cases heq
    exact ⟨rfl, rfl⟩

section Server

/-- What answers every request, by the history that it comes after. -/
abbrev Server (Q : Type) (A : Q → Type) := List (Exchange Q A) → (q : Q) → A q

/-- The history and the result of a program that is answered by a server. -/
def against (server : Server Q A) : Program Q A α → List (Exchange Q A) →
    List (Exchange Q A) × Except Overflow α
  | done a, h => (h, .ok a)
  | stop o, h => (h, .error o)
  | ask q next, h => (next (server h q)).against server (⟨q, server h q⟩ :: h)

variable {server : Server Q A}

/-- A program that is answered by a server comes to its end. -/
theorem Reaches.against (hp : p.Reaches h r) :
    p.Reaches (r.against server h).1 (.ofArithmetic (r.against server h).2) := by
  induction r generalizing h with
  | done a => exact hp
  | stop o => exact hp
  | ask q next ih => exact ih (server h q) (.ask hp (server h q))

/-- A server adds its own answers to a history. -/
theorem exists_against_eq : ∃ later, (p.against server h).1 = later ++ h ∧
    ∀ e ∈ later, ∃ earlier, e.answer = server earlier e.request := by
  induction p generalizing h with
  | done a => exact ⟨[], rfl, List.forall_mem_nil _⟩
  | stop o => exact ⟨[], rfl, List.forall_mem_nil _⟩
  | ask q next ih =>
    obtain ⟨later, hlater, hserved⟩ := ih (server h q) (h := ⟨q, server h q⟩ :: h)
    refine ⟨later ++ [⟨q, server h q⟩], hlater.trans (List.append_cons ..), fun e he => ?_⟩
    rcases List.mem_append.mp he with he | he
    · exact hserved e he
    · rw [List.mem_singleton.mp he]
      exact ⟨h, rfl⟩

/-- Of two programs one after the other, the second one goes on with the history of the first one. -/
theorem against_bind {f : α → Program Q A β} : (p.bind f).against server h =
    match p.against server h with
    | (h', .ok a) => (f a).against server h'
    | (h', .error o) => (h', .error o) := by
  induction p generalizing h with
  | done a => rfl
  | stop o => rfl
  | ask q next ih => exact ih (server h q)

end Server

end Recount.Program

namespace Recount.Action

open Program (Exchange Reaches)

variable {Q : Type} {A : Q → Type} {α β : Type}

/-- An action has ended with a result, after a history. -/
def Ends (x : ActionOver Q A α) (h : List (Exchange Q A)) (result : Except Error α) : Prop :=
  x.run.Reaches h (.done result)

section Ends

variable {x : ActionOver Q A α} {h : List (Exchange Q A)} {result : Except Error α}

/-- What remains of two actions one after the other: the first one is still on its way or has
failed, or what remains is that of the second one. -/
theorem reaches_bind {f : α → ActionOver Q A β} {rest : Program Q A (Except Error β)}
    (hrest : (x >>= f).run.Reaches h rest) :
    (∃ r, x.run.Reaches h r ∧ (∀ b, rest ≠ .done (.ok b)) ∧
      ∀ e, rest = .done (.error e) → r = .done (.error e)) ∨
    ∃ a earlier later, h = later ++ earlier ∧ Ends x earlier (.ok a) ∧
      (f a).run.Reaches later rest := by
  rcases Program.Reaches.bind_cases hrest with
    ⟨r, hr, rfl⟩ | ⟨result, earlier, later, rfl, hend, hrest⟩
  · match r with
    | .done (.ok a) => exact .inr ⟨a, h, [], rfl, hr, .start⟩
    | .done (.error e) =>
      refine .inl ⟨_, hr, by rintro _ ⟨⟩, fun e' he => ?_⟩
      cases he
      rfl
    | .stop o => exact .inl ⟨_, hr, by rintro _ ⟨⟩, by rintro _ ⟨⟩⟩
    | .ask q next => exact .inl ⟨_, hr, by rintro _ ⟨⟩, by rintro _ ⟨⟩⟩
  · match result with
    | .ok a => exact .inr ⟨a, earlier, later, rfl, hend, hrest⟩
    | .error e =>
      obtain ⟨rfl, rfl⟩ := hrest.of_done
      refine .inl ⟨_, hend, by rintro _ ⟨⟩, fun e' he => ?_⟩
      cases he
      rfl

theorem ends_bind {f : α → ActionOver Q A β} {result : Except Error β} :
    Ends (x >>= f) h result ↔
      (∃ a earlier later, h = later ++ earlier ∧ Ends x earlier (.ok a) ∧ Ends (f a) later result) ∨
        ∃ e, result = .error e ∧ Ends x h (.error e) := by
  constructor
  · intro hx
    rcases reaches_bind hx with ⟨r, hr, hno, herror⟩ | hrest
    · cases result with
      | ok b => exact absurd rfl (hno b)
      | error e =>
        cases herror e rfl
        exact .inr ⟨e, rfl, hr⟩
    · exact .inl hrest
  · rintro (⟨a, earlier, later, rfl, hx, hf⟩ | ⟨e, rfl, hx⟩)
    · exact (Program.Reaches.bind_left hx).trans hf
    · exact Program.Reaches.bind_left hx

theorem ends_ok_bind {f : α → ActionOver Q A β} {b : β} : Ends (x >>= f) h (.ok b) ↔
    ∃ a earlier later, h = later ++ earlier ∧ Ends x earlier (.ok a) ∧
      Ends (f a) later (.ok b) := by
  rw [ends_bind]
  exact or_iff_left (by rintro ⟨_, ⟨⟩, _⟩)

@[simp] theorem ends_check {result' : Except Error α} :
    Ends (check result') h result ↔ h = [] ∧ result = result' := by
  constructor
  · intro hx
    obtain ⟨rfl, heq⟩ := Program.Reaches.of_done hx
    cases heq
    exact ⟨rfl, rfl⟩
  · rintro ⟨rfl, rfl⟩
    exact .start

@[simp] theorem ends_pure {a : α} :
    Ends (pure a : ActionOver Q A α) h result ↔ h = [] ∧ result = .ok a :=
  show Ends (check (.ok a)) h result ↔ _ from ends_check

theorem ends_attempt {result : Except Error (Except Error α)} :
    Ends (attempt x) h result ↔ ∃ r, result = .ok r ∧ Ends x h r := by
  constructor
  · intro hx
    obtain ⟨r, hr, heq⟩ := Program.Reaches.of_bind_done hx
    match r with
    | .done r =>
      cases heq
      exact ⟨r, rfl, hr⟩
    | .stop o => cases heq
    | .ask q next => cases heq
  · rintro ⟨r, rfl, hx⟩
    exact Program.Reaches.bind_left hx

theorem ends_require {missing : Missing} {o : Option α} {a : α} :
    Ends (require missing o) h (.ok a) ↔ h = [] ∧ o = some a := by
  cases o <;> simp [require, fail, eq_comm]

end Ends

section Requests

variable {h : List (Exchange Request Request.Answer)}

/-- A request has been made once its answer is there. -/
theorem reaches_request {q : Request} {f : q.Answer → Except Error α} {result : Except Error α} :
    (Program.ask q fun answer => .done (f answer)).Reaches h (.done result) ↔
      ∃ answer, h = [⟨q, answer⟩] ∧ result = f answer := by
  constructor
  · intro hx
    rcases hx.of_ask with ⟨-, heq⟩ | ⟨answer, later, rfl, hlater⟩
    · cases heq
    · obtain ⟨rfl, heq⟩ := hlater.of_done
      cases heq
      exact ⟨answer, rfl, rfl⟩
  · rintro ⟨answer, rfl, rfl⟩
    exact .ask .start answer

theorem ends_counts {call : CountCall} {result : Except Error call.Result} :
    @Ends _ _ (no_index call.Result) (counts call) h result ↔
      h = [⟨.store (.counts call), result⟩] :=
  reaches_request.trans ⟨by rintro ⟨_, rfl, rfl⟩; rfl, fun heq => ⟨result, heq, rfl⟩⟩

theorem ends_mappings {call : MappingCall} {result : Except Error call.Result} :
    @Ends _ _ (no_index call.Result) (mappings call) h result ↔
      h = [⟨.store (.mappings call), result⟩] :=
  reaches_request.trans ⟨by rintro ⟨_, rfl, rfl⟩; rfl, fun heq => ⟨result, heq, rfl⟩⟩

theorem ends_erp {connection : Id} {call : ErpCall} {result : Except Error call.Result} :
    @Ends _ _ (no_index call.Result) (erp connection call) h result ↔
      ∃ answer : Except ErpFault call.Result,
        h = [⟨.erp connection call, answer⟩] ∧ result = answer.mapError .erp :=
  reaches_request

end Requests
end Recount.Action
