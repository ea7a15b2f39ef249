import Recount.Action
import Mathlib.Logic.Basic

/-!
# Rules that programs keep

A program decides what to ask by the answers that it had before. A rule says which
requests are allowed after which answers, and a program keeps it if it asks nothing
else, whatever it is answered. Rules speak of one program alone, so what they say
holds among any other programs.
-/

namespace Recount

namespace Program

variable {Q : Type} {A : Q → Type} {α β : Type}

/-- A request with its answer. -/
structure Exchange (Q : Type) (A : Q → Type) where
  request : Q
  answer : A request

/-- The requests that are allowed after a history, the latest exchange of which comes first. -/
abbrev Rule (Q : Type) (A : Q → Type) := List (Exchange Q A) → Q → Prop

/-- After a history, a program asks only what is allowed, and if it ends, its result and the whole
history satisfy a condition. -/
def Keeps (rule : Rule Q A) (post : α → List (Exchange Q A) → Prop) :
    Program Q A α → List (Exchange Q A) → Prop
  | done a, h => post a h
  | stop _, _ => True
  | ask q next, h => rule h q ∧ ∀ answer, (next answer).Keeps rule post (⟨q, answer⟩ :: h)

variable {rule rule' : Rule Q A} {post post' : α → List (Exchange Q A) → Prop}
  {p : Program Q A α} {h : List (Exchange Q A)}

theorem keeps_ask {q : Q} {next : A q → Program Q A α} :
    (ask q next).Keeps rule post h ↔
      rule h q ∧ ∀ answer, (next answer).Keeps rule post (⟨q, answer⟩ :: h) := Iff.rfl

theorem keeps_bind {f : α → Program Q A β} {post : β → List (Exchange Q A) → Prop} :
    (p.bind f).Keeps rule post h ↔ p.Keeps rule (fun a h => (f a).Keeps rule post h) h := by
  induction p generalizing h with
  | done a => rfl
  | stop o => rfl
  | ask q next ih => simp only [bind_ask, keeps_ask, ih]

/-- A rule that allows more is kept, and so is a condition that follows from what is known at the
end: the history there has the one from before as its earlier part. -/
theorem Keeps.mono (hp : p.Keeps rule post h) (hrule : ∀ h q, rule h q → rule' h q)
    (hpost : ∀ a h', h <:+ h' → post a h' → post' a h') : p.Keeps rule' post' h := by
  induction p generalizing h with
  | done a => exact hpost a h (List.suffix_refl h) hp
  | stop o => trivial
  | ask q next ih =>
    refine ⟨hrule h q hp.1, fun answer => ih answer (hp.2 answer) fun a h' hsuffix => ?_⟩
    exact hpost a h' ((List.suffix_cons _ _).trans hsuffix)

/-- A rule is kept if it allows what another one does after a history that began as this one. -/
theorem Keeps.weaken (hp : p.Keeps rule post h)
    (hrule : ∀ h' q, h <:+ h' → rule h' q → rule' h' q) : p.Keeps rule' post h := by
  induction p generalizing h with
  | done a => exact hp
  | stop o => trivial
  | ask q next ih =>
    refine ⟨hrule h q (List.suffix_refl h) hp.1, fun answer => ih answer (hp.2 answer) ?_⟩
    exact fun h' q' hsuffix => hrule h' q' ((List.suffix_cons _ _).trans hsuffix)

end Program

namespace Action

open Program (Exchange Rule)

variable {Q : Type} {A : Q → Type} {α β : Type}

/-- An action keeps a rule, and if it succeeds, its result and the whole history satisfy a
condition. -/
def Keeps (rule : Rule Q A) (post : α → List (Exchange Q A) → Prop) (x : ActionOver Q A α)
    (h : List (Exchange Q A)) : Prop :=
  Program.Keeps rule (fun result h => ∀ a, result = .ok a → post a h) x.run h

section Steps

variable {rule rule' : Rule Q A} {post post' : α → List (Exchange Q A) → Prop}
  {x : ActionOver Q A α} {h : List (Exchange Q A)}

theorem Keeps.mono (hx : Keeps rule post x h) (hrule : ∀ h q, rule h q → rule' h q)
    (hpost : ∀ a h', h <:+ h' → post a h' → post' a h') : Keeps rule' post' x h :=
  Program.Keeps.mono hx hrule fun _ h' hsuffix hp a ha => hpost a h' hsuffix (hp a ha)

@[simp] theorem keeps_pure {a : α} : Keeps rule post (pure a) h ↔ post a h :=
  ⟨fun hp => hp a rfl, fun hp _ ha => by cases ha; exact hp⟩

@[simp] theorem keeps_bind {f : α → ActionOver Q A β} {post : β → List (Exchange Q A) → Prop} :
    Keeps rule post (x >>= f) h ↔ Keeps rule (fun a h => Keeps rule post (f a) h) x h := by
  refine Program.keeps_bind.trans (iff_of_eq (congrArg (Program.Keeps rule · x.run h) ?_))
  funext result h
  cases result with
  | ok a => exact propext ⟨fun hf _ ha => by cases ha; exact hf, fun hf => hf a rfl⟩
  | error e => exact propext (iff_of_true (fun _ ha => by cases ha) fun _ ha => by cases ha)

@[simp] theorem keeps_map {f : α → β} {post : β → List (Exchange Q A) → Prop} :
    Keeps rule post (f <$> x) h ↔ Keeps rule (fun a h => post (f a) h) x h :=
  (keeps_bind (f := fun a => pure (f a))).trans (by simp only [keeps_pure])

@[simp] theorem keeps_check {result : Except Error α} :
    Keeps rule post (check result) h ↔ ∀ a, result = .ok a → post a h := Iff.rfl

@[simp] theorem keeps_fail {e : Error} : Keeps rule post (fail e) h ↔ True :=
  ⟨fun _ => trivial, fun _ _ ha => by cases ha⟩

@[simp] theorem keeps_arithmetic {result : Except Overflow α} :
    Keeps rule post (arithmetic result) h ↔ ∀ a, result = .ok a → post a h := by
  cases result with
  | ok a =>
    constructor
    · rintro hp _ ⟨⟩
      exact hp a rfl
    · rintro hp _ ⟨⟩
      exact hp a rfl
  | error o => exact iff_of_true trivial fun _ ha => by cases ha

@[simp] theorem keeps_require {missing : Missing} {o : Option α} :
    Keeps rule post (require missing o) h ↔ ∀ a, o = some a → post a h := by
  cases o <;> simp [require]

@[simp] theorem keeps_checkFields {faults : List FieldFault}
    {post : Unit → List (Exchange Q A) → Prop} :
    Keeps rule post (checkFields faults) h ↔ (faults.isEmpty = true → post () h) := by
  unfold checkFields
  split
  · next hempty => exact ⟨fun hp _ => hp () rfl, fun hp _ _ => hp hempty⟩
  · next hfaults => exact iff_of_true (fun _ ha => by cases ha) fun hempty => absurd hempty hfaults

@[simp] theorem keeps_ite {c : Prop} [Decidable c] {y : ActionOver Q A α} :
    Keeps rule post (if c then x else y) h ↔
      (c → Keeps rule post x h) ∧ (¬ c → Keeps rule post y h) := by
  split <;> simp_all

/-- An attempt goes on after an error too, of which nothing is known but the earlier history. -/
theorem Keeps.attempt {post : Except Error α → List (Exchange Q A) → Prop}
    (hx : Keeps rule (fun a h => post (.ok a) h) x h)
    (herror : ∀ e h', h <:+ h' → post (.error e) h') : Keeps rule post (Action.attempt x) h := by
  refine Program.keeps_bind.mpr (Program.Keeps.mono hx (fun _ _ hq => hq) ?_)
  rintro (e | a) h' hsuffix hp _ heq
  · cases heq
    exact herror e h' hsuffix
  · cases heq
    exact hp a rfl

/-- An action keeps a rule after every history. -/
def Follows (rule : Rule Q A) (x : ActionOver Q A α) : Prop :=
  ∀ h, Keeps rule (fun _ _ => True) x h

theorem Follows.keeps (hx : Follows rule x) (hpost : ∀ a h', h <:+ h' → post a h') :
    Keeps rule post x h :=
  (hx h).mono (fun _ _ hq => hq) fun a h' hsuffix _ => hpost a h' hsuffix

theorem Follows.bind {f : α → ActionOver Q A β} (hx : Follows rule x)
    (hf : ∀ a, Follows rule (f a)) : Follows rule (x >>= f) :=
  fun _ => keeps_bind.mpr (hx.keeps fun a h' _ => hf a h')

theorem Follows.map {f : α → β} (hx : Follows rule x) : Follows rule (f <$> x) :=
  fun _ => keeps_map.mpr (hx.keeps fun _ _ _ => trivial)

theorem Follows.attempt (hx : Follows rule x) : Follows rule (Action.attempt x) :=
  fun h => Keeps.attempt (hx h) fun _ _ _ => trivial

theorem check_follows {result : Except Error α} : Follows rule (check result) :=
  fun _ _ _ => trivial

theorem pure_follows {a : α} : Follows rule (pure a : ActionOver Q A α) :=
  fun _ => keeps_pure.mpr trivial

theorem arithmetic_follows {result : Except Overflow α} : Follows rule (arithmetic result) :=
  fun _ => keeps_arithmetic.mpr fun _ _ => trivial

theorem checkFields_follows {faults : List FieldFault} : Follows rule (checkFields faults) :=
  fun _ => keeps_checkFields.mpr fun _ => trivial

/-- What is required goes on with what is there. -/
theorem require_follows {missing : Missing} {o : Option α} {f : α → ActionOver Q A β}
    (hf : ∀ a, o = some a → Follows rule (f a)) : Follows rule (require missing o >>= f) :=
  fun h => keeps_bind.mpr (keeps_require.mpr fun a ha => hf a ha h)

/-- Work on a list follows a rule if the work on each member does. -/
theorem forM_follows {f : α → ActionOver Q A PUnit} {as : List α} (hf : ∀ a ∈ as, Follows rule (f a)) :
    Follows rule (as.forM f) := by
  induction as with
  | nil => exact pure_follows
  | cons a as ih =>
    obtain ⟨ha, has⟩ := List.forall_mem_cons.mp hf
    exact ha.bind fun _ => ih has

theorem mapM_follows {f : α → ActionOver Q A β} {as : List α} (hf : ∀ a ∈ as, Follows rule (f a)) :
    Follows rule (as.mapM f) := by
  have hloop : ∀ bs, Follows rule (List.mapM.loop f as bs) := by
    induction as with
    | nil => exact fun _ => pure_follows
    | cons a as ih =>
      obtain ⟨ha, has⟩ := List.forall_mem_cons.mp hf
      exact fun bs => ha.bind fun b => ih has (b :: bs)
  exact hloop []

end Steps

section Results

/-! What is known at the end of an action, whether it succeeds or fails. -/

variable {rule : Rule Q A} {x : ActionOver Q A α} {h : List (Exchange Q A)}

theorem keeps_attempt {post : Except Error α → List (Exchange Q A) → Prop} :
    Keeps rule post (attempt x) h ↔ x.run.Keeps rule post h := by
  refine Program.keeps_bind.trans (iff_of_eq (congrArg (Program.Keeps rule · x.run h) ?_))
  funext result h
  exact propext ⟨fun hp => hp result rfl, fun hp _ heq => by cases heq; exact hp⟩

theorem keeps_run_attempt {post : Except Error (Except Error α) → List (Exchange Q A) → Prop} :
    (attempt x).run.Keeps rule post h ↔ x.run.Keeps rule (fun result h => post (.ok result) h) h :=
  Program.keeps_bind

/-- An action goes on with the result of the one before, and ends with its error. -/
theorem keeps_run_bind {f : α → ActionOver Q A β}
    {post : Except Error β → List (Exchange Q A) → Prop} :
    (x >>= f).run.Keeps rule post h ↔ x.run.Keeps rule (fun
      | .ok a, h => (f a).run.Keeps rule post h
      | .error e, h => post (.error e) h) h := by
  refine Program.keeps_bind.trans (iff_of_eq (congrArg (Program.Keeps rule · x.run h) ?_))
  funext result h
  cases result <;> rfl

end Results

section Requests

/-! The type of an answer computes to different types for different calls, so it is left out of
the index by which `simp` finds these lemmas. -/

variable {rule : Rule Request Request.Answer} {h : List (Exchange Request Request.Answer)}

@[simp] theorem keeps_counts {call : CountCall} {post} :
    @Keeps _ _ (no_index call.Result) rule post (counts call) h ↔ rule h (.store (.counts call)) ∧
      ∀ answer : call.Result, post answer (⟨.store (.counts call), .ok answer⟩ :: h) := by
  refine and_congr_right fun _ => ⟨fun hp a => hp (.ok a) a rfl, ?_⟩
  rintro hp _ a rfl
  exact hp a

@[simp] theorem keeps_mappings {call : MappingCall} {post} :
    @Keeps _ _ (no_index call.Result) rule post (mappings call) h ↔ rule h (.store (.mappings call)) ∧
      ∀ answer : call.Result, post answer (⟨.store (.mappings call), .ok answer⟩ :: h) := by
  refine and_congr_right fun _ => ⟨fun hp a => hp (.ok a) a rfl, ?_⟩
  rintro hp _ a rfl
  exact hp a

@[simp] theorem keeps_erp {connection : Id} {call : ErpCall} {post} :
    @Keeps _ _ (no_index call.Result) rule post (erp connection call) h ↔
      rule h (.erp connection call) ∧
        ∀ answer : call.Result, post answer (⟨.erp connection call, .ok answer⟩ :: h) := by
  refine and_congr_right fun _ => ⟨fun hp a => hp (.ok a) a rfl, ?_⟩
  rintro hp (e | b) a heq
  · cases heq
  · cases heq
    exact hp b

@[simp] theorem keeps_freshId {post} :
    Keeps rule post freshId h ↔ rule h .freshId ∧ ∀ id : Id, post id (⟨.freshId, id⟩ :: h) := by
  refine and_congr_right fun _ => ⟨fun hp id => hp id id rfl, ?_⟩
  rintro hp id _ ⟨⟩
  exact hp id

@[simp] theorem keeps_now {post} :
    Keeps rule post now h ↔ rule h .now ∧ ∀ time : Time, post time (⟨.now, time⟩ :: h) := by
  refine and_congr_right fun _ => ⟨fun hp time => hp time time rfl, ?_⟩
  rintro hp time _ ⟨⟩
  exact hp time

end Requests
end Action
end Recount
