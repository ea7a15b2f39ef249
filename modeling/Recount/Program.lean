import Recount.Decimal.Basic

/-!
# Programs

A program is a tree of requests: it ends with a result, stops at an overflow, or asks for
something and goes on with the answer. What answers a request is left open, so one program can be
run against a store, against a database, or step by step among other programs.
-/

namespace Recount

/-- A program that asks requests of type `Q`, each with answers of its own type, and ends with an
`α`. -/
inductive Program (Q : Type) (A : Q → Type) (α : Type) where
  | done (result : α)
  | stop (overflow : Overflow)
  | ask (request : Q) (next : A request → Program Q A α)

namespace Program

variable {Q R : Type} {A : Q → Type} {B : R → Type} {α β : Type}

/-- Goes on with the result of a program. -/
def bind : Program Q A α → (α → Program Q A β) → Program Q A β
  | done a, f => f a
  | stop o, _ => stop o
  | ask q next, f => ask q fun answer => (next answer).bind f

instance : Monad (Program Q A) where
  pure := done
  bind := bind

/-- Asks one request. -/
def request (q : Q) : Program Q A (A q) := ask q done

/-- The result of an arithmetic operation, or the end at its overflow. -/
def ofArithmetic : Except Overflow α → Program Q A α
  | .ok a => done a
  | .error o => stop o

/-- Replaces each request by a program that finds its answer. -/
def expand (f : (q : Q) → Program R B (A q)) : Program Q A α → Program R B α
  | done a => done a
  | stop o => stop o
  | ask q next => (f q).bind fun answer => (next answer).expand f

/-- Runs a program. Each request is answered in a state, which it may change. -/
def run {σ : Type} (handle : (q : Q) → σ → Except Overflow (A q) × σ) :
    Program Q A α → σ → Except Overflow α × σ
  | done a, s => (.ok a, s)
  | stop o, s => (.error o, s)
  | ask q next, s =>
    match handle q s with
    | (.ok answer, s) => (next answer).run handle s
    | (.error o, s) => (.error o, s)

@[simp] theorem bind_done (a : α) (f : α → Program Q A β) : (done a).bind f = f a := rfl

@[simp] theorem bind_stop (o : Overflow) (f : α → Program Q A β) : (stop o).bind f = stop o := rfl

@[simp] theorem bind_ask (q : Q) (next : A q → Program Q A α) (f : α → Program Q A β) :
    (ask q next).bind f = ask q fun answer => (next answer).bind f := rfl

theorem bind_done_right (p : Program Q A α) : p.bind done = p := by
  induction p with
  | done a => rfl
  | stop o => rfl
  | ask q next ih => simp [ih]

theorem bind_assoc {γ : Type} (p : Program Q A α) (f : α → Program Q A β)
    (g : β → Program Q A γ) : (p.bind f).bind g = p.bind fun a => (f a).bind g := by
  induction p with
  | done a => rfl
  | stop o => rfl
  | ask q next ih => simp [ih]

end Program
end Recount
