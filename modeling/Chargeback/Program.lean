/-!
# Programs that ask an environment

A program either is done or makes a request and goes on with the answer. What
answers the requests is left open: a store in memory, a store that fails now and
then, or other programs that act between two requests. A program is finite, so
each of its runs ends. A process may go on for ever: it is given by the step that
it takes from each of its states, and the first steps of it are a program.

## Main definitions

* `Interface`: requests, and the type of the answer to each.
* `Program`: the programs over an interface.
* `Program.run`: the run of a program against answers computed from a state.
* `Program.embed`: a program whose requests are carried out by other programs.
* `Step`, `Step.program`: what a process does next, and its first steps.
-/

namespace Chargeback

/-- Requests, and the type of the answer to each of them. -/
structure Interface where
  Request : Type
  Answer : Request → Type

/-- A finite program that makes requests. -/
inductive Program (I : Interface) (α : Type) where
  | done (a : α)
  | call (r : I.Request) (next : I.Answer r → Program I α)

namespace Program

variable {I J : Interface} {α β σ : Type}

/-- Go on with the result of a program. -/
def bind (p : Program I α) (f : α → Program I β) : Program I β :=
  match p with
  | done a => f a
  | call r next => call r fun a => (next a).bind f

instance : Monad (Program I) where
  pure := done
  bind := bind

/-- Make one request and give back its answer. -/
def ask (r : I.Request) : Program I (I.Answer r) := call r done

/-- Run a program, with answers and next states given by a function. -/
def run (answer : (r : I.Request) → σ → I.Answer r × σ) : Program I α → σ → α × σ
  | done a, s => (a, s)
  | call r next, s => run answer (next (answer r s).1) (answer r s).2

/-- Carry out every request by a program over another interface. -/
def embed (f : (r : I.Request) → Program J (I.Answer r)) : Program I α → Program J α
  | done a => done a
  | call r next => (f r).bind fun a => embed f (next a)

@[simp] theorem monad_pure_eq (a : α) : (Pure.pure a : Program I α) = done a := rfl

@[simp] theorem monad_bind_eq (p : Program I α) (f : α → Program I β) : p >>= f = p.bind f := rfl

@[simp] theorem done_bind (a : α) (f : α → Program I β) : (done a).bind f = f a := rfl

@[simp] theorem call_bind (r : I.Request) (next : I.Answer r → Program I α)
    (f : α → Program I β) : (call r next).bind f = call r fun a => (next a).bind f := rfl

@[simp] theorem run_done (answer : (r : I.Request) → σ → I.Answer r × σ) (a : α) (s : σ) :
    (done a : Program I α).run answer s = (a, s) := rfl

@[simp] theorem run_call (answer : (r : I.Request) → σ → I.Answer r × σ) (r : I.Request)
    (next : I.Answer r → Program I α) (s : σ) :
    (call r next).run answer s = (next (answer r s).1).run answer (answer r s).2 := rfl

@[simp] theorem run_ask (answer : (r : I.Request) → σ → I.Answer r × σ) (r : I.Request) (s : σ) :
    (ask r : Program I (I.Answer r)).run answer s = answer r s := rfl

/-- Programs that follow one another run one after the other. -/
theorem run_bind (answer : (r : I.Request) → σ → I.Answer r × σ) (p : Program I α)
    (f : α → Program I β) (s : σ) :
    (p.bind f).run answer s = (f (p.run answer s).1).run answer (p.run answer s).2 := by
  induction p generalizing s with
  | done a => rfl
  | call r next ih => simp [ih]

end Program

/-! ## Processes -/

/-- What a process does next: it is done, or it makes a request, and the answer
leads to its next state. -/
inductive Step (I : Interface) (σ α : Type) where
  | done (a : α)
  | call (r : I.Request) (next : I.Answer r → σ)

namespace Step

variable {I : Interface} {α σ : Type}

/-- The first `n` steps of a process from a state; nothing if it needs more. -/
def program (next : σ → Step I σ α) : Nat → σ → Program I (Option α)
  | 0, _ => .done none
  | n + 1, s =>
    match next s with
    | done a => .done (some a)
    | call r resume => .call r fun a => program next n (resume a)

end Step

end Chargeback
