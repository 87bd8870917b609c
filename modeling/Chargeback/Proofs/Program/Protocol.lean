import Chargeback.Program

/-!
# Protocols

A protocol says what a program may ask for. What it allows depends on what the
program has been told so far, of which it keeps a note: each answer turns one note
into the next. A program obeys a protocol if each of its requests is allowed,
whatever the answers are. Since nothing is assumed about them, this says something
about the program among others that change the state between its requests, as well
as about the program alone.

## Main definitions

* `Protocol`: which requests are allowed, and the notes that are kept.
* `Program.Obeys`: a program that keeps to a protocol, with what holds at its end.
* `Program.Obeys.run`: a run of such a program against answers from a state.
* `Program.noted`: the note at the end of a run.
-/

namespace Chargeback

/-- Which requests are allowed, by a note of the answers that have been given. -/
structure Protocol (I : Interface) (N : Type) where
  allows : N → I.Request → Prop
  /-- The note after the answer to a request. -/
  after : N → (r : I.Request) → I.Answer r → N

namespace Program

variable {I J : Interface} {N α β σ : Type}

/-- All requests of the program are allowed, from the given note on, and its result
is one of those that may stand at the end. -/
def Obeys (P : Protocol I N) (post : N → α → Prop) : Program I α → N → Prop
  | done a, n => post n a
  | call r next, n => P.allows n r ∧ ∀ a, Obeys P post (next a) (P.after n r a)

variable {P : Protocol I N} {post : N → α → Prop} {n : N}

@[simp] theorem obeys_done {a : α} : (done a : Program I α).Obeys P post n ↔ post n a := Iff.rfl

@[simp] theorem obeys_call {r : I.Request} {next : I.Answer r → Program I α} :
    (call r next).Obeys P post n ↔
      P.allows n r ∧ ∀ a, (next a).Obeys P post (P.after n r a) := Iff.rfl

theorem obeys_ask {r : I.Request} {post : N → I.Answer r → Prop} (h : P.allows n r)
    (hpost : ∀ a, post (P.after n r a) a) : (ask r).Obeys P post n :=
  ⟨h, hpost⟩

/-- What may stand at the end can be widened. -/
theorem Obeys.mono {p : Program I α} (h : p.Obeys P post n) {post' : N → α → Prop}
    (hpost : ∀ m a, post m a → post' m a) : p.Obeys P post' n := by
  induction p generalizing n with
  | done a => exact hpost n a h
  | call r next ih => exact ⟨h.1, fun a => ih a (h.2 a)⟩

/-- A program that follows another one starts from the note at the other's end. -/
theorem Obeys.bind {p : Program I α} (h : p.Obeys P post n) {f : α → Program I β}
    {post' : N → β → Prop} (hf : ∀ m a, post m a → (f a).Obeys P post' m) :
    (p.bind f).Obeys P post' n := by
  induction p generalizing n with
  | done a => exact hf n a h
  | call r next ih => exact ⟨h.1, fun a => ih a (h.2 a)⟩

/-- What each of the carrying programs keeps is kept by the embedded one. -/
theorem obeys_embed {Q : Protocol J N} {f : (r : I.Request) → Program J (I.Answer r)}
    {inv : N → Prop} (hf : ∀ r m, inv m → (f r).Obeys Q (fun m' _ => inv m') m)
    (p : Program I α) (hn : inv n) : (p.embed f).Obeys Q (fun m _ => inv m) n := by
  induction p generalizing n with
  | done a => exact hn
  | call r next ih => exact (hf r n hn).bind fun m a hm => ih a hm

/-- If every answer to an allowed request keeps the note in step with the state, then
so does the whole run, and its result may stand at the end. -/
theorem Obeys.run {answer : (r : I.Request) → σ → I.Answer r × σ} {R : N → σ → Prop}
    (step : ∀ m r s, P.allows m r → R m s → R (P.after m r (answer r s).1) (answer r s).2)
    {p : Program I α} (h : p.Obeys P post n) {s : σ} (hR : R n s) :
    ∃ m, post m (p.run answer s).1 ∧ R m (p.run answer s).2 := by
  induction p generalizing n s with
  | done a => exact ⟨n, h, hR⟩
  | call r next ih => exact ih _ (h.2 _) (step n r s h.1 hR)

/-- The note at the end of a run. -/
def noted (after : N → (r : I.Request) → I.Answer r → N)
    (answer : (r : I.Request) → σ → I.Answer r × σ) : Program I α → N → σ → N
  | done _, n, _ => n
  | call r next, n, s =>
    noted after answer (next (answer r s).1) (after n r (answer r s).1) (answer r s).2

/-- A program that follows another one takes over its note. -/
theorem noted_bind (after : N → (r : I.Request) → I.Answer r → N)
    (answer : (r : I.Request) → σ → I.Answer r × σ) (p : Program I α) (f : α → Program I β) (n : N)
    (s : σ) :
    (p.bind f).noted after answer n s =
      (f (p.run answer s).1).noted after answer (p.noted after answer n s) (p.run answer s).2 := by
  induction p generalizing n s with
  | done a => rfl
  | call r next ih => exact ih _ _ _

/-- The result of a run may stand at the end of its note. -/
theorem Obeys.noted {p : Program I α} (h : p.Obeys P post n)
    (answer : (r : I.Request) → σ → I.Answer r × σ) (s : σ) :
    post (p.noted P.after answer n s) (p.run answer s).1 := by
  induction p generalizing n s with
  | done a => exact h
  | call r next ih => exact ih _ (h.2 _) _

/-- What every answer keeps is kept by a run. -/
theorem run_keeps {answer : (r : I.Request) → σ → I.Answer r × σ} {Q : σ → Prop}
    (step : ∀ r s, Q s → Q (answer r s).2) (p : Program I α) {s : σ} (h : Q s) :
    Q (p.run answer s).2 := by
  induction p generalizing s with
  | done a => exact h
  | call r next ih => exact ih _ (step r s h)

/-- A program runs in the same way against two environments that give the same answers. -/
theorem run_agrees {τ : Type} {answer : (r : I.Request) → σ → I.Answer r × σ}
    {answer' : (r : I.Request) → τ → I.Answer r × τ} {R : σ → τ → Prop}
    (step : ∀ r s t, R s t → (answer r s).1 = (answer' r t).1 ∧ R (answer r s).2 (answer' r t).2)
    (p : Program I α) {s : σ} {t : τ} (h : R s t) :
    (p.run answer s).1 = (p.run answer' t).1 ∧ R (p.run answer s).2 (p.run answer' t).2 := by
  induction p generalizing s t with
  | done a => exact ⟨rfl, h⟩
  | call r next ih =>
    obtain ⟨hanswer, hnext⟩ := step r s t h
    rw [run_call, run_call, hanswer]
    exact ih _ hnext

/-- The run of an embedded program carries out its requests one by one. -/
theorem run_embed (answer : (r : J.Request) → σ → J.Answer r × σ)
    (f : (r : I.Request) → Program J (I.Answer r)) (p : Program I α) (s : σ) :
    (p.embed f).run answer s = p.run (fun r => (f r).run answer) s := by
  induction p generalizing s with
  | done a => rfl
  | call r next ih => simp only [embed, run_bind, run_call, ih]

end Program

end Chargeback
