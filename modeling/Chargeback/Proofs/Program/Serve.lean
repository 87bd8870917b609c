import Chargeback.Program

/-!
# Requests in a row

What answers requests can be asked one request after another, by whoever has one
to make. All answers are kept together with their requests, in the order in which
they were given.

## Main definitions

* `Interface.serve`: the answers to a list of requests, and the state after them.
-/

namespace Chargeback

namespace Interface

variable {I : Interface} {σ τ : Type}

/-- Answer requests one after the other, from a state that each answer may change. -/
def serve (answer : (r : I.Request) → σ → I.Answer r × σ) :
    List I.Request → σ → List (Σ r, I.Answer r) × σ
  | [], s => ([], s)
  | r :: rest, s =>
    let (a, s) := answer r s
    let (answers, s) := serve answer rest s
    (⟨r, a⟩ :: answers, s)

@[simp] theorem serve_nil (answer : (r : I.Request) → σ → I.Answer r × σ) (s : σ) :
    serve answer [] s = ([], s) := rfl

@[simp] theorem serve_cons (answer : (r : I.Request) → σ → I.Answer r × σ) (r : I.Request)
    (rest : List I.Request) (s : σ) :
    serve answer (r :: rest) s =
      (⟨r, (answer r s).1⟩ :: (serve answer rest (answer r s).2).1,
        (serve answer rest (answer r s).2).2) := rfl

/-- Two states that answer each request alike, and stay related by it, answer every
list of requests alike. -/
theorem serve_simulates {answer : (r : I.Request) → σ → I.Answer r × σ}
    {answer' : (r : I.Request) → τ → I.Answer r × τ} {R : σ → τ → Prop}
    (step : ∀ r s t, R s t →
      (answer r s).1 = (answer' r t).1 ∧ R (answer r s).2 (answer' r t).2)
    (rs : List I.Request) {s : σ} {t : τ} (h : R s t) :
    (serve answer rs s).1 = (serve answer' rs t).1 ∧
      R (serve answer rs s).2 (serve answer' rs t).2 := by
  induction rs generalizing s t with
  | nil => exact ⟨rfl, h⟩
  | cons r rest ih =>
    obtain ⟨ha, hr⟩ := step r s t h
    obtain ⟨hrest, hend⟩ := ih hr
    simp only [serve_cons]
    exact ⟨by rw [ha, hrest], hend⟩

end Interface

end Chargeback
