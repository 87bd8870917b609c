import Chargeback.Proofs.Pipeline.Conservation

/-!
# Cycles end

With each post, a batch leaves the buffer or the cycle comes to its end. So a cycle over
a buffer that nobody adds to ends, with no more posts than what is buffered fills batches.
A pipeline gives its cycles as many steps as they need.

## Main definitions

* `Cycle.batchesIn`: the number of batches that a number of payloads fills.
* `Cycle.postsLeft`, `Cycle.stepsLeft`: how much is still to come of a cycle.
* `Cycle.Fits`: the answers of a buffer.
-/

namespace Chargeback

namespace Cycle

variable {b n : Nat}

/-- The number of batches that `n` payloads fill, the last one perhaps in part. -/
def batchesIn (b n : Nat) : Nat := (n + b - 1) / b

theorem batchesIn_le_iff (hb : 0 < b) {k : Nat} : batchesIn b n ≤ k ↔ n ≤ b * k := by
  rw [batchesIn, ← Nat.lt_succ_iff, Nat.div_lt_iff_lt_mul hb, Nat.succ_mul, Nat.mul_comm]
  omega

theorem batchesIn_le (hb : 0 < b) (n : Nat) : batchesIn b n ≤ n := by
  rw [batchesIn_le_iff hb]
  exact Nat.le_mul_of_pos_left n hb

/-- The first batch is one of them. -/
theorem batchesIn_sub_min (hb : 0 < b) (hn : 0 < n) :
    batchesIn b (n - min b n) + 1 = batchesIn b n := by
  rw [batchesIn, batchesIn, ← Nat.add_div_right _ hb]
  rcases Nat.le_total b n with h | h
  · rw [Nat.min_eq_left h]
    congr 1
    omega
  · rw [Nat.min_eq_right h, Nat.div_eq_of_lt_le (k := 1) (by omega) (by omega),
      Nat.div_eq_of_lt_le (k := 1) (by omega) (by omega)]

/-- The number of posts that are still to come while `n` payloads are buffered and no
further ones arrive, at most. -/
def postsLeft (b n : Nat) : Cycle → Nat
  | start | resolving | between .. | reading .. => batchesIn b n
  | posting _ _ batch => batchesIn b (n - batch.length) + 1
  | committing _ _ k => batchesIn b (n - k)
  | failing .. | ended _ => 0

/-- The number of steps that are still to come in a round that has begun, or before the
first and behind the last one. -/
def stepsAside : Cycle → Nat
  | start => 4
  | resolving => 3
  | between .. => 2
  | reading .. => 1
  | posting .. => 0
  | committing .. => 3
  | failing .. => 1
  | ended _ => 0

/-- The number of steps that are still to come, at most: four for each post. -/
def stepsLeft (b n : Nat) (c : Cycle) : Nat := 4 * c.postsLeft b n + c.stepsAside

theorem eq_ended_of_step_done {c : Cycle} {outcome : UploadOutcome}
    (hstep : c.step b = .done outcome) : c = .ended outcome := by
  cases c with
  | ended outcome => cases hstep; rfl
  | _ => cases hstep

theorem stepsLeft_start_lt (hb : 0 < b) (n : Nat) : start.stepsLeft b n < stepsFor n := by
  have hle := batchesIn_le hb n
  simp only [stepsLeft, postsLeft, stepsAside, stepsFor]
  omega

/-- The number of posts that a request is. -/
def postsOf : UploadRequest → Nat
  | .post .. => 1
  | _ => 0

/-- The answer of a buffer of `n` payloads, which are `n'` after it. -/
def Fits (n n' : Nat) : (r : UploadRequest) → UploadInterface.Answer r → Prop
  | .read m, batch => batch.length = min m n ∧ n' = n
  | .commit _ m, _ => n' = n - m
  | _, _ => n' = n

/-- With each step there is less to come: fewer steps, and no more posts than were still
to come before, the one of this step counted. -/
theorem step_brings_nearer (hb : 0 < b) {c : Cycle} {r : UploadRequest}
    {next : UploadInterface.Answer r → Cycle} (hstep : c.step b = .call r next) {n n' : Nat}
    {a : UploadInterface.Answer r} (hfits : Fits n n' r a) :
    (next a).postsLeft b n' + postsOf r ≤ c.postsLeft b n ∧
      (next a).stepsLeft b n' < c.stepsLeft b n := by
  cases c with
  | start =>
    cases hstep
    cases hfits
    simp [stepsLeft, postsLeft, stepsAside, postsOf]
  | resolving =>
    cases hstep
    cases hfits
    rcases a with e | _ | ⟨s, rest⟩
    · simp [resolved, stepsLeft, postsLeft, stepsAside, postsOf]
    · simp [resolved, stepsLeft, postsLeft, stepsAside, postsOf]
    · simp [resolved, stepsLeft, postsLeft, stepsAside, postsOf]
  | between s exported =>
    cases hstep
    cases hfits
    cases a with
    | true => simp [stepsLeft, postsLeft, stepsAside, postsOf]
    | false => simp [stepsLeft, postsLeft, stepsAside, postsOf]
  | reading s exported =>
    cases hstep
    obtain ⟨hlength, rfl⟩ := hfits
    by_cases hempty : a = []
    · simp [hempty, batchRead, stepsLeft, postsLeft, stepsAside, postsOf]
    · have hn : 0 < n' := by
        have hpos := List.length_pos_iff.mpr hempty
        omega
      have hbatches := batchesIn_sub_min hb hn
      simp only [batchRead, List.isEmpty_iff, hempty, if_false, stepsLeft, postsLeft, stepsAside,
        postsOf, hlength, hbatches]
      omega
  | posting s exported batch =>
    cases hstep
    cases hfits
    rcases a with _ | code
    · simp [answered, stepsLeft, postsLeft, stepsAside, postsOf]
      omega
    · by_cases hcode : code = 200
      · simp [answered, hcode, stepsLeft, postsLeft, stepsAside, postsOf]
        omega
      · simp [answered, hcode, stepsLeft, postsLeft, stepsAside, postsOf]
        omega
  | committing s exported k =>
    cases hstep
    cases hfits
    simp [stepsLeft, postsLeft, stepsAside, postsOf]
  | failing name exported e =>
    cases hstep
    cases hfits
    simp [stepsLeft, postsLeft, stepsAside, postsOf]
  | ended outcome => cases hstep

/-- A cycle that is given more steps than are still to come has an outcome. By induction on
the steps that it is given. -/
theorem isSome_program {σ : Type}
    {answer : (r : UploadRequest) → σ → UploadInterface.Answer r × σ} (size : σ → Nat)
    (Q : σ → Prop) (hb : 0 < b)
    (hanswer : ∀ r s, Q s →
      Q (answer r s).2 ∧ Fits (size s) (size (answer r s).2) r (answer r s).1)
    (steps : Nat) (c : Cycle) (s : σ) (hs : Q s) (henough : c.stepsLeft b (size s) < steps) :
    ((Step.program (step b) steps c).run answer s).1.isSome := by
  induction steps generalizing c s with
  | zero => exact absurd henough (Nat.not_lt_zero _)
  | succ steps ih =>
    cases hstep : c.step b with
    | done outcome => simp [Step.program, hstep]
    | call r next =>
      obtain ⟨hs', hfits⟩ := hanswer r s hs
      obtain ⟨-, hless⟩ := step_brings_nearer hb hstep hfits
      simpa [Step.program, hstep] using ih (next (answer r s).1) (answer r s).2 hs' (by omega)

end Cycle

/-! ## Cycles of a pipeline -/

theorem fits_answerUpload {p : Pipeline} {q : BoundedQueue Payload} (H : p.buffer.Holds q)
    (stop : Bool) (reply : Option Nat) (r : UploadRequest) :
    ∃ q', (Traffic.answerUpload stop reply r p).2.buffer.Holds q' ∧
      Cycle.Fits q.items.length q'.items.length r (Traffic.answerUpload stop reply r p).1 := by
  cases r with
  | read m =>
    refine ⟨q, H, ?_, rfl⟩
    change (p.buffer.readN m).length = _
    rw [H.readN_eq, BoundedQueue.readN, List.length_take]
    omega
  | commit s m =>
    refine ⟨_, (H.removeN m).2, ?_⟩
    change (q.items.drop (min m q.items.length)).length = q.items.length - m
    rw [List.length_drop]
    omega
  | _ => exact ⟨q, H, rfl⟩

/-- Posts to an endpoint are answered in some way, and nothing stops the cycle. -/
theorem answerUpload_eq (r : UploadRequest) (p : Pipeline) (e : Endpoint) :
    ∃ reply, (Pipeline.answerUpload r (p, e)).1 = (Traffic.answerUpload false reply r p).1 ∧
      (Pipeline.answerUpload r (p, e)).2.1 = (Traffic.answerUpload false reply r p).2 := by
  cases r with
  | post s batch => exact ⟨(e.post s batch).1, rfl, rfl⟩
  | _ => exact ⟨none, rfl, rfl⟩

/-- A cycle of a pipeline has an outcome: it never needs more steps than it is given. -/
theorem Pipeline.isSome_upload {p : Pipeline} {q : BoundedQueue Payload} (H : p.buffer.Holds q)
    {batchSize : Nat} (hb : 0 < batchSize) (e : Endpoint) :
    ((Cycle.program batchSize p.buffer.len).run Pipeline.answerUpload (p, e)).1.isSome := by
  refine Cycle.isSome_program (fun s : Pipeline × Endpoint => s.1.buffer.len)
    (fun s => ∃ q, s.1.buffer.Holds q) hb ?_ _ _ _ ⟨q, H⟩
    (Cycle.stepsLeft_start_lt hb p.buffer.len)
  rintro r ⟨p, e⟩ ⟨q, H⟩
  obtain ⟨reply, hanswer, hpipeline⟩ := answerUpload_eq r p e
  obtain ⟨q', H', hfits⟩ := fits_answerUpload H false reply r
  refine ⟨⟨q', by rw [hpipeline]; exact H'⟩, ?_⟩
  change Cycle.Fits p.buffer.len (Pipeline.answerUpload r (p, e)).2.1.buffer.len r
    (Pipeline.answerUpload r (p, e)).1
  rwa [hpipeline, hanswer, H.len_eq, H'.len_eq]

end Chargeback
