import Chargeback.Proofs.Group.Attempts

/-!
# How many calls a change of a group makes

A change is made of loops in a loop: each attempt to replace the record begins with a read, and
perhaps with a creation and another read, and each of these is repeated for itself. So the number
of its calls is bounded by a product, and so is the number of calls that fail for a reason that
attempts are counted for. Both bounds have the same proof. It counts such failures once, and any
other call for a price that is left open: with the price one it counts all calls, and without a
price only those failures.

A bound goes by the result of a program, since a loop that goes on has had one failure less than
a loop that has ended the change. The proofs follow the programs, from the innermost loop outwards.

## Main definitions

* `StoreError.spendsAttempt`: the failures that attempts are counted for.
* `Exchange.price`, `Exchange.spent`: what is counted of an exchange, and of a history.
* `SpendsUpTo`: a bound on what is counted, by the result of a program.
* `GroupChange.program_spendsUpTo`: the bound for a change.
-/

namespace Chargeback

open Exchange Aggregator

/-- Attempts are counted for failures of this kind: for conflicts, and for what may pass. -/
def StoreError.spendsAttempt : StoreError → Bool
  | .conflict _ => true
  | e => e.isRetryable

theorem StoreError.spendsAttempt_of_isRetryable {e : StoreError} (he : e.isRetryable) :
    e.spendsAttempt := by
  cases e with
  | transient text => rfl
  | notFound name => cases he
  | alreadyExists name => cases he
  | conflict name => cases he
  | serialization text => cases he
  | other text => cases he

namespace Exchange

/-- What is counted of an exchange: one for a failure that attempts are counted for, and the
given price for any other call. -/
def price (other : Nat) : Exchange → Nat
  | failed _ e => if e.spendsAttempt then 1 else other
  | found .. => other
  | created .. => other
  | replaced .. => other
  | listed _ => other
  | paused _ => 0
  | told _ => 0

/-- What is counted of a history. -/
def spent (other : Nat) : List Exchange → Nat
  | [] => 0
  | x :: h => spent other h + x.price other

/-- With the price one, all calls are counted. -/
theorem spent_one (h : List Exchange) : spent 1 h = (calls h).length := by
  induction h with
  | nil => rfl
  | cons x h ih =>
    have hprice : x.price 1 = if x.call?.isSome then 1 else 0 := by
      cases x <;> simp [price, call?]
    rw [spent, ih, hprice]
    cases hcall : x.call? with
    | none => rw [calls_cons_of_none hcall]; rfl
    | some k => rw [calls_cons_of_some hcall, List.length_cons]; rfl

end Exchange

/-- When so much has been counted before the program, its result allows for what has been counted
at its end, whatever the answers are. -/
def SpendsUpTo {α : Type} (other n : Nat) (program : GroupProgram α) (bound : α → Nat) : Prop :=
  ∀ h, spent other h ≤ n →
    program.Obeys { allows := fun _ _ => True, after := Exchange.after }
      (fun m a => spent other m ≤ bound a) h

section SpendsUpTo

variable {α β : Type} {n k other : Nat} {p : RetryPolicy} {name : String} {bound : α → Nat}

theorem SpendsUpTo.bind {program : GroupProgram α} {f : α → GroupProgram β} {bound' : β → Nat}
    (hprogram : SpendsUpTo other n program bound)
    (hf : ∀ a, SpendsUpTo other (bound a) (f a) bound') :
    SpendsUpTo other n (program.bind f) bound' :=
  fun h hn => (hprogram h hn).bind fun m a hm => hf a m hm

theorem spendsUpTo_done {a : α} (h : n ≤ bound a) : SpendsUpTo other n (.done a) bound :=
  fun _ hn => Nat.le_trans hn h

theorem SpendsUpTo.mono {program : GroupProgram α} {bound' : α → Nat}
    (hprogram : SpendsUpTo other n program bound) (hbound : ∀ a, bound a ≤ bound' a) :
    SpendsUpTo other n program bound' :=
  fun h hn => (hprogram h hn).mono fun _ a hm => Nat.le_trans hm (hbound a)

/-- A pause is not counted. -/
theorem SpendsUpTo.after_pause {program : GroupProgram α}
    (hprogram : SpendsUpTo other n program bound) (milliseconds : Nat) :
    SpendsUpTo other n ((pause milliseconds).bind fun _ => program) bound :=
  fun h hn => ⟨trivial, fun _ => hprogram (.paused milliseconds :: h) hn⟩

/-- Nor is a look at the clock. -/
theorem SpendsUpTo.after_clock {f : Instant → GroupProgram α}
    (hf : ∀ t, SpendsUpTo other n (f t) bound) : SpendsUpTo other n (clock.bind f) bound :=
  fun h hn => ⟨trivial, fun t => hf t (.told t :: h) hn⟩

/-- What is allowed for after a call. -/
def afterCall (other n : Nat) : Except StoreError α → Nat
  | .ok _ => n + other
  | .error e => n + if e.spendsAttempt then 1 else other

theorem spendsUpTo_store (r : StoreRequest) :
    SpendsUpTo other n (store r) (afterCall other n) := by
  refine fun h hn => ⟨trivial, fun a => ?_⟩
  change spent other h + (Exchange.of (.store r) a).price other ≤ _
  cases a with
  | error e =>
    rw [of_error]
    exact Nat.add_le_add_right hn _
  | ok v =>
    have hprice : (Exchange.of (.store r) (.ok v)).price other = other := by cases r <;> rfl
    rw [hprice]
    exact Nat.add_le_add_right hn _

/-- By induction on the attempts that are left: only a failure that may pass takes one of them. -/
theorem spendsUpTo_retryFrom (r : StoreRequest) (attempt left : Nat) :
    SpendsUpTo other n (retryFrom p r attempt left) (afterCall other (n + left)) := by
  induction left generalizing attempt n with
  | zero => exact spendsUpTo_store r
  | succ left ih =>
    refine (spendsUpTo_store r).bind ?_
    rintro (e | a)
    · by_cases he : e.isRetryable
      · have hspent : afterCall other n (.error e : Except StoreError r.Value) = n + 1 := by
          rw [afterCall, if_pos (StoreError.spendsAttempt_of_isRetryable he)]
        rw [hspent, ← Nat.add_assoc, Nat.add_right_comm]
        simp only [he, if_true]
        exact (ih (attempt + 1)).after_pause _
      · simp only [he]
        exact spendsUpTo_done (by simp only [afterCall]; omega)
    · exact spendsUpTo_done (by simp only [afterCall]; omega)

theorem spendsUpTo_retrying (r : StoreRequest) :
    SpendsUpTo other n (retrying p r) (afterCall other (n + p.retries)) :=
  spendsUpTo_retryFrom r 1 p.retries

/-- What is allowed for after some loops that go on: all attempts but the last one may fail, and
this one has its price. The change may end with one more failure. -/
def afterLoops (other : Nat) (p : RetryPolicy) (n loops : Nat) : Except AggregateError α → Nat
  | .ok _ => n + loops * (p.retries + other)
  | .error _ => n + loops * (p.retries + other) + 1

theorem afterLoops_add {loops : Nat} (a : Except AggregateError α) :
    afterLoops other p (n + k * (p.retries + other)) loops a =
      afterLoops other p n (k + loops) a := by
  cases a <;> simp only [afterLoops, Nat.add_mul k, Nat.add_assoc]

theorem spendsUpTo_get : SpendsUpTo other n (get p name) (afterLoops other p n 1) := by
  refine (spendsUpTo_retrying _).bind ?_
  rintro (e | g)
  · refine spendsUpTo_done ?_
    simp only [afterCall, afterLoops]
    split <;> omega
  · exact spendsUpTo_done (by simp only [afterCall, afterLoops]; omega)

theorem spendsUpTo_getExisting :
    SpendsUpTo other n (getExisting p name) (afterLoops other p n 1) := by
  refine spendsUpTo_get.bind ?_
  rintro (e | _ | g)
  · exact spendsUpTo_done (Nat.le_refl _)
  · exact spendsUpTo_done (Nat.le_succ _)
  · exact spendsUpTo_done (Nat.le_refl _)

/-- A group is read, created, and read once more at most. -/
theorem spendsUpTo_getOrCreate (type : GroupType) :
    SpendsUpTo other n (getOrCreate p name type) (afterLoops other p n 3) := by
  -- what two loops leave when the creation is the last one
  have hfail {e : StoreError} : afterCall other (n + 1 * (p.retries + other) + p.retries)
      (.error e : Except StoreError StoredGroup) ≤ n + 3 * (p.retries + other) + 1 := by
    simp only [afterCall]
    split <;> omega
  refine spendsUpTo_get.bind ?_
  rintro (e | _ | g)
  · exact spendsUpTo_done (by simp only [afterLoops]; omega)
  · refine (spendsUpTo_retrying _).bind ?_
    rintro (e | g)
    · cases e with
      | alreadyExists name' =>
        have htwo : afterCall other (n + 1 * (p.retries + other) + p.retries)
            (.error (.alreadyExists name') : Except StoreError StoredGroup) =
              n + 2 * (p.retries + other) := by
          rw [afterCall, if_neg (by simp [StoreError.spendsAttempt, StoreError.isRetryable])]
          omega
        change SpendsUpTo other (afterCall other (n + 1 * (p.retries + other) + p.retries) _)
          (getExisting p name) _
        rw [htwo]
        exact spendsUpTo_getExisting.mono fun a => Nat.le_of_eq (afterLoops_add a)
      | notFound name' => exact spendsUpTo_done hfail
      | conflict name' => exact spendsUpTo_done hfail
      | transient text => exact spendsUpTo_done hfail
      | serialization text => exact spendsUpTo_done hfail
      | other text => exact spendsUpTo_done hfail
    · exact spendsUpTo_done (by simp only [afterCall, afterLoops]; omega)
  · exact spendsUpTo_done (by simp only [afterLoops]; omega)

/-- The loops that come before each replacement: one to read the group, and two more to create
it and to read it again. -/
def loops : Option GroupType → Nat
  | some _ => 3
  | none => 1

theorem spendsUpTo_current (createAs : Option GroupType) :
    SpendsUpTo other n (current p name createAs) (afterLoops other p n (loops createAs)) := by
  cases createAs with
  | none => exact spendsUpTo_get
  | some type =>
    refine (spendsUpTo_getOrCreate type).bind ?_
    rintro (e | g)
    · exact spendsUpTo_done (Nat.le_refl _)
    · exact spendsUpTo_done (Nat.le_refl _)

/-- As much as is counted of one attempt at a change. -/
def perAttempt (other : Nat) (p : RetryPolicy) (createAs : Option GroupType) : Nat :=
  loops createAs * (p.retries + other) + 1

variable (hother : other ≤ 1)
include hother

theorem spendsUpTo_attemptOnce (createAs : Option GroupType) (change : GroupSpec → GroupSpec) :
    SpendsUpTo other n (attemptOnce p name createAs change)
      fun _ => n + perAttempt other p createAs := by
  refine (spendsUpTo_current createAs).bind ?_
  rintro (e | _ | g)
  · exact spendsUpTo_done (Nat.le_refl _)
  · exact spendsUpTo_done (Nat.le_succ _)
  · refine .after_clock fun t => ?_
    dsimp only
    split
    next => exact spendsUpTo_done (Nat.le_succ _)
    next =>
      refine (spendsUpTo_store _).bind ?_
      rintro (e | written)
      · refine spendsUpTo_done ?_
        simp only [afterCall, afterLoops, perAttempt]
        split <;> omega
      · exact spendsUpTo_done (Nat.add_le_add_left hother _)

/-- By induction on the attempts that are left. -/
theorem spendsUpTo_modifyFrom (createAs : Option GroupType) (change : GroupSpec → GroupSpec)
    (attempt left : Nat) :
    SpendsUpTo other n (modifyFrom p name createAs change attempt left)
      fun _ => n + (left + 1) * perAttempt other p createAs := by
  induction left generalizing attempt n with
  | zero =>
    rw [Nat.zero_add, Nat.one_mul]
    refine (spendsUpTo_attemptOnce hother createAs change).bind ?_
    rintro (result | e)
    · exact spendsUpTo_done (Nat.le_refl _)
    · exact spendsUpTo_done (Nat.le_refl _)
  | succ left ih =>
    rw [Nat.succ_mul, Nat.add_comm (_ * _), ← Nat.add_assoc]
    have hdone {result : Except AggregateError (Option StoredGroup)} :
        SpendsUpTo other (n + perAttempt other p createAs) (.done result)
          fun _ => n + perAttempt other p createAs + (left + 1) * perAttempt other p createAs :=
      spendsUpTo_done (Nat.le_add_right ..)
    refine (spendsUpTo_attemptOnce hother createAs change).bind ?_
    rintro (result | e)
    · exact hdone
    · cases e with
      | conflict name' => exact ih (attempt + 1)
      | transient text => exact (ih (attempt + 1)).after_pause _
      | notFound name' => exact hdone
      | alreadyExists name' => exact hdone
      | serialization text => exact hdone
      | other text => exact hdone

theorem spendsUpTo_modify (createAs : Option GroupType) (change : GroupSpec → GroupSpec) :
    SpendsUpTo other n (modify p name createAs change)
      fun _ => n + p.attempts * perAttempt other p createAs := by
  rw [← p.retries_add_one]
  exact spendsUpTo_modifyFrom hother createAs change 1 p.retries

/-- A change makes all attempts at most, and what is counted of each is bounded. -/
theorem GroupChange.program_spendsUpTo (p : RetryPolicy) (c : GroupChange) :
    SpendsUpTo other n (c.program p) fun _ => n + p.attempts * perAttempt other p c.createAs := by
  cases c with
  | remove name key ended => exact spendsUpTo_modify hother none _
  | upsert name type key usage =>
    have hupsert : SpendsUpTo other n (Aggregator.upsert p name type key usage)
        fun _ => n + p.attempts * perAttempt other p (some type) := by
      refine (spendsUpTo_modify hother (some type) _).bind ?_
      rintro (e | _ | g) <;> exact spendsUpTo_done (Nat.le_refl _)
    refine hupsert.bind ?_
    rintro (e | g) <;> exact spendsUpTo_done (Nat.le_refl _)

end SpendsUpTo

end Chargeback
