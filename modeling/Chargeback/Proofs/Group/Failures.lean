import Chargeback.Pipeline.Basic
import Chargeback.Proofs.Group.Retries

/-!
# How many failures a change of a group meets

The attempts of a policy are counted afresh wherever something is repeated. A change counts how
often it has tried to replace the record; but each try begins with reads, and perhaps with a
creation, that count their own failures from one. So the failures of one change add up to a
product of the attempts, and so does the time for which it pauses, while others wait for the
group. This module gives the number, and answers of a store that drive a change to it.

The bound goes from the innermost loop outwards, and so do the answers that reach it: the store
is busy until the last attempt of each loop, and then says what lets the change go on for longest.

## Main definitions

* `Exchange.failures`: how many calls have failed for a reason that attempts are counted for.
* `Exchange.pausedFor`: the time of all pauses.
* `GroupChange.mostFailures`: as many failures as a change may meet.
* `Spends`: the failures of a program whose calls are answered from a queue.
* `GroupChange.attempts_multiply`: a change meets so many failures, and never more.
-/

namespace Chargeback

open Exchange Aggregator

namespace Exchange

/-- A call that has failed for a reason that attempts are counted for. -/
def spends : Exchange → Bool
  | failed _ e => e.spendsAttempt
  | _ => false

/-- How many calls have failed for such a reason. -/
def failures (h : List Exchange) : Nat := h.countP spends

/-- The milliseconds of a pause. -/
def milliseconds : Exchange → Nat
  | paused milliseconds => milliseconds
  | _ => 0

/-- The milliseconds of all pauses. -/
def pausedFor : List Exchange → Nat
  | [] => 0
  | x :: h => x.milliseconds + pausedFor h

variable {x : Exchange} {h : List Exchange} {r : StoreRequest} {e : StoreError}

theorem failures_cons_failed :
    failures (.failed r e :: h) = failures h + if e.spendsAttempt then 1 else 0 :=
  List.countP_cons

theorem failures_cons_of_not (hx : x.spends = false) : failures (x :: h) = failures h :=
  List.countP_cons_of_neg (by simp [hx])

theorem failures_le_cons (x : Exchange) (h : List Exchange) : failures h ≤ failures (x :: h) := by
  rw [failures, failures, List.countP_cons]
  exact Nat.le_add_right ..

/-- Without a price for other calls, these failures are counted. -/
theorem spent_zero (h : List Exchange) : spent 0 h = failures h := by
  induction h with
  | nil => rfl
  | cons x h ih =>
    have hprice : x.price 0 = if x.spends then 1 else 0 := by cases x <;> rfl
    rw [spent, ih, hprice, failures, failures, List.countP_cons]

theorem pausedFor_cons : pausedFor (x :: h) = x.milliseconds + pausedFor h := rfl

/-- A failed replacement is an attempt to replace. -/
theorem failures_replaces_le (h : List Exchange) :
    failures (h.filter (·.call? = some .replace)) ≤ attempts .replace h := by
  rw [attempts, if_pos rfl, calls, List.count, List.countP_filterMap, failures, List.countP_filter]
  refine List.countP_mono_left fun x _ hx => ?_
  have hcall : x.call? = some .replace := by simpa using (Bool.and_eq_true_iff.mp hx).2
  simp [hcall]

end Exchange

namespace GroupChange

/-- As many failures as a change may meet: in each attempt, all but the last call of each loop, and
the replacement. -/
def mostFailures (p : RetryPolicy) (c : GroupChange) : Nat :=
  p.attempts * (loops c.createAs * p.retries + 1)

variable {p : RetryPolicy} {c : GroupChange} {h : List Exchange}

/-- A pause only follows a failure that may pass, and is no longer than the longest one. -/
theorem Next.le_maxDelay {milliseconds : Nat} (hnext : Next p c h (.pause milliseconds)) :
    milliseconds ≤ p.maxDelay := by
  cases hnext with
  | pause he hleft => exact Nat.min_le_right ..

/-- By induction on the history: a failure that may pass pays for the pause that may follow. -/
theorem Lawful.pausedFor_le (hl : Lawful p c h) :
    pausedFor h ≤ failures h * p.maxDelay ∧
      ∀ r e before, h = .failed r e :: before → e.isRetryable →
        pausedFor h + p.maxDelay ≤ failures h * p.maxDelay := by
  induction hl with
  | nil => exact ⟨Nat.zero_le _, fun r e before hnil => nomatch hnil⟩
  | @cons x h hl hx ih =>
    refine ⟨?_, ?_⟩
    · have hmore : failures h * p.maxDelay ≤ failures (x :: h) * p.maxDelay :=
        Nat.mul_le_mul_right _ (failures_le_cons x h)
      rw [pausedFor_cons]
      cases x with
      | paused milliseconds =>
        obtain ⟨r, e, before, rfl, he⟩ := hx.of_pause
        have hpaid := ih.2 r e before rfl he
        have hpause := hx.le_maxDelay
        simp only [Exchange.milliseconds]
        omega
      | _ =>
        simp only [Exchange.milliseconds]
        omega
    · rintro r e before heq he
      cases heq
      rw [failures_cons_failed, if_pos (StoreError.spendsAttempt_of_isRetryable he), pausedFor_cons,
        Nat.add_mul, Nat.one_mul]
      simp only [Exchange.milliseconds]
      omega

end GroupChange

/-! ## So many failures -/

/-- With the answers of the queue, and no others, the program ends with a result after so many
failures. -/
def Spends {α : Type} (n : Nat) (program : GroupProgram α) (queue : List QueuedAnswer) (a : α) :
    Prop :=
  ∀ h rest, program.run answerQueued (queue ++ rest) = (a, rest) ∧
    failures (program.noted Exchange.after answerQueued h (queue ++ rest)) = failures h + n

section Spends

variable {α β : Type} {n k : Nat} {p : RetryPolicy} {name : String} {a : α}
  {queue queue' : List QueuedAnswer}

theorem Spends.bind {program : GroupProgram α} {f : α → GroupProgram β} {b : β}
    (hprogram : Spends n program queue a) (hf : Spends k (f a) queue' b) :
    Spends (n + k) (program.bind f) (queue ++ queue') b := by
  intro h rest
  rw [List.append_assoc, Program.run_bind, Program.noted_bind, (hprogram h _).1]
  refine ⟨(hf [] rest).1, ?_⟩
  rw [(hf _ rest).2, (hprogram h _).2, Nat.add_assoc]

theorem spends_done : Spends 0 (.done a : GroupProgram α) [] a := fun _ _ => ⟨rfl, rfl⟩

theorem Spends.after_pause {program : GroupProgram α} (hprogram : Spends n program queue a)
    (milliseconds : Nat) : Spends n ((pause milliseconds).bind fun _ => program) queue a :=
  fun h rest => hprogram (.paused milliseconds :: h) rest

theorem Spends.after_clock {f : Instant → GroupProgram α} (hf : Spends n (f ⟨0, 0⟩) queue a) :
    Spends n (clock.bind f) queue a :=
  fun h rest => hf (.told ⟨0, 0⟩ :: h) rest

theorem spends_failed {r : StoreRequest} {e : StoreError} :
    Spends (if e.spendsAttempt then 1 else 0) (store r) [.error e] (.error e) := by
  refine fun h rest => ⟨rfl, ?_⟩
  change failures (.of (.store r) (.error e) :: h) = _
  rw [of_error, failures_cons_failed]

theorem spends_found {g : Option StoredGroup} :
    Spends 0 (store (.get name)) [.ok g] (.ok g) := fun _ _ => ⟨rfl, failures_cons_of_not rfl⟩

/-- What comes after the calls does not matter to their failures. -/
theorem Spends.bind_done {program : GroupProgram α} {f : α → GroupProgram β} {b : β}
    (hprogram : Spends n program queue a) (hf : f a = .done b) :
    Spends n (program.bind f) queue b := by
  have hdone : Spends 0 (f a) [] b := hf ▸ spends_done
  simpa using hprogram.bind hdone

/-- A failure that may pass. -/
def passing : StoreError := .transient "busy"

/-- The store is busy for as long as a loop goes on, and answers to its last attempt. -/
def busyUntil (p : RetryPolicy) (last : QueuedAnswer) : List QueuedAnswer :=
  .replicate p.retries (.error passing) ++ [last]

/-- By induction on the attempts that are left. -/
theorem Spends.retryFrom {r : StoreRequest} {last : QueuedAnswer} {a : r.Answer}
    (hlast : Spends n (store r) [last] a) (attempt left : Nat) :
    Spends (left + n) (retryFrom p r attempt left) (.replicate left (.error passing) ++ [last]) a := by
  induction left generalizing attempt with
  | zero => rwa [Nat.zero_add]
  | succ left ih =>
    rw [Nat.add_right_comm, Nat.add_comm]
    exact spends_failed.bind ((ih (attempt + 1)).after_pause _)

theorem Spends.retrying {r : StoreRequest} {last : QueuedAnswer} {a : r.Answer}
    (hlast : Spends n (store r) [last] a) :
    Spends (p.retries + n) (retrying p r) (busyUntil p last) a :=
  hlast.retryFrom 1 p.retries

theorem spends_get {g : Option StoredGroup} :
    Spends p.retries (get p name) (busyUntil p (.ok g)) (.ok g) :=
  spends_found.retrying.bind_done rfl

/-- The group is missing, is said to exist when it is created, and is found then. -/
theorem spends_getOrCreate {type : GroupType} {g : StoredGroup} :
    Spends (3 * p.retries) (getOrCreate p name type)
      (busyUntil p (.ok none) ++ (busyUntil p (.error (.alreadyExists name)) ++
        busyUntil p (.ok (some g)))) (.ok g) := by
  have hexisting : Spends p.retries (getExisting p name) (busyUntil p (.ok (some g))) (.ok g) :=
    spends_get.bind_done rfl
  rw [show 3 * p.retries = p.retries + (p.retries + p.retries) by omega]
  exact spends_get.bind (spends_failed.retrying.bind hexisting)

/-- All loops before a replacement run as long as they can. -/
def busyReads (p : RetryPolicy) (name : String) (g : StoredGroup) :
    Option GroupType → List QueuedAnswer
  | some _ =>
    busyUntil p (.ok none) ++ (busyUntil p (.error (.alreadyExists name)) ++
      busyUntil p (.ok (some g)))
  | none => busyUntil p (.ok (some g))

theorem spends_current {createAs : Option GroupType} {g : StoredGroup} :
    Spends (loops createAs * p.retries) (current p name createAs) (busyReads p name g createAs)
      (.ok (some g)) := by
  cases createAs with
  | none =>
    rw [loops, Nat.one_mul]
    exact spends_get
  | some type => exact spends_getOrCreate.bind_done rfl

/-- One attempt, which ends with a conflict. -/
def busyAttempt (p : RetryPolicy) (name : String) (g : StoredGroup)
    (createAs : Option GroupType) : List QueuedAnswer :=
  busyReads p name g createAs ++ [.error (.conflict name)]

variable {createAs : Option GroupType} {change : GroupSpec → GroupSpec} {g : StoredGroup}

theorem spends_attemptOnce (hchange : changed change ⟨0, 0⟩ g ≠ g) :
    Spends (perAttempt 0 p createAs) (attemptOnce p name createAs change)
      (busyAttempt p name g createAs) (.refused (.conflict name)) := by
  have hspec : (change g.spec).pruneActivity (Month.start ⟨0, 0⟩) ≠ g.spec := fun hspec =>
    hchange (by rw [changed, hspec])
  refine spends_current.bind (.after_clock ?_)
  simp only [hspec, if_false]
  exact spends_failed.bind_done rfl

/-- By induction on the attempts that are left. -/
theorem spends_modifyFrom (hchange : changed change ⟨0, 0⟩ g ≠ g) (attempt left : Nat) :
    Spends ((left + 1) * perAttempt 0 p createAs) (modifyFrom p name createAs change attempt left)
      (List.replicate (left + 1) (busyAttempt p name g createAs)).flatten
      (.error (.conflictRetriesExhausted name (attempt + left))) := by
  induction left generalizing attempt with
  | zero =>
    rw [Nat.zero_add, Nat.one_mul, List.replicate_one, List.flatten_singleton]
    exact (spends_attemptOnce hchange).bind_done rfl
  | succ left ih =>
    rw [Nat.succ_mul, Nat.add_comm (_ * _), List.replicate_succ, List.flatten_cons,
      ← Nat.add_assoc, Nat.add_right_comm attempt]
    exact (spends_attemptOnce hchange).bind (ih (attempt + 1))

theorem spends_modify (hchange : changed change ⟨0, 0⟩ g ≠ g) :
    Spends (p.attempts * perAttempt 0 p createAs) (modify p name createAs change)
      (List.replicate p.attempts (busyAttempt p name g createAs)).flatten
      (.error (.conflictRetriesExhausted name p.attempts)) := by
  have hmodify : Spends _ (modifyFrom p name createAs change 1 p.retries) _ _ :=
    spends_modifyFrom hchange 1 p.retries
  rwa [Nat.add_comm 1, p.retries_add_one] at hmodify

end Spends

namespace GroupChange

/-- A record that the change does not leave as it is: a member is still missing from it, or
still there. -/
def outdated : GroupChange → StoredGroup
  | upsert name type _ _ => .new name (.new name type)
  | remove name key _ =>
    .new name ((GroupSpec.new name .byNamespace).upsertMember key ⟨.zero, 0, ⟨0, 0⟩⟩)

theorem changed_outdated (c : GroupChange) (t : Instant) :
    changed c.apply t c.outdated ≠ c.outdated := by
  intro hsame
  have hmembers : (c.apply c.outdated.spec).members = c.outdated.spec.members :=
    congrArg (fun g => g.spec.members) hsame
  cases c with
  | upsert name type key usage =>
    have hkey := congrArg (KeyMap.get? · key) hmembers
    simp [apply, outdated, StoredGroup.new, GroupSpec.new] at hkey
  | remove name key ended =>
    have hkey := congrArg (KeyMap.get? · key) hmembers
    simp [apply, outdated, StoredGroup.new, GroupSpec.new] at hkey

/-- The answers with which a change meets as many failures as it may. -/
def busyChange (p : RetryPolicy) (c : GroupChange) : List QueuedAnswer :=
  (List.replicate p.attempts (busyAttempt p c.name c.outdated c.createAs)).flatten

theorem program_spends (p : RetryPolicy) (c : GroupChange) :
    Spends (c.mostFailures p) (c.program p) (c.busyChange p)
      (.error (.conflictRetriesExhausted c.name p.attempts)) := by
  have hmodify : Spends (c.mostFailures p) (modify p c.name c.createAs c.apply) (c.busyChange p) _ :=
    spends_modify (c.changed_outdated ⟨0, 0⟩)
  cases c with
  | remove name key ended => exact hmodify
  | upsert name type key usage =>
    have hupsert : Spends _ (Aggregator.upsert p name type key usage) _ _ := hmodify.bind_done rfl
    exact hupsert.bind_done rfl

/-- All failures are no more than the attempts only if there is one attempt. -/
theorem mostFailures_le_attempts_iff (p : RetryPolicy) (c : GroupChange) :
    c.mostFailures p ≤ p.attempts ↔ p.maxAttempts ≤ 1 := by
  have hloops : 0 < loops c.createAs := by cases c <;> exact Nat.succ_pos _
  have hretries : p.retries = 0 ↔ p.maxAttempts ≤ 1 := by
    rw [RetryPolicy.retries]
    omega
  rw [mostFailures, ← hretries]
  constructor
  · intro hle
    rw [← Nat.mul_one p.attempts, Nat.mul_assoc, Nat.one_mul] at hle
    have hone := Nat.le_of_mul_le_mul_left hle p.attempts_pos
    have hzero : loops c.createAs * p.retries = 0 := by omega
    exact (Nat.mul_eq_zero.mp hzero).resolve_left (Nat.ne_of_gt hloops)
  · intro hzero
    have hone : p.attempts * (loops c.createAs * p.retries + 1) = p.attempts := by
      rw [hzero, Nat.mul_zero, Nat.zero_add, Nat.mul_one]
    exact Nat.le_of_eq hone

/-- Attempts are counted afresh by each loop of a change. So the failures that it meets may add up
to a product, and each may be paid with the longest pause; and there are answers that drive it so
far. Only the replacements that fail are never more than the attempts. All failures together are
never more only if there is just one attempt. -/
theorem attempts_multiply (p : RetryPolicy) (c : GroupChange) :
    (∀ {σ : Type} (answer : (r : AggregatorRequest) → σ → AggregatorInterface.Answer r × σ) (s : σ),
      let h := c.exchanges p answer s
      failures h ≤ c.mostFailures p ∧ pausedFor h ≤ failures h * p.maxDelay ∧
        failures (h.filter (·.call? = some .replace)) ≤ p.attempts) ∧
    (∃ queue, failures (c.exchanges p answerQueued queue) = c.mostFailures p ∧
      ((c.program p).run answerQueued queue).1 =
        .error (.conflictRetriesExhausted c.name p.attempts)) ∧
    ((∀ {σ : Type} (answer : (r : AggregatorRequest) → σ → AggregatorInterface.Answer r × σ) (s : σ),
      failures (c.exchanges p answer s) ≤ p.attempts) ↔ p.maxAttempts ≤ 1) := by
  have hmost {σ : Type} (answer : (r : AggregatorRequest) → σ → AggregatorInterface.Answer r × σ)
      (s : σ) : failures (c.exchanges p answer s) ≤ c.mostFailures p := by
    have hspent : spent 0 (c.exchanges p answer s) ≤ 0 + c.mostFailures p :=
      (c.program_spendsUpTo (Nat.zero_le 1) p [] (Nat.le_refl _)).noted answer s
    rwa [spent_zero, Nat.zero_add] at hspent
  obtain ⟨hrun, hspent⟩ := program_spends p c [] []
  rw [List.append_nil] at hrun hspent
  have hreached : failures (c.exchanges p answerQueued (c.busyChange p)) = c.mostFailures p :=
    hspent.trans (Nat.zero_add _)
  refine ⟨fun answer s => ?_, ⟨c.busyChange p, hreached, congrArg Prod.fst hrun⟩, ?_⟩
  · have hl : Lawful p c (c.exchanges p answer s) := lawful_noted (program_lawful p c) .nil answer s
    exact ⟨hmost answer s, hl.pausedFor_le.1,
      Nat.le_trans (failures_replaces_le _) (hl.attempts_le .replace)⟩
  · rw [← mostFailures_le_attempts_iff p c]
    exact ⟨fun hall => hreached ▸ hall answerQueued _,
      fun hle σ answer s => Nat.le_trans (hmost answer s) hle⟩

/-- There is a group, but a read of it fails, then its first replacement meets a conflict, and then
the next read fails. -/
def storeInTrouble : Pipeline :=
  let calm : ScriptedStore := {}
  let (_, known) := calm.remember
    (MemoryStore.answer (.create (.new "ns-shop" (.new "ns-shop" .byNamespace))))
  { Pipeline.new {} ⟨1704412800, 0⟩ with
    store := (known.order .get [.fail .transient, .pass, .fail .transient]).order .replace
      [.fail .conflict] }

/-- With two attempts, a change gets over three failures. -/
theorem three_failures_of_two_attempts :
    let p : RetryPolicy := { maxAttempts := 2 }
    let c := GroupChange.upsert "ns-shop" .byNamespace "shop/web-0" ⟨.zero, 0, ⟨1704412800, 0⟩⟩
    let h := c.exchanges p Pipeline.answerGroup storeInTrouble
    p.attempts = 2 ∧ failures h = 3 ∧
      ((c.program p).run Pipeline.answerGroup storeInTrouble).1.isOk := by
  decide +kernel

end GroupChange

end Chargeback
