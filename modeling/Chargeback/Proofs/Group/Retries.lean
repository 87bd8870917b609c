import Chargeback.Proofs.Group.Budget

/-!
# How often a change of a group is retried, and what it comes to

What a change asks for next and how it ends is given by its history, whatever the store answers.
From this law follows all there is to say about its retries. No call is made more often than the
policy allows; each failure that may pass is followed by its pause and by the next attempt, as
long as attempts are left; and the result tells what has happened last.

## Main definitions

* `RetryPolicy.pauseAfter`: the pause after an attempt.
* `GroupChange.Lawful`: histories of which each request was asked for in its turn.
* `GroupChange.exchanges`: the history of a run.
* `CallsAtMost`: a program that makes so many calls of the store at most.
* `GroupChange.Conduct`: what a run of a change keeps to.
* `GroupChange.run_conduct`: every run of a change keeps to it.
* `answerQueued`: the answers of a queue, for runs that meet given failures.
-/

namespace Chargeback

open Exchange Aggregator

namespace RetryPolicy

theorem attempts_pos (p : RetryPolicy) : 0 < p.attempts := by
  unfold attempts
  omega

/-- The pause before the retry that follows attempt number `k`: the base delay, doubled for each
attempt before, and not above the longest delay. The factor is a word of 32 bits, and stays at
the largest one. -/
def pauseAfter (p : RetryPolicy) (k : Nat) : Nat :=
  min (p.baseDelay * min (Nat.pow 2 (k - 1)) (Nat.pow 2 32 - 1)) p.maxDelay

theorem backoff_eq (p : RetryPolicy) (k : Nat) : p.backoff k = p.pauseAfter k := rfl

end RetryPolicy

namespace Exchange

variable {x : Exchange} {k : StoreCall} {h : List Exchange}

/-- What a read has given. -/
def read? : Exchange → Option (Except StoreError (Option StoredGroup))
  | failed (.get _) e => some (.error e)
  | found _ g => some (.ok g)
  | _ => none

theorem exists_found_of_read? {g : Option StoredGroup} (hx : x.read? = some (.ok g)) :
    ∃ name, x = .found name g := by
  cases x with
  | found name g' =>
    cases hx
    exact ⟨name, rfl⟩
  | failed r e => cases r <;> cases hx
  | created g written => cases hx
  | replaced g written => cases hx
  | listed gs => cases hx
  | paused milliseconds => cases hx
  | told time => cases hx

theorem exists_request_of_call? (hx : x.call? = some k) :
    ∃ r, x.request = .store r ∧ r.call = k := by
  cases x with
  | failed r e => exact ⟨r, rfl, Option.some_inj.mp hx⟩
  | found name g => exact ⟨_, rfl, Option.some_inj.mp hx⟩
  | created g written => exact ⟨_, rfl, Option.some_inj.mp hx⟩
  | replaced g written => exact ⟨_, rfl, Option.some_inj.mp hx⟩
  | listed gs => exact ⟨_, rfl, Option.some_inj.mp hx⟩
  | paused milliseconds => cases hx
  | told time => cases hx

theorem eq_paused_of_request {milliseconds : Nat} (hx : x.request = .pause milliseconds) :
    x = .paused milliseconds := by
  cases x with
  | paused k => rw [AggregatorRequest.pause.inj hx]
  | failed r e => cases hx
  | found name g => cases hx
  | created g written => cases hx
  | replaced g written => cases hx
  | listed gs => cases hx
  | told time => cases hx

/-- Calls that were made one after the other have been counted. -/
theorem le_attempts_of_replicate {n : Nat} (hk : k ≠ .replace)
    (hn : List.replicate n k <+: calls h) :
    n ≤ attempts k h := by
  obtain ⟨rest, hrest⟩ := hn
  rw [attempts, if_neg hk, ← hrest, List.takeWhile_append_of_pos (by simp)]
  simp

end Exchange

namespace GroupChange

variable {p : RetryPolicy} {c : GroupChange} {h after before : List Exchange} {x : Exchange}
  {r : StoreRequest} {e : StoreError} {q : AggregatorRequest} {k : StoreCall}

/-! ## What comes next -/

theorem Next.attempts_lt (hnext : Next p c h (.store r)) : attempts r.call h < p.attempts := by
  have hpos := p.attempts_pos
  -- a call that another call comes before is made for the first time
  have hfirst {k : StoreCall} {x : Exchange} {h : List Exchange} (hk : k ≠ .replace)
      {k' : StoreCall} (hx : x.call? = some k') (hne : k' ≠ k) :
      attempts k (x :: h) < p.attempts := by
    rw [attempts_cons_of_ne hk hx hne]
    exact hpos
  cases hnext with
  | read => exact hpos
  | create hcreate hraced => exact hfirst nofun rfl nofun
  | readCreated => exact hfirst nofun rfl nofun
  | replace hx hchanged hleft =>
    change attempts .replace _ < _
    rwa [attempts_cons_of_none rfl, attempts_replace_cons (call?_ne_replace hx)]
  | readConflicted hleft => exact hfirst nofun rfl nofun
  | @again h r e milliseconds he hleft =>
    rw [attempts_cons_of_none rfl]
    cases r with
    | replace g => exact hfirst nofun rfl nofun
    | get name => exact hleft
    | create g => exact hleft
    | list => exact hleft

/-- After a failure there is a pause if it may pass, or else the group is read again if another
change was first. -/
theorem Next.of_failed (hnext : Next p c (.failed r e :: h) q) :
    (e.isRetryable ∧ attempts r.call (.failed r e :: h) < p.attempts ∧
        q = .pause (p.pauseAfter (attempts r.call (.failed r e :: h)))) ∨
      q = .store (.get c.name) ∧
        ((∃ g name, r = .replace g ∧ e = .conflict name ∧
            attempts .replace (.failed r e :: h) < p.attempts) ∨
          ∃ g name, r = .create g ∧ e = .alreadyExists name) := by
  cases hnext with
  | pause he hleft => exact .inl ⟨he, hleft, by rw [p.backoff_eq]⟩
  | readConflicted hleft => exact .inr ⟨rfl, .inl ⟨_, _, rfl, rfl, hleft⟩⟩
  | readCreated => exact .inr ⟨rfl, .inr ⟨_, _, rfl, rfl⟩⟩
  | look hx => cases hx

/-- After a pause the call is made again that has failed before it. -/
theorem Next.of_paused {milliseconds : Nat} (hnext : Next p c (.paused milliseconds :: h) q) :
    ∃ r e before, h = .failed r e :: before ∧ e.isRetryable ∧ q = .store (c.retried r) := by
  cases hnext with
  | again he hleft => exact ⟨_, _, _, rfl, he, rfl⟩
  | look hx => cases hx

/-- A pause only follows a failure that may pass. -/
theorem Next.of_pause {milliseconds : Nat} (hnext : Next p c h (.pause milliseconds)) :
    ∃ r e before, h = .failed r e :: before ∧ e.isRetryable := by
  cases hnext with
  | pause he hleft => exact ⟨_, _, _, rfl, he⟩

/-- A missing group is created, if it is to be created. -/
theorem Next.of_found_none {name : String} (hnext : Next p c (.found name none :: h) q) :
    c.createAs.isSome := by
  cases hnext with
  | create hcreate hraced => rw [hcreate]; rfl
  | look hx => cases hx

/-- Only a change that creates its group asks for this. -/
theorem Next.of_create {g : StoredGroup} (hnext : Next p c h (.store (.create g))) :
    c.createAs.isSome ∨ .create ∈ calls h := by
  generalize hq : AggregatorRequest.store (.create g) = q at hnext
  cases hnext with
  | create hcreate hraced => exact .inl (by rw [hcreate]; rfl)
  | @again h r e milliseconds he hleft =>
    cases r with
    | create g' => exact .inr (by simp [calls, call?, StoreRequest.call])
    | get name => cases hq
    | replace g' => cases hq
    | list => cases hq
  | read => cases hq
  | readCreated => cases hq
  | look hx => cases hq
  | replace hx hchanged hleft => cases hq
  | readConflicted hleft => cases hq
  | pause he hleft => cases hq

/-! ## Histories -/

/-- Each request of the history was asked for in its turn. -/
inductive Lawful (p : RetryPolicy) (c : GroupChange) : List Exchange → Prop
  | nil : Lawful p c []
  | cons {x : Exchange} {h : List Exchange} (hl : Lawful p c h) (hx : Next p c h x.request) :
      Lawful p c (x :: h)

theorem Lawful.of_append (hl : Lawful p c (after ++ h)) : Lawful p c h := by
  induction after with
  | nil => exact hl
  | cons x after ih =>
    cases hl with
    | cons hl hx => exact ih hl

theorem Lawful.next_request (hl : Lawful p c (x :: h)) : Next p c h x.request := by
  cases hl with
  | cons hl hx => exact hx

/-- A history ends with an exchange, or goes on with the next one. -/
theorem Lawful.next (hl : Lawful p c (after ++ h)) :
    after = [] ∨ ∃ rest x, after = rest ++ [x] ∧ Next p c h x.request := by
  rcases List.eq_nil_or_concat after with rfl | ⟨rest, x, rfl⟩
  · exact .inl rfl
  · rw [List.concat_eq_append, List.append_assoc] at hl
    exact .inr ⟨rest, x, List.concat_eq_append, hl.of_append.next_request⟩

/-- No call is attempted more often than the policy allows. -/
theorem Lawful.attempts_le (hl : Lawful p c h) (k : StoreCall) : attempts k h ≤ p.attempts := by
  induction hl with
  | nil => cases k <;> exact Nat.zero_le _
  | @cons x h hl hx ih =>
    cases hcall : x.call? with
    | none =>
      rw [attempts_cons_of_none hcall]
      exact ih
    | some k' =>
      by_cases hk : k' = k
      · subst hk
        obtain ⟨r, hr, rfl⟩ := exists_request_of_call? hcall
        rw [hr] at hx
        rw [attempts_cons_self hcall]
        exact hx.attempts_lt
      · by_cases hreplace : k = .replace
        · subst hreplace
          rw [attempts_replace_cons (by simp [hcall, hk])]
          exact ih
        · rw [attempts_cons_of_ne hreplace hcall hk]
          exact Nat.zero_le _

/-- Nor are there more calls of a kind one after the other. -/
theorem Lawful.consecutive_le (hl : Lawful p c h) {n : Nat} (hn : List.replicate n k <:+: calls h)
    (hk : k ≠ .replace) : n ≤ p.attempts := by
  induction hl with
  | nil =>
    obtain rfl : n = 0 := by simpa [calls] using hn
    exact Nat.zero_le _
  | @cons x h hl hx ih =>
    cases hcall : x.call? with
    | none =>
      rw [calls_cons_of_none hcall] at hn
      exact ih hn
    | some k' =>
      rw [calls_cons_of_some hcall, List.infix_cons_iff, ← calls_cons_of_some hcall] at hn
      rcases hn with hfirst | hlater
      · exact Nat.le_trans (le_attempts_of_replicate hk hfirst) ((hl.cons hx).attempts_le k)
      · exact ih hlater

/-- A group is only created by a change that is to create it. -/
theorem Lawful.isSome_of_create (hl : Lawful p c h) (hcreate : .create ∈ calls h) :
    c.createAs.isSome := by
  induction hl with
  | nil => cases hcreate
  | @cons x h hl hx ih =>
    cases hcall : x.call? with
    | none =>
      rw [calls_cons_of_none hcall] at hcreate
      exact ih hcreate
    | some k =>
      rw [calls_cons_of_some hcall, List.mem_cons] at hcreate
      rcases hcreate with rfl | hcreate
      · obtain ⟨r, hr, hkind⟩ := exists_request_of_call? hcall
        cases r with
        | create g =>
          rw [hr] at hx
          exact hx.of_create.elim id ih
        | get name => cases hkind
        | replace g => cases hkind
        | list => cases hkind
      · exact ih hcreate

/-! ## After a failure -/

variable {result : Except AggregateError (Option StoredGroup)} {g : StoredGroup} {name : String}

/-- After a failure that may pass there is a pause and the next attempt, or the end when there
are no attempts left. -/
theorem Lawful.of_retryable (hl : Lawful p c (after ++ .failed r e :: before))
    (hends : Ends p c (after ++ .failed r e :: before) result) (he : e.isRetryable) :
    (attempts r.call (.failed r e :: before) < p.attempts ∧
        ∃ rest x, x.request = .store (c.retried r) ∧
          after = rest ++ [x, .paused (p.pauseAfter (attempts r.call (.failed r e :: before)))]) ∨
      attempts r.call (.failed r e :: before) = p.attempts ∧ after = [] := by
  rcases hl.next with rfl | ⟨rest, y, rfl, hnext⟩
  · cases hends with
    | exhausted hlast => cases he
    | failed hlast hconflict hexists => exact .inr ⟨hlast he, rfl⟩
  · rcases hnext.of_failed with ⟨-, hleft, hpause⟩ | ⟨-, ⟨g, name, rfl, rfl, -⟩ | ⟨g, name, rfl, rfl⟩⟩
    · obtain rfl := eq_paused_of_request hpause
      rw [List.append_assoc] at hl hends
      rcases hl.next with rfl | ⟨rest, x, rfl, hagain⟩
      · cases hends
      · obtain ⟨r', e', before', heq, -, hx⟩ := hagain.of_paused
        cases heq
        exact .inl ⟨hleft, rest, x, hx, by simp⟩
    · cases he
    · cases he

/-- Nothing is asked for after a failure that does not pass, unless somebody else has changed
or created the group. -/
theorem Lawful.of_hard (hl : Lawful p c (after ++ .failed r e :: before)) (he : ¬e.isRetryable)
    (hconflict : ∀ name, r.call = .replace → e ≠ .conflict name)
    (hexists : ∀ name, r.call = .create → e ≠ .alreadyExists name) : after = [] := by
  rcases hl.next with rfl | ⟨rest, y, rfl, hnext⟩
  · rfl
  · rcases hnext.of_failed with ⟨hretry, -⟩ | ⟨-, ⟨g, name, rfl, rfl, -⟩ | ⟨g, name, rfl, rfl⟩⟩
    · exact absurd hretry he
    · exact absurd rfl (hconflict name rfl)
    · exact absurd rfl (hexists name rfl)

/-- After a conflict the group is read again at once, or the change fails when there are no
attempts left. -/
theorem Lawful.of_conflict
    (hl : Lawful p c (after ++ .failed (.replace g) (.conflict name) :: before))
    (hends : Ends p c (after ++ .failed (.replace g) (.conflict name) :: before) result) :
    (attempts .replace (.failed (.replace g) (.conflict name) :: before) < p.attempts ∧
        ∃ rest x, x.request = .store (.get c.name) ∧ after = rest ++ [x]) ∨
      attempts .replace (.failed (.replace g) (.conflict name) :: before) = p.attempts ∧
        after = [] ∧ result = .error (.conflictRetriesExhausted c.name p.attempts) := by
  rcases hl.next with rfl | ⟨rest, y, rfl, hnext⟩
  · cases hends with
    | exhausted hlast => exact .inr ⟨hlast, rfl, rfl⟩
    | failed hlast hconflict hexists => exact absurd rfl (hconflict name rfl)
  · rcases hnext.of_failed with ⟨hretry, -⟩ | ⟨hread, ⟨g, name, -, -, hleft⟩ | ⟨g', name', hr, -⟩⟩
    · cases hretry
    · exact .inl ⟨hleft, rest, y, hread, rfl⟩
    · cases hr

/-- A change fails for conflicts exactly if its last attempt to replace has met one. -/
theorem Lawful.exhausted_iff (hl : Lawful p c h) (hends : Ends p c h result) :
    result = .error (.conflictRetriesExhausted c.name p.attempts) ↔
      ∃ after g name before, h = after ++ .failed (.replace g) (.conflict name) :: before ∧
        attempts .replace (.failed (.replace g) (.conflict name) :: before) = p.attempts := by
  constructor
  · rintro rfl
    cases hends with
    | exhausted hlast => exact ⟨[], _, _, _, rfl, hlast⟩
  · rintro ⟨after, g, name, before, rfl, hlast⟩
    rcases hl.of_conflict hends with ⟨hless, -⟩ | ⟨-, -, hresult⟩
    · omega
    · exact hresult

/-- A removal ends well without a group exactly if it has seen last that there is none. -/
theorem Lawful.absent_iff (hl : Lawful p c h) (hends : Ends p c h result)
    (hcreate : c.createAs = none) :
    result = .ok none ↔ h.findSome? read? = some (.ok none) := by
  constructor
  · rintro rfl
    cases hends with
    | absent hcreate => rfl
  · intro hread
    obtain ⟨after, x, before, rfl, hx, -⟩ := List.findSome?_eq_some_iff.mp hread
    obtain ⟨name, rfl⟩ := exists_found_of_read? hx
    rcases hl.next with rfl | ⟨rest, y, rfl, hnext⟩
    · cases hends with
      | absent hcreate => rfl
      | gone hcreate' hraced => rw [hcreate] at hcreate'; cases hcreate'
    · have hsome := hnext.of_found_none
      rw [hcreate] at hsome
      cases hsome

end GroupChange

/-! ## The number of calls -/

/-- The program makes so many calls of the store at most, whatever the answers are. -/
def CallsAtMost {α : Type} (n : Nat) (program : GroupProgram α) : Prop :=
  ∀ h, program.Obeys { allows := fun _ _ => True, after := Exchange.after }
    (fun m _ => (calls m).length ≤ (calls h).length + n) h

theorem callsAtMost_program (p : RetryPolicy) (c : GroupChange) :
    CallsAtMost (p.attempts * (3 * p.attempts + 1)) (c.program p) := by
  have hloops : loops c.createAs ≤ 3 := by
    cases c with
    | upsert name type key usage => exact Nat.le_refl 3
    | remove name key ended => exact Nat.le_add_left 1 2
  have hattempt : perAttempt 1 p c.createAs ≤ 3 * p.attempts + 1 := by
    rw [perAttempt, p.retries_add_one]
    exact Nat.add_le_add_right (Nat.mul_le_mul_right _ hloops) 1
  intro h
  refine (c.program_spendsUpTo (Nat.le_refl 1) p h (Nat.le_refl _)).mono fun m a hm => ?_
  rw [spent_one, spent_one] at hm
  exact Nat.le_trans hm (Nat.add_le_add_left (Nat.mul_le_mul_left p.attempts hattempt) _)

/-! ## Runs -/

namespace GroupChange

variable {σ : Type} {p : RetryPolicy} {c : GroupChange} {h : List Exchange}
  {result : Except AggregateError (Option StoredGroup)}

/-- What a run of a change asks for, and what it is told, against answers from a state. -/
def exchanges (p : RetryPolicy) (c : GroupChange)
    (answer : (r : AggregatorRequest) → σ → AggregatorInterface.Answer r × σ) (s : σ) :
    List Exchange := (c.program p).noted Exchange.after answer [] s

theorem lawful_noted {α : Type} {program : GroupProgram α} {post : List Exchange → α → Prop}
    (hprogram : program.Obeys (law p c) post h) (hl : Lawful p c h)
    (answer : (r : AggregatorRequest) → σ → AggregatorInterface.Answer r × σ) (s : σ) :
    Lawful p c (program.noted Exchange.after answer h s) := by
  induction program generalizing h s with
  | done a => exact hl
  | call r next ih =>
    refine ih _ (hprogram.2 _) (hl.cons ?_) _
    rw [request_of]
    exact hprogram.1

/-- What a run of a change keeps to, by its history and its result. The last exchange of a history
is its first entry. -/
structure Conduct (p : RetryPolicy) (c : GroupChange) (h : List Exchange)
    (result : Except AggregateError (Option StoredGroup)) : Prop where
  /-- The run comes to its end after so many calls of the store. -/
  calls_le : (calls h).length ≤ p.attempts * (3 * p.attempts + 1)
  replaces_le : (calls h).count .replace ≤ p.attempts
  /-- So many reads, or creations, are made one after the other. -/
  consecutive_le : ∀ k n, k = .get ∨ k = .create → List.replicate n k <:+: calls h → n ≤ p.attempts
  /-- A group that is the result was the answer to the last call, which has replaced the record;
  or it has just been read or created, and the change does not change it. -/
  of_some : ∀ g, result = .ok (some g) →
    (∃ g₀ before, h = .replaced g₀ g :: before) ∨
      ∃ x t before, h = .told t :: x :: before ∧ x.group? = some g ∧ changed c.apply t g = g
  /-- Only a removal ends well without a group. -/
  of_none : result = .ok none → c.createAs = none
  /-- A removal ends so exactly if its last read has found none, and never creates any. -/
  removal : c.createAs = none →
    .create ∉ calls h ∧ (result = .ok none ↔ h.findSome? read? = some (.ok none))
  /-- The change fails for conflicts exactly if the last attempt to replace has met one. -/
  exhausted_iff : result = .error (.conflictRetriesExhausted c.name p.attempts) ↔
    ∃ after g name before, h = after ++ .failed (.replace g) (.conflict name) :: before ∧
      (calls (.failed (.replace g) (.conflict name) :: before)).count .replace = p.attempts
  of_exhausted : ∀ name n, result = .error (.conflictRetriesExhausted name n) →
    name = c.name ∧ n = p.attempts
  /-- Any other failure is that of the last call; or somebody else was said to have created the
  group, and the reads that followed have ended with none. -/
  of_error : ∀ e, result = .error (.store e) →
    (∃ r before, h = .failed r e :: before) ∨
      e = .notFound c.name ∧ ∃ name before, h = .found name none :: before ∧ Raced before
  /-- After a failure that does not pass there is no other request, conflicts and lost races
  apart. -/
  hard : ∀ after r e before, h = after ++ .failed r e :: before → ¬e.isRetryable →
    (∀ name, r.call = .replace → e ≠ .conflict name) →
    (∀ name, r.call = .create → e ≠ .alreadyExists name) → after = []
  /-- After a failure that may pass there is a pause by the number of the attempt, and then the
  next attempt, unless this was the last one. -/
  retryable : ∀ after r e before, h = after ++ .failed r e :: before → e.isRetryable →
    (attempts r.call (.failed r e :: before) < p.attempts ∧
        ∃ rest x, x.request = .store (c.retried r) ∧
          after = rest ++ [x, .paused (p.pauseAfter (attempts r.call (.failed r e :: before)))]) ∨
      attempts r.call (.failed r e :: before) = p.attempts ∧ after = []
  /-- There are no other pauses. -/
  of_pause : ∀ after milliseconds before, h = after ++ .paused milliseconds :: before →
    ∃ r e rest, before = .failed r e :: rest ∧ e.isRetryable
  /-- After a conflict the group is read again at once, unless this was the last attempt. -/
  conflict : ∀ after g name before, h = after ++ .failed (.replace g) (.conflict name) :: before →
    (attempts .replace (.failed (.replace g) (.conflict name) :: before) < p.attempts ∧
        ∃ rest x, x.request = .store (.get c.name) ∧ after = rest ++ [x]) ∨
      attempts .replace (.failed (.replace g) (.conflict name) :: before) = p.attempts ∧ after = []

/-- Whatever the store answers to each call, and whatever the clock shows, a change ends, is
retried as its policy says, and its result says what has happened. -/
theorem run_conduct (p : RetryPolicy) (c : GroupChange)
    (answer : (r : AggregatorRequest) → σ → AggregatorInterface.Answer r × σ) (s : σ) :
    Conduct p c (c.exchanges p answer s) ((c.program p).run answer s).1 := by
  have hl : Lawful p c (c.exchanges p answer s) := lawful_noted (program_lawful p c) .nil answer s
  have hends : Ends p c (c.exchanges p answer s) _ := (program_lawful p c).noted answer s
  have hcalls : (calls (c.exchanges p answer s)).length ≤ _ :=
    (callsAtMost_program p c []).noted answer s
  generalize c.exchanges p answer s = h at hl hends hcalls
  generalize ((c.program p).run answer s).1 = result at hends
  refine
    { calls_le := by simpa [calls] using hcalls
      replaces_le := hl.attempts_le .replace
      consecutive_le := ?_
      of_some := ?_
      of_none := ?_
      removal := ?_
      exhausted_iff := hl.exhausted_iff hends
      of_exhausted := ?_
      of_error := ?_
      hard := ?_
      retryable := ?_
      of_pause := ?_
      conflict := ?_ }
  · rintro k n (rfl | rfl) hn
    · exact hl.consecutive_le hn nofun
    · exact hl.consecutive_le hn nofun
  · rintro g rfl
    cases hends with
    | unchanged hx hsame => exact .inr ⟨_, _, _, rfl, hx, hsame⟩
    | written => exact .inl ⟨_, _, rfl⟩
  · rintro rfl
    cases hends with
    | absent hcreate => exact hcreate
  · intro hcreate
    refine ⟨fun hmem => ?_, hl.absent_iff hends hcreate⟩
    have hsome := hl.isSome_of_create hmem
    rw [hcreate] at hsome
    cases hsome
  · rintro name n rfl
    cases hends with
    | exhausted hlast => exact ⟨rfl, rfl⟩
  · rintro e rfl
    cases hends with
    | failed hlast hconflict hexists => exact .inl ⟨_, _, rfl⟩
    | gone hcreate hraced => exact .inr ⟨rfl, _, _, rfl, hraced⟩
  · rintro after r e before rfl he hconflict hexists
    exact hl.of_hard he hconflict hexists
  · rintro after r e before rfl he
    exact hl.of_retryable hends he
  · rintro after milliseconds before rfl
    exact hl.of_append.next_request.of_pause
  · rintro after g name before rfl
    exact (hl.of_conflict hends).imp_right fun ⟨hlast, hafter, _⟩ => ⟨hlast, hafter⟩

namespace Conduct

variable {after before : List Exchange} {k : Nat}

/-- An attempt that is not the last one is followed by its pause and the next attempt. -/
theorem again {r : StoreRequest} {e : StoreError} (H : Conduct p c h result)
    (hsplit : h = after ++ .failed r e :: before) (he : e.isRetryable)
    (hk : attempts r.call (.failed r e :: before) = k) (hleft : k < p.attempts) :
    ∃ rest x, x.request = .store (c.retried r) ∧
      h = rest ++ x :: .paused (p.pauseAfter k) :: .failed r e :: before := by
  subst hk
  rcases H.retryable after r e before hsplit he with ⟨-, rest, x, hx, rfl⟩ | ⟨hlast, -⟩
  · exact ⟨rest, x, hx, by simpa using hsplit⟩
  · exact absurd hlast (Nat.ne_of_lt hleft)

/-- A conflict that is not the last one is followed by a read. -/
theorem readAgain {g : StoredGroup} {name : String} (H : Conduct p c h result)
    (hsplit : h = after ++ .failed (.replace g) (.conflict name) :: before)
    (hk : attempts .replace (.failed (.replace g) (.conflict name) :: before) = k)
    (hleft : k < p.attempts) :
    ∃ rest x, x.request = .store (.get c.name) ∧
      h = rest ++ x :: .failed (.replace g) (.conflict name) :: before := by
  subst hk
  rcases H.conflict after g name before hsplit with ⟨-, rest, x, hx, rfl⟩ | ⟨hlast, -⟩
  · exact ⟨rest, x, hx, by simpa using hsplit⟩
  · exact absurd hlast (Nat.ne_of_lt hleft)

end Conduct

end GroupChange

/-! ## Answers from a queue -/

/-- The answer to the next call of the store: a failure, or the group that is found if there is
one. What is written is written as it is. -/
abbrev QueuedAnswer := Except StoreError (Option StoredGroup)

/-- The answers to a program whose calls of the store are answered from a queue. -/
def answerQueued : (r : AggregatorRequest) → List QueuedAnswer →
    AggregatorInterface.Answer r × List QueuedAnswer
  | .store _, [] => (.error (.other "nothing is queued"), [])
  | .store _, .error e :: queue => (.error e, queue)
  | .store (.get _), .ok g :: queue => (.ok g, queue)
  | .store (.create g), .ok _ :: queue => (.ok g, queue)
  | .store (.replace g), .ok _ :: queue => (.ok g, queue)
  | .store .list, .ok g :: queue => (.ok g.toList, queue)
  | .pause _, queue => ((), queue)
  | .clock, queue => (⟨0, 0⟩, queue)

namespace GroupChange

/-- The second pause of this policy is not twice the first one. -/
def hastyPolicy : RetryPolicy := { baseDelay := 100, maxDelay := 150 }

/-- The pod `web-0` joins the group of its namespace. -/
def joinShop : GroupChange := .upsert "ns-shop" .byNamespace "shop/web-0" ⟨.zero, 0, ⟨0, 0⟩⟩

/-- The group of the namespace, without a member. -/
def emptyShop : StoredGroup := .new "ns-shop" (.new "ns-shop" .byNamespace)

/-- The store is busy for two reads. Then somebody else replaces the group first, and then the
store is busy again. -/
def troubledAnswers : List QueuedAnswer :=
  let busy : QueuedAnswer := .error (.transient "busy")
  [busy, busy, .ok (some emptyShop), .error (.conflict "ns-shop"), .ok (some emptyShop), busy,
    .ok (some emptyShop), .ok none]

/-- Each failure that may pass is followed by its pause and another read, and the conflict by a read
at once. The result is the group as the third attempt has replaced it. -/
theorem joinShop_retried :
    let h := joinShop.exchanges hastyPolicy answerQueued troubledAnswers
    let result := ((joinShop.program hastyPolicy).run answerQueued troubledAnswers).1
    let readAfter (before : List Exchange) :=
      ∃ rest x, x.request = .store (.get "ns-shop") ∧ h = rest ++ x :: before
    let busyRead : Exchange := .failed (.get "ns-shop") (.transient "busy")
    readAfter [.paused 100, busyRead] ∧
      readAfter [.paused 150, busyRead, .paused 100, busyRead] ∧
      (∃ g before, readAfter (.failed (.replace g) (.conflict "ns-shop") :: before)) ∧
      (∃ g before, readAfter (.paused 150 :: .failed (.replace g) (.transient "busy") :: before)) ∧
      ∃ g g₀ before, result = .ok (some g) ∧ h = .replaced g₀ g :: before := by
  intro h result readAfter busyRead
  have H : Conduct hastyPolicy joinShop h result := run_conduct ..
  let joined := changed joinShop.apply ⟨0, 0⟩ emptyShop
  have hfirst : h = h.take 13 ++ busyRead :: [] := by decide +kernel
  have hsecond : h = h.take 11 ++ busyRead :: [.paused 100, busyRead] := by decide +kernel
  have hconflict : h = h.take 7 ++ .failed (.replace joined) (.conflict "ns-shop") :: h.drop 8 := by
    decide +kernel
  have hbusy : h = h.take 4 ++ .failed (.replace joined) (.transient "busy") :: h.drop 5 := by
    decide +kernel
  have hresult : result = .ok (some joined) := rfl
  have hhead : h.head? = some (.replaced joined joined) := by decide +kernel
  refine ⟨H.again hfirst rfl rfl (by decide), H.again hsecond rfl rfl (by decide),
    ⟨_, _, H.readAgain hconflict (by decide +kernel) (by decide : 1 < 5)⟩,
    ⟨_, _, H.again hbusy rfl (by decide +kernel) (by decide : 2 < 5)⟩, joined, ?_⟩
  rcases H.of_some joined hresult with ⟨g₀, before, hlast⟩ | ⟨x, t, before, hlast, -⟩
  · exact ⟨g₀, before, hresult, hlast⟩
  · rw [hlast] at hhead
    cases hhead

end GroupChange

end Chargeback
