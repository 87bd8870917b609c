import Chargeback.Proofs.Group.Change
import Chargeback.Store.Script

/-!
# What a change of a group asks for next

A change of a group is made of three loops: it repeats a read or a creation that fails for a
passing reason, and it begins anew with a read when a replacement was refused. Whatever the
answers are, what it asks for next, and how it ends, is given by what it has been told so far:
by the last answer, and by how often it has made the last call. This module says how, and
proves it of the program.

A history has its last exchange first. All proofs follow the programs, from the innermost loop
outwards; those of loops are by induction on the attempts that are left.

## Main definitions

* `Exchange`: a request of a change, and its answer.
* `Exchange.attempts`: how often a call has been made without another one between.
* `GroupChange.Next`: what a change may ask for after a history.
* `GroupChange.Ends`: how a change may end after a history.
* `GroupChange.program_lawful`: changes ask for this, and end so.
-/

namespace Chargeback

/-- How often a call is attempted, counting the first time. -/
def RetryPolicy.attempts (p : RetryPolicy) : Nat := max 1 p.maxAttempts

theorem RetryPolicy.retries_add_one (p : RetryPolicy) : p.retries + 1 = p.attempts := by
  unfold retries attempts
  omega

/-- A request of a program on groups, and its answer. -/
inductive Exchange where
  | failed (r : StoreRequest) (e : StoreError)
  /-- A group was read, or it was seen that there is none. -/
  | found (name : String) (g : Option StoredGroup)
  | created (g written : StoredGroup)
  | replaced (g written : StoredGroup)
  | listed (gs : List StoredGroup)
  | paused (milliseconds : Nat)
  /-- The clock was looked at. -/
  | told (time : Instant)
deriving DecidableEq

namespace Exchange

/-- A request with its answer. -/
def of : (r : AggregatorRequest) → AggregatorInterface.Answer r → Exchange
  | .store r, .error e => failed r e
  | .store (.get name), .ok g => found name g
  | .store (.create g), .ok written => created g written
  | .store (.replace g), .ok written => replaced g written
  | .store .list, .ok gs => listed gs
  | .pause milliseconds, _ => paused milliseconds
  | .clock, time => told time

/-- What was asked for. -/
def request : Exchange → AggregatorRequest
  | failed r _ => .store r
  | found name _ => .store (.get name)
  | created g _ => .store (.create g)
  | replaced g _ => .store (.replace g)
  | listed _ => .store .list
  | paused milliseconds => .pause milliseconds
  | told _ => .clock

/-- The call of the store, if it was one. -/
def call? : Exchange → Option StoreCall
  | failed r _ => some r.call
  | found .. => some .get
  | created .. => some .create
  | replaced .. => some .replace
  | listed _ => some .list
  | paused _ => none
  | told _ => none

/-- The group that was read or created. -/
def group? : Exchange → Option StoredGroup
  | found _ g => g
  | created _ written => some written
  | _ => none

/-- A history that goes on. -/
def after (h : List Exchange) (r : AggregatorRequest) (a : AggregatorInterface.Answer r) :
    List Exchange := of r a :: h

theorem of_error (r : StoreRequest) (e : StoreError) : of (.store r) (.error e) = failed r e := by
  cases r <;> rfl

@[simp] theorem request_of (r : AggregatorRequest) (a : AggregatorInterface.Answer r) :
    (of r a).request = r := by
  cases r with
  | store r =>
    cases a with
    | error e => rw [of_error]; rfl
    | ok v => cases r <;> rfl
  | pause k => rfl
  | clock => rfl

/-! ## Counting -/

/-- The calls of the store. -/
def calls (h : List Exchange) : List StoreCall := h.filterMap call?

/-- How often a call has been made: since another call was made, or in all if it replaces. -/
def attempts (k : StoreCall) (h : List Exchange) : Nat :=
  if k = .replace then (calls h).count .replace else ((calls h).takeWhile (· = k)).length

variable {k k' : StoreCall} {x : Exchange} {h part : List Exchange}

theorem calls_cons_of_none (hx : x.call? = none) : calls (x :: h) = calls h :=
  List.filterMap_cons_none hx

theorem calls_cons_of_some (hx : x.call? = some k) : calls (x :: h) = k :: calls h :=
  List.filterMap_cons_some hx

theorem attempts_cons_of_none (hx : x.call? = none) : attempts k (x :: h) = attempts k h := by
  rw [attempts, attempts, calls_cons_of_none hx]

theorem attempts_cons_self (hx : x.call? = some k) : attempts k (x :: h) = attempts k h + 1 := by
  rw [attempts, attempts, calls_cons_of_some hx]
  split
  next hk => rw [hk, List.count_cons_self]
  next => simp

/-- Another call begins a new count. -/
theorem attempts_cons_of_ne (hk : k ≠ .replace) (hx : x.call? = some k') (hne : k' ≠ k) :
    attempts k (x :: h) = 0 := by
  rw [attempts, calls_cons_of_some hx, if_neg hk]
  simp [hne]

theorem attempts_replace_cons (hx : x.call? ≠ some .replace) :
    attempts .replace (x :: h) = attempts .replace h := by
  cases hcall : x.call? with
  | none => exact attempts_cons_of_none hcall
  | some k =>
    have hne : k ≠ .replace := fun hk => hx (hcall.trans (congrArg some hk))
    simp [attempts, calls_cons_of_some hcall, hne]

theorem call?_ne_replace {g : StoredGroup} (hx : x.group? = some g) : x.call? ≠ some .replace := by
  cases x with
  | found name g => nofun
  | created g written => nofun
  | failed r e => cases hx
  | replaced g written => cases hx
  | listed gs => cases hx
  | paused milliseconds => cases hx
  | told time => cases hx

/-- The attempts at another call are no attempts to replace. -/
theorem attempts_replace_append (hpart : ∀ x ∈ part, x.call? = none ∨ x.call? = some k)
    (hk : k ≠ .replace) :
    attempts .replace (part ++ h) = attempts .replace h := by
  induction part with
  | nil => rfl
  | cons x part ih =>
    rw [List.forall_mem_cons] at hpart
    have hx : x.call? ≠ some .replace := by
      rcases hpart.1 with hcall | hcall <;> simp [hcall, hk]
    rw [List.cons_append, attempts_replace_cons hx, ih hpart.2]

/-! ## Lost races -/

/-- Nothing was called but a read. -/
def IsRead (x : Exchange) : Prop := x.call? = none ∨ x.call? = some .get

/-- Somebody else had created the group when the change tried to, and it has been read since. -/
def Raced (h : List Exchange) : Prop :=
  ∃ reads g name before, h = reads ++ failed (.create g) (.alreadyExists name) :: before ∧
    ∀ x ∈ reads, x.IsRead

theorem raced_cons (hx : x.IsRead) : Raced (x :: h) ↔ Raced h := by
  constructor
  · rintro ⟨reads, g, name, before, heq, hreads⟩
    cases reads with
    | nil =>
      obtain ⟨rfl, -⟩ := List.cons.inj heq
      rcases hx with hx | hx <;> cases hx
    | cons y reads =>
      obtain ⟨-, rfl⟩ := List.cons.inj heq
      exact ⟨reads, g, name, before, rfl, fun z hz => hreads z (List.mem_cons_of_mem _ hz)⟩
  · rintro ⟨reads, g, name, before, rfl, hreads⟩
    exact ⟨x :: reads, g, name, before, rfl, List.forall_mem_cons.mpr ⟨hx, hreads⟩⟩

theorem raced_append (hpart : ∀ x ∈ part, x.IsRead) : Raced (part ++ h) ↔ Raced h := by
  induction part with
  | nil => rfl
  | cons x part ih =>
    rw [List.forall_mem_cons] at hpart
    rw [List.cons_append, raced_cons hpart.1, ih hpart.2]

theorem not_raced_failed_replace {g : StoredGroup} {e : StoreError} :
    ¬Raced (failed (.replace g) e :: h) := by
  rintro ⟨reads, g', name, before, heq, hreads⟩
  cases reads with
  | nil => cases (List.cons.inj heq).1
  | cons y reads =>
    obtain ⟨rfl, -⟩ := List.cons.inj heq
    rcases hreads _ List.mem_cons_self with hx | hx <;> cases hx

end Exchange

namespace GroupChange

open Exchange Aggregator

variable {p : RetryPolicy} {c : GroupChange} {r : StoreRequest} {h m : List Exchange}
  {type : GroupType}

/-- What is called again when a call has failed. A change that could not replace the record
reads it again. -/
def retried (c : GroupChange) : StoreRequest → StoreRequest
  | .replace _ => .get c.name
  | r => r

theorem retried_of_ne (c : GroupChange) (hr : r.call ≠ .replace) : c.retried r = r := by
  cases r with
  | replace g => exact absurd rfl hr
  | get name => rfl
  | create g => rfl
  | list => rfl

/-- What a change may ask for after a history. -/
inductive Next (p : RetryPolicy) (c : GroupChange) : List Exchange → AggregatorRequest → Prop
  | read : Next p c [] (.store (.get c.name))
  /-- A missing group is created, unless somebody else was said to have created it. -/
  | create {h : List Exchange} {name : String} {type : GroupType}
      (hcreate : c.createAs = some type) (hraced : ¬Raced h) :
      Next p c (.found name none :: h) (.store (.create (.new c.name (.new c.name type))))
  | readCreated {h : List Exchange} {g : StoredGroup} {name : String} :
      Next p c (.failed (.create g) (.alreadyExists name) :: h) (.store (.get c.name))
  | look {h : List Exchange} {x : Exchange} {g : StoredGroup} (hx : x.group? = some g) :
      Next p c (x :: h) .clock
  /-- The group that was read or created is replaced if it is changed. -/
  | replace {h : List Exchange} {x : Exchange} {g : StoredGroup} {t : Instant}
      (hx : x.group? = some g) (hchanged : changed c.apply t g ≠ g)
      (hleft : attempts .replace h < p.attempts) :
      Next p c (.told t :: x :: h) (.store (.replace (changed c.apply t g)))
  /-- Another change was first: the record is read again at once. -/
  | readConflicted {h : List Exchange} {g : StoredGroup} {name : String}
      (hleft : attempts .replace (.failed (.replace g) (.conflict name) :: h) < p.attempts) :
      Next p c (.failed (.replace g) (.conflict name) :: h) (.store (.get c.name))
  | pause {h : List Exchange} {r : StoreRequest} {e : StoreError} (he : e.isRetryable)
      (hleft : attempts r.call (.failed r e :: h) < p.attempts) :
      Next p c (.failed r e :: h) (.pause (p.backoff (attempts r.call (.failed r e :: h))))
  | again {h : List Exchange} {r : StoreRequest} {e : StoreError} {milliseconds : Nat}
      (he : e.isRetryable) (hleft : attempts r.call (.failed r e :: h) < p.attempts) :
      Next p c (.paused milliseconds :: .failed r e :: h) (.store (c.retried r))

/-- How a change may end after a history. -/
inductive Ends (p : RetryPolicy) (c : GroupChange) :
    List Exchange → Except AggregateError (Option StoredGroup) → Prop
  | absent {h : List Exchange} {name : String} (hcreate : c.createAs = none) :
      Ends p c (.found name none :: h) (.ok none)
  /-- Somebody else was said to have created the group, but there is none. -/
  | gone {h : List Exchange} {name : String} {type : GroupType}
      (hcreate : c.createAs = some type) (hraced : Raced h) :
      Ends p c (.found name none :: h) (.error (.store (.notFound c.name)))
  | unchanged {h : List Exchange} {x : Exchange} {g : StoredGroup} {t : Instant}
      (hx : x.group? = some g) (hsame : changed c.apply t g = g) :
      Ends p c (.told t :: x :: h) (.ok (some g))
  | written {h : List Exchange} {g written : StoredGroup} :
      Ends p c (.replaced g written :: h) (.ok (some written))
  | exhausted {h : List Exchange} {g : StoredGroup} {name : String}
      (hlast : attempts .replace (.failed (.replace g) (.conflict name) :: h) = p.attempts) :
      Ends p c (.failed (.replace g) (.conflict name) :: h)
        (.error (.conflictRetriesExhausted c.name p.attempts))
  /-- A call has failed for good: its failure would not pass, or there are no attempts left. -/
  | failed {h : List Exchange} {r : StoreRequest} {e : StoreError}
      (hlast : e.isRetryable → attempts r.call (.failed r e :: h) = p.attempts)
      (hconflict : ∀ name, r.call = .replace → e ≠ .conflict name)
      (hexists : ∀ name, r.call = .create → e ≠ .alreadyExists name) :
      Ends p c (.failed r e :: h) (.error (.store e))

/-- The protocol of what may be asked for after a history. -/
def law (p : RetryPolicy) (c : GroupChange) : Protocol AggregatorInterface (List Exchange) where
  allows := Next p c
  after := Exchange.after

/-! ## Repeated calls -/

/-- The call has been made until it succeeded, or failed for a reason that does not pass, or
there were no attempts left. -/
structure Tried (p : RetryPolicy) (r : StoreRequest) (h m : List Exchange) (a : r.Answer) :
    Prop where
  last : ∃ tries, m = .of (.store r) a :: (tries ++ h) ∧
    ∀ x ∈ tries, x.call? = none ∨ x.call? = some r.call
  spent : ∀ e, a = .error e → e.isRetryable → attempts r.call m = p.attempts

theorem retryFrom_lawful (hr : r.call ≠ .replace) (attempt left : Nat)
    (hnext : Next p c h (.store r)) (hattempt : attempts r.call h + 1 = attempt)
    (hleft : attempt + left = p.attempts) :
    (retryFrom p r attempt left).Obeys (law p c) (Tried p r h) h := by
  have hcount (h : List Exchange) (e : StoreError) :
      attempts r.call (.failed r e :: h) = attempts r.call h + 1 := attempts_cons_self rfl
  induction left generalizing attempt h with
  | zero =>
    refine ⟨hnext, fun a => ⟨⟨[], rfl, by simp⟩, ?_⟩⟩
    rintro e rfl -
    have hlast := hcount h e
    change attempts r.call (.of (.store r) (.error e) :: h) = _
    rw [of_error]
    omega
  | succ left ih =>
    refine ⟨hnext, fun a => ?_⟩
    cases a with
    | ok v => exact ⟨⟨[], rfl, by simp⟩, fun e he => nomatch he⟩
    | error e =>
      change Program.Obeys (law p c) _ _ (.of (.store r) (.error e) :: h)
      have hlast := hcount h e
      rw [of_error]
      by_cases he : e.isRetryable
      · have hmore : attempts r.call (.failed r e :: h) < p.attempts := by omega
        simp only [Program.done_bind, he, if_true]
        have hpause := Next.pause (c := c) he hmore
        rw [hlast, hattempt] at hpause
        refine ⟨hpause, fun _ => ?_⟩
        change Program.Obeys (law p c) _ _ (.paused (p.backoff attempt) :: .failed r e :: h)
        have hagain : Next p c (.paused (p.backoff attempt) :: .failed r e :: h)
            (.store (c.retried r)) := .again he hmore
        rw [retried_of_ne c hr] at hagain
        refine (ih (attempt + 1) hagain ?_ (by omega)).mono ?_
        · rw [attempts_cons_of_none rfl]
          omega
        · rintro m a ⟨⟨tries, rfl, htries⟩, hspent⟩
          refine ⟨⟨tries ++ [.paused (p.backoff attempt), .failed r e], by simp, ?_⟩, hspent⟩
          intro x hx
          simp only [List.mem_append, List.mem_cons, List.not_mem_nil, or_false] at hx
          rcases hx with hx | rfl | rfl
          · exact htries x hx
          · exact .inl rfl
          · exact .inr rfl
      · simp only [Program.done_bind, he]
        refine ⟨⟨[], by rw [of_error]; rfl, by simp⟩, fun e' he' hretry => ?_⟩
        cases he'
        exact absurd hretry he

theorem retrying_lawful (hnext : Next p c h (.store r)) (hfirst : attempts r.call h = 0)
    (hr : r.call ≠ .replace) :
    (retrying p r).Obeys (law p c) (Tried p r h) h :=
  retryFrom_lawful hr 1 p.retries hnext (by omega) (by have := p.retries_add_one; omega)

/-- A call that has failed for good ends the change, unless it is a creation that found the
group created. -/
theorem Tried.failed {e : StoreError} (ht : Tried p r h m (.error e)) (hr : r.call ≠ .replace)
    (hexists : ∀ name, r.call = .create → e ≠ .alreadyExists name) :
    Ends p c m (.error (.store e)) := by
  obtain ⟨⟨tries, rfl, -⟩, hspent⟩ := ht
  rw [of_error] at hspent ⊢
  exact .failed (hspent e rfl) (fun _ hreplace => absurd hreplace hr) hexists

/-! ## Reads -/

/-- What holds when a group was read: the read ends the history, and there were only reads
since it began. -/
def Read (p : RetryPolicy) (c : GroupChange) (h m : List Exchange) :
    Except AggregateError (Option StoredGroup) → Prop
  | .ok g => ∃ tries, m = .found c.name g :: (tries ++ h) ∧ ∀ x ∈ tries, x.IsRead
  | .error e => Ends p c m (.error e)

theorem get_lawful (hnext : Next p c h (.store (.get c.name))) (hfirst : attempts .get h = 0) :
    (get p c.name).Obeys (law p c) (Read p c h) h := by
  refine (retrying_lawful hnext hfirst nofun).bind ?_
  rintro m (e | g) ht
  · exact ht.failed nofun nofun
  · obtain ⟨⟨tries, rfl, htries⟩, -⟩ := ht
    exact ⟨tries, rfl, htries⟩

/-- What holds when a change has got the record that it starts from: it was read or created
last, and the record had been replaced so often before. Or else the change ends. -/
def Got (p : RetryPolicy) (c : GroupChange) (replaces : Nat) (m : List Exchange) :
    Except AggregateError (Option StoredGroup) → Prop
  | .ok (some g) => ∃ x before, m = x :: before ∧ x.group? = some g ∧
      attempts .replace before = replaces
  | r => Ends p c m r

/-- The group is read once more after somebody else was said to have created it. -/
theorem getExisting_lawful {g : StoredGroup} {name : String} (hcreate : c.createAs = some type) :
    (getExisting p c.name).Obeys (law p c) (fun m a => Got p c (attempts .replace h) m (a.map some))
      (.failed (.create g) (.alreadyExists name) :: h) := by
  have hfirst : attempts .get (.failed (.create g) (.alreadyExists name) :: h) = 0 :=
    attempts_cons_of_ne nofun rfl nofun
  refine (get_lawful .readCreated hfirst).bind ?_
  rintro m (e | _ | g') hread
  · exact hread
  · obtain ⟨tries, rfl, htries⟩ := hread
    exact .gone hcreate ⟨tries, g, name, h, rfl, htries⟩
  · obtain ⟨tries, rfl, htries⟩ := hread
    refine ⟨_, _, rfl, rfl, ?_⟩
    rw [attempts_replace_append htries nofun, attempts_replace_cons (by simp [call?, StoreRequest.call])]

theorem getOrCreate_lawful (hcreate : c.createAs = some type)
    (hnext : Next p c h (.store (.get c.name))) (hfirst : attempts .get h = 0) (hraced : ¬Raced h) :
    (getOrCreate p c.name type).Obeys (law p c)
      (fun m a => Got p c (attempts .replace h) m (a.map some)) h := by
  refine (get_lawful hnext hfirst).bind ?_
  rintro m (e | _ | g) hread
  · exact hread
  · obtain ⟨tries, rfl, htries⟩ := hread
    have hmissing : Next p c (.found c.name none :: (tries ++ h)) _ :=
      .create hcreate (by rwa [raced_append htries])
    have hunmade : attempts .create (.found c.name none :: (tries ++ h)) = 0 :=
      attempts_cons_of_ne nofun rfl nofun
    have hreplaces : attempts .replace (.found c.name none :: (tries ++ h)) = attempts .replace h := by
      rw [attempts_replace_cons (by simp [call?]), attempts_replace_append htries nofun]
    rw [← hreplaces]
    generalize Exchange.found c.name none :: (tries ++ h) = h at hmissing hunmade ⊢
    refine (retrying_lawful hmissing hunmade nofun).bind ?_
    rintro m (e | g) ht
    · have hends := ht.failed (c := c) nofun
      obtain ⟨⟨tries, rfl, htries⟩, -⟩ := ht
      cases e with
      | alreadyExists name =>
        rw [← attempts_replace_append (h := h) htries nofun]
        exact getExisting_lawful hcreate
      | notFound name => exact hends nofun
      | conflict name => exact hends nofun
      | transient text => exact hends nofun
      | serialization text => exact hends nofun
      | other text => exact hends nofun
    · obtain ⟨⟨tries, rfl, htries⟩, -⟩ := ht
      exact ⟨_, _, rfl, rfl, attempts_replace_append htries nofun⟩
  · obtain ⟨tries, rfl, htries⟩ := hread
    exact ⟨_, _, rfl, rfl, attempts_replace_append htries nofun⟩

/-! ## Attempts at a change -/

/-- A change can begin to read, for the first time or anew. -/
structure Ready (p : RetryPolicy) (c : GroupChange) (attempt : Nat) (h : List Exchange) : Prop where
  next : Next p c h (.store (.get c.name))
  unread : attempts .get h = 0
  unraced : ¬Raced h
  replaces : attempts .replace h + 1 = attempt
  left : attempt ≤ p.attempts

theorem ready_start (p : RetryPolicy) (c : GroupChange) : Ready p c 1 [] where
  next := .read
  unread := rfl
  unraced := by
    rintro ⟨reads, g, name, before, heq, -⟩
    simp at heq
  replaces := rfl
  left := by have := p.retries_add_one; omega

variable {attempt : Nat}

theorem current_lawful (hready : Ready p c attempt h) :
    (current p c.name c.createAs).Obeys (law p c) (Got p c (attempts .replace h)) h := by
  cases hcreate : c.createAs with
  | none =>
    refine (get_lawful hready.next hready.unread).mono ?_
    rintro m (e | _ | g) hread
    · exact hread
    · obtain ⟨tries, rfl, -⟩ := hread
      exact .absent hcreate
    · obtain ⟨tries, rfl, htries⟩ := hread
      exact ⟨_, _, rfl, rfl, attempts_replace_append htries nofun⟩
  | some type =>
    refine (getOrCreate_lawful hcreate hready.next hready.unread hready.unraced).bind ?_
    rintro m (e | g) hgot
    · exact hgot
    · exact hgot

/-- What holds after an attempt: the change has come to its end, or the record could not be
replaced. -/
def Attempted (p : RetryPolicy) (c : GroupChange) (attempt : Nat) (m : List Exchange) :
    Attempt → Prop
  | .finished result => Ends p c m result
  | .refused e => ∃ g before, m = .failed (.replace g) e :: before ∧ attempts .replace m = attempt

theorem attemptOnce_lawful (hready : Ready p c attempt h) :
    (attemptOnce p c.name c.createAs c.apply).Obeys (law p c) (Attempted p c attempt) h := by
  refine (current_lawful hready).bind ?_
  rintro m (e | _ | g) hgot
  · exact hgot
  · exact hgot
  · obtain ⟨x, before, rfl, hx, hreplaces⟩ := hgot
    have hcount := hready.replaces
    have hleft := hready.left
    refine ⟨.look hx, fun t => ?_⟩
    by_cases hsame : (c.apply g.spec).pruneActivity (Month.start t) = g.spec
    · simp only [Program.done_bind, hsame, if_true]
      exact .unchanged hx (by rw [changed, hsame])
    · simp only [Program.done_bind, hsame, if_false]
      have hchanged : changed c.apply t g ≠ g := fun h => hsame (congrArg StoredGroup.spec h)
      refine ⟨.replace hx hchanged (by omega), fun a => ?_⟩
      cases a with
      | ok written => exact .written
      | error e =>
        have hlooked : attempts .replace (.told t :: x :: before) = attempts .replace before := by
          rw [attempts_cons_of_none rfl, attempts_replace_cons (call?_ne_replace hx)]
        have hrefused (h : List Exchange) (g : StoredGroup) :
            attempts .replace (.failed (.replace g) e :: h) = attempts .replace h + 1 :=
          attempts_cons_self rfl
        exact ⟨_, _, rfl, (hrefused (.told t :: x :: before) _).trans (by omega)⟩

variable {g : StoredGroup} {e : StoreError}

/-- A change whose last attempt was refused ends. -/
theorem ends_refused (hlast : attempts .replace (.failed (.replace g) e :: h) = p.attempts) :
    Ends p c (.failed (.replace g) e :: h) (.error (lastRefusal c.name p.attempts e)) := by
  cases e with
  | conflict name => exact .exhausted hlast
  | notFound name => exact .failed (fun _ => hlast) nofun nofun
  | alreadyExists name => exact .failed (fun _ => hlast) nofun nofun
  | transient text => exact .failed (fun _ => hlast) nofun nofun
  | serialization text => exact .failed (fun _ => hlast) nofun nofun
  | other text => exact .failed (fun _ => hlast) nofun nofun

/-- After a conflict the change begins anew at once. -/
theorem ready_conflicted {name : String}
    (hcount : attempts .replace (.failed (.replace g) (.conflict name) :: h) = attempt)
    (hleft : attempt < p.attempts) :
    Ready p c (attempt + 1) (.failed (.replace g) (.conflict name) :: h) where
  next := .readConflicted (by omega)
  unread := attempts_cons_of_ne nofun rfl nofun
  unraced := not_raced_failed_replace
  replaces := by omega
  left := hleft

/-- After a passing failure it begins anew after a pause. -/
theorem ready_paused {milliseconds : Nat} (he : e.isRetryable)
    (hcount : attempts .replace (.failed (.replace g) e :: h) = attempt)
    (hleft : attempt < p.attempts) :
    Ready p c (attempt + 1) (.paused milliseconds :: .failed (.replace g) e :: h) where
  next := .again he (hcount ▸ hleft)
  unread := (attempts_cons_of_none rfl).trans (attempts_cons_of_ne nofun rfl nofun)
  unraced := mt (raced_cons (.inl rfl)).mp not_raced_failed_replace
  replaces := by rw [attempts_cons_of_none rfl, hcount]
  left := hleft

/-- By induction on the attempts that are left. A refused attempt has made one more replacement
fail, and the change begins anew. -/
theorem modifyFrom_lawful (left : Nat) (hready : Ready p c attempt h)
    (hleft : attempt + left = p.attempts) :
    (modifyFrom p c.name c.createAs c.apply attempt left).Obeys (law p c) (Ends p c) h := by
  induction left generalizing attempt h with
  | zero =>
    refine (attemptOnce_lawful hready).bind ?_
    rintro m (result | e) hattempted
    · exact hattempted
    · obtain ⟨g, before, rfl, hcount⟩ := hattempted
      obtain rfl : attempt = p.attempts := hleft
      exact ends_refused hcount
  | succ left ih =>
    refine (attemptOnce_lawful hready).bind ?_
    rintro m (result | e) hattempted
    · exact hattempted
    · obtain ⟨g, before, rfl, hcount⟩ := hattempted
      have hmore : attempt < p.attempts := by omega
      have hnext : attempt + 1 + left = p.attempts := by omega
      cases e with
      | conflict name => exact ih (ready_conflicted hcount hmore) hnext
      | transient text =>
        obtain rfl : attempts (StoreRequest.replace g).call
            (.failed (.replace g) (.transient text) :: before) = attempt := hcount
        exact ⟨.pause rfl hmore, fun _ => ih (ready_paused rfl rfl hmore) hnext⟩
      | notFound name => exact .failed nofun nofun nofun
      | alreadyExists name => exact .failed nofun nofun nofun
      | serialization text => exact .failed nofun nofun nofun
      | other text => exact .failed nofun nofun nofun

theorem modify_lawful (p : RetryPolicy) (c : GroupChange) :
    (modify p c.name c.createAs c.apply).Obeys (law p c) (Ends p c) [] :=
  modifyFrom_lawful p.retries (ready_start p c) (by have := p.retries_add_one; omega)

/-- A change asks for what its history lets it ask for, and ends as it lets it end, whatever
the answers are. -/
theorem program_lawful (p : RetryPolicy) (c : GroupChange) :
    (c.program p).Obeys (law p c) (Ends p c) [] := by
  cases c with
  | remove name key ended => exact modify_lawful p (.remove name key ended)
  | upsert name type key usage =>
    have hmodify := modify_lawful p (.upsert name type key usage)
    refine (hmodify.bind ?_ : (Aggregator.upsert p name type key usage).Obeys _
      (fun m a => Ends p (.upsert name type key usage) m (a.map some)) []).bind ?_
    · rintro m (e | _ | g) hends
      · exact hends
      · cases hends with
        | absent hcreate => cases hcreate
      · exact hends
    · rintro m (e | g) hends
      · exact hends
      · exact hends

end GroupChange

end Chargeback
