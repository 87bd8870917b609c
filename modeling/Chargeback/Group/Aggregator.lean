import Chargeback.Program
import Chargeback.Store.Request
import Chargeback.Time.Month

/-!
# Writing groups

Groups are read, changed and written back. A write that meets a conflict reads
again and applies its change to what it finds then; a call that fails for a
passing reason is repeated after a pause; both only as often as the attempts
allow. Groups come into being when they are first needed. A change that leaves
the record as it is writes nothing.

## Main definitions

* `RetryPolicy`: the number of attempts and the pauses between them.
* `Aggregator.get`, `Aggregator.getOrCreate`, `Aggregator.selectorGroups`: reads.
* `Aggregator.upsert`, `Aggregator.remove`: the two changes of a membership.
-/

namespace Chargeback

/-- How often calls are attempted, and how long the pauses are in milliseconds. -/
structure RetryPolicy where
  maxAttempts : Nat := 5
  baseDelay : Nat := 100
  maxDelay : Nat := 5000
deriving DecidableEq, Repr

namespace RetryPolicy

/-- The pause after an attempt, the first one having number one. It doubles from
attempt to attempt, as far as a word of 32 bits counts the doublings, and stops at
the longest pause. -/
def backoff (p : RetryPolicy) (attempt : Nat) : Nat :=
  min (p.baseDelay * min (Nat.pow 2 (attempt - 1)) (UInt32.size - 1)) p.maxDelay

/-- How many attempts may follow the first one. -/
def retries (p : RetryPolicy) : Nat := p.maxAttempts - 1

end RetryPolicy

/-- Why an operation on a group failed. -/
inductive AggregateError where
  | store (e : StoreError)
  | conflictRetriesExhausted (group : String) (attempts : Nat)
deriving DecidableEq, Repr, Inhabited

namespace AggregateError

/-- The text of a failure. -/
def message : AggregateError → String
  | store e => e.message
  | conflictRetriesExhausted group attempts =>
    "group " ++ group ++ " still conflicting after " ++ toString attempts ++ " attempts"

end AggregateError

/-- What an operation on a group asks for: calls of the store, pauses in
milliseconds, and the time. -/
inductive AggregatorRequest where
  | store (r : StoreRequest)
  | pause (milliseconds : Nat)
  | clock

/-- The interface of operations on groups. -/
abbrev AggregatorInterface : Interface where
  Request := AggregatorRequest
  Answer
    | .store r => r.Answer
    | .pause _ => Unit
    | .clock => Instant

/-- A program that works on groups. -/
abbrev GroupProgram := Program AggregatorInterface

namespace Aggregator

/-- Call the store once. -/
def store (r : StoreRequest) : GroupProgram r.Answer :=
  Program.ask (I := AggregatorInterface) (.store r)

/-- Wait for a number of milliseconds. -/
def pause (milliseconds : Nat) : GroupProgram Unit :=
  Program.ask (I := AggregatorInterface) (.pause milliseconds)

/-- Ask for the time. -/
def clock : GroupProgram Instant :=
  Program.ask (I := AggregatorInterface) .clock

/-! ## Repeated calls -/

/-- Call the store, and repeat the call after a pause while it fails for a
passing reason and attempts are left. -/
def retryFrom (p : RetryPolicy) (r : StoreRequest) (attempt : Nat) :
    Nat → GroupProgram r.Answer
  | 0 => store r
  | left + 1 => do
    match ← store r with
    | .ok a => pure (.ok a)
    | .error e =>
      if e.isRetryable then
        pause (p.backoff attempt)
        retryFrom p r (attempt + 1) left
      else pure (.error e)

/-- Call the store with all attempts that the policy allows. -/
def retrying (p : RetryPolicy) (r : StoreRequest) : GroupProgram r.Answer :=
  retryFrom p r 1 p.retries

/-! ## Reads -/

/-- Fetch a group. -/
def get (p : RetryPolicy) (name : String) :
    GroupProgram (Except AggregateError (Option StoredGroup)) := do
  match ← retrying p (.get name) with
  | .ok g => pure (.ok g)
  | .error e => pure (.error (.store e))

/-- Fetch a group that is known to be there. -/
def getExisting (p : RetryPolicy) (name : String) :
    GroupProgram (Except AggregateError StoredGroup) := do
  match ← get p name with
  | .ok (some g) => pure (.ok g)
  | .ok none => pure (.error (.store (.notFound name)))
  | .error e => pure (.error e)

/-- Fetch a group, and create it without members if there is none. When somebody
else creates it first, theirs is fetched. -/
def getOrCreate (p : RetryPolicy) (name : String) (type : GroupType) :
    GroupProgram (Except AggregateError StoredGroup) := do
  match ← get p name with
  | .error e => pure (.error e)
  | .ok (some g) => pure (.ok g)
  | .ok none =>
    match ← retrying p (.create (.new name (.new name type))) with
    | .ok g => pure (.ok g)
    | .error (.alreadyExists _) => getExisting p name
    | .error e => pure (.error (.store e))

/-- All groups that select their members by labels. -/
def selectorGroups (p : RetryPolicy) : GroupProgram (Except AggregateError (List StoredGroup)) := do
  match ← retrying p .list with
  | .ok gs => pure (.ok (gs.filter fun g => g.spec.type ≠ .byNamespace))
  | .error e => pure (.error (.store e))

/-! ## Writes -/

/-- What a single attempt at a change comes to. -/
inductive Attempt where
  | finished (result : Except AggregateError (Option StoredGroup))
  /-- The record was not written. -/
  | refused (e : StoreError)

/-- The record to change: created if a type is given and it is missing. -/
def current (p : RetryPolicy) (name : String) :
    Option GroupType → GroupProgram (Except AggregateError (Option StoredGroup))
  | some type => do
    match ← getOrCreate p name type with
    | .ok g => pure (.ok (some g))
    | .error e => pure (.error e)
  | none => get p name

/-- Read a group, change its record, forget the windows that ended before this
month, and write it back if it is another record then. -/
def attemptOnce (p : RetryPolicy) (name : String) (createAs : Option GroupType)
    (change : GroupSpec → GroupSpec) : GroupProgram Attempt := do
  match ← current p name createAs with
  | .error e => pure (.finished (.error e))
  | .ok none => pure (.finished (.ok none))
  | .ok (some g) =>
    let now ← clock
    let spec := (change g.spec).pruneActivity (Month.start now)
    if spec = g.spec then pure (.finished (.ok (some g)))
    else
      match ← store (.replace { g with spec }) with
      | .ok written => pure (.finished (.ok (some written)))
      | .error e => pure (.refused e)

/-- The failure of a change whose last attempt was refused. -/
def lastRefusal (name : String) (attempt : Nat) : StoreError → AggregateError
  | .conflict _ => .conflictRetriesExhausted name attempt
  | e => .store e

/-- Attempt a change, and attempt it again while it meets conflicts or passing
failures and attempts are left. Only a passing failure is followed by a pause. -/
def modifyFrom (p : RetryPolicy) (name : String) (createAs : Option GroupType)
    (change : GroupSpec → GroupSpec) (attempt : Nat) :
    Nat → GroupProgram (Except AggregateError (Option StoredGroup))
  | 0 => do
    match ← attemptOnce p name createAs change with
    | .finished result => pure result
    | .refused e => pure (.error (lastRefusal name attempt e))
  | left + 1 => do
    match ← attemptOnce p name createAs change with
    | .finished result => pure result
    | .refused (.conflict _) => modifyFrom p name createAs change (attempt + 1) left
    | .refused e =>
      if e.isRetryable then
        pause (p.backoff attempt)
        modifyFrom p name createAs change (attempt + 1) left
      else pure (.error (.store e))

/-- Change a group with all attempts that the policy allows. -/
def modify (p : RetryPolicy) (name : String) (createAs : Option GroupType)
    (change : GroupSpec → GroupSpec) :
    GroupProgram (Except AggregateError (Option StoredGroup)) :=
  modifyFrom p name createAs change 1 p.retries

/-- Give a member of a group a usage; the group is created if it is missing. -/
def upsert (p : RetryPolicy) (name : String) (type : GroupType) (key : String)
    (usage : MemberUsage) : GroupProgram (Except AggregateError StoredGroup) := do
  match ← modify p name (some type) (·.upsertMember key usage) with
  | .ok (some g) => pure (.ok g)
  | .ok none => pure (.error (.store (.notFound name)))
  | .error e => pure (.error e)

/-- Take a member out of a group if the group is there. -/
def remove (p : RetryPolicy) (name key : String) (ended : Instant) :
    GroupProgram (Except AggregateError (Option StoredGroup)) :=
  modify p name none (·.removeMember key ended)

end Aggregator

end Chargeback
