import Chargeback.Payload
import Chargeback.Program
import Chargeback.Store.Error
import Chargeback.Subscriber

/-!
# Upload cycles

A cycle posts what is buffered to the first subscriber, batch by batch and the
oldest payloads first. A batch is removed from the buffer only after the
subscriber has answered 200; any other answer ends the cycle and leaves the
batch where it is, so that a later cycle sends it again. Between batches a cycle
can be stopped.

## Main definitions

* `UploadError`: why a batch was not exported.
* `UploadOutcome`: how a cycle ended.
* `UploadRequest`: what a cycle asks for.
* `Cycle`, `Cycle.step`: where a cycle stands, and what it does next.
-/

namespace Chargeback

/-- Why a batch was not exported. -/
inductive UploadError where
  | store (e : StoreError)
  /-- The subscriber answered something else than 200. -/
  | status (code : Nat)
  /-- The subscriber could not be reached, or gave no answer. -/
  | transport
deriving DecidableEq, Repr

namespace UploadError

/-- The text of a failure. -/
def message : UploadError → String
  | store e => e.message
  | status code => "subscriber responded with status " ++ toString code
  | transport => "subscriber request failed"

end UploadError

/-- How a cycle ended, with the number of payloads that were exported. -/
inductive UploadOutcome where
  | noSubscriber
  /-- Nothing was left to export. -/
  | drained (exported : Nat)
  | failed (exported : Nat) (error : UploadError)
  /-- The cycle was told to stop. -/
  | stopped (exported : Nat)
deriving DecidableEq, Repr

namespace UploadOutcome

/-- The name of an outcome. -/
def name : UploadOutcome → String
  | noSubscriber => "NoSubscriber"
  | drained _ => "Drained"
  | failed .. => "Failed"
  | stopped _ => "Stopped"

/-- The number of payloads that were exported, if there was a subscriber. -/
def exported? : UploadOutcome → Option Nat
  | noSubscriber => none
  | drained n => some n
  | failed n _ => some n
  | stopped n => some n

/-- The failure of a cycle that failed. -/
def error? : UploadOutcome → Option UploadError
  | failed _ e => some e
  | _ => none

end UploadOutcome

/-- What a cycle asks for. -/
inductive UploadRequest where
  /-- Show how much is buffered. -/
  | showBuffered
  | subscribers
  /-- Ask whether the cycle is to stop. -/
  | stopping
  /-- Read up to `n` of the oldest payloads. -/
  | read (n : Nat)
  /-- Post a batch to a subscriber. -/
  | post (s : Subscriber) (batch : List Payload)
  /-- Remove the `n` oldest payloads, which a subscriber took. -/
  | commit (s : Subscriber) (n : Nat)
  /-- Report a failure, under the name of the subscriber if there is one. -/
  | reportFailure (subscriber : String) (e : UploadError)

/-- The interface of cycles. A post is answered by a status, if at all, and a
removal by the number of payloads that were removed. -/
abbrev UploadInterface : Interface where
  Request := UploadRequest
  Answer
    | .showBuffered => Unit
    | .subscribers => Except StoreError (List Subscriber)
    | .stopping => Bool
    | .read _ => List Payload
    | .post .. => Option Nat
    | .commit .. => Nat
    | .reportFailure .. => Unit

/-- Where a cycle stands. -/
inductive Cycle where
  | start
  | resolving
  /-- Between two batches. -/
  | between (s : Subscriber) (exported : Nat)
  | reading (s : Subscriber) (exported : Nat)
  | posting (s : Subscriber) (exported : Nat) (batch : List Payload)
  | committing (s : Subscriber) (exported : Nat) (n : Nat)
  | failing (subscriber : String) (exported : Nat) (e : UploadError)
  | ended (outcome : UploadOutcome)
deriving DecidableEq

namespace Cycle

/-- Where a cycle goes on once it knows the subscribers. -/
def resolved : Except StoreError (List Subscriber) → Cycle
  | .ok [] => ended .noSubscriber
  | .ok (s :: _) => between s 0
  | .error e => failing "" 0 (.store e)

/-- Where a cycle goes on with a batch. -/
def batchRead (s : Subscriber) (exported : Nat) (batch : List Payload) : Cycle :=
  if batch.isEmpty then ended (.drained exported) else posting s exported batch

/-- Where a cycle goes on when a batch has been answered. -/
def answered (s : Subscriber) (exported : Nat) (batch : List Payload) : Option Nat → Cycle
  | some code =>
    if code = 200 then committing s exported batch.length
    else failing s.name exported (.status code)
  | none => failing s.name exported .transport

/-- What a cycle with batches of a given size does next. -/
def step (batchSize : Nat) : Cycle → Step UploadInterface Cycle UploadOutcome
  | start => .call .showBuffered fun () => resolving
  | resolving => .call .subscribers resolved
  | between s exported =>
    .call .stopping fun stop => if stop then ended (.stopped exported) else reading s exported
  | reading s exported => .call (.read batchSize) (batchRead s exported)
  | posting s exported batch => .call (.post s batch) (answered s exported batch)
  | committing s exported n =>
    .call (.commit s n) fun removed => between s (exported + removed)
  | failing name exported e =>
    .call (.reportFailure name e) fun () => ended (.failed exported e)
  | ended outcome => .done outcome

/-- The number of steps that suffice for a cycle while `n` payloads are buffered and
no further ones arrive: four for each batch of at least one payload, and five at
the beginning and at the end. -/
def stepsFor (n : Nat) : Nat := 4 * n + 5

/-- A cycle with batches of a given size over a buffer of `n` payloads to which
nobody adds. -/
def program (batchSize n : Nat) : Program UploadInterface (Option UploadOutcome) :=
  Step.program (step batchSize) (stepsFor n) start

end Cycle

end Chargeback
