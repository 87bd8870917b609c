import Chargeback.Health
import Chargeback.Upload.Cycle
import Chargeback.Upload.Schedule

/-!
# The upload loop

Cycle follows cycle, with a pause in between, until the loop is told to stop. The
loop reports its own stage as degraded while cycles fail, and the buffer as
degraded while payloads are dropped, and it pauses the longer the more cycles
have failed in a row.

## Main definitions

* `UploadLoop`: what the loop remembers from cycle to cycle.
* `UploadLoop.afterCycle`: what the loop reports after a cycle.
* `UploadLoop.observe`: the loop and its reports after a cycle; nothing when the
  cycle was stopped.
-/

namespace Chargeback

/-- What the loop remembers from cycle to cycle. -/
structure UploadLoop where
  /-- How many cycles have failed in a row. -/
  failures : Nat := 0
  /-- How many payloads had been dropped at the last check. -/
  droppedSeen : Nat
  uploaderDegraded : Bool := false
  bufferDegraded : Bool := false
deriving DecidableEq, Repr

namespace UploadLoop

/-- The loop before its first cycle, when a number of payloads has been dropped. -/
def start (dropped : Nat) : UploadLoop := { droppedSeen := dropped }

/-- The message about dropped payloads. -/
def droppedMessage (n : Nat) : String := toString n ++ " payloads dropped since last cycle"

/-- Count a cycle, and report the loop's own stage. -/
def countCycle (l : UploadLoop) (failure : Option UploadError) :
    List HealthReport × UploadLoop :=
  match failure with
  | some e =>
    ([.degraded Component.uploader e.message],
      { l with failures := min (l.failures + 1) (UInt32.size - 1), uploaderDegraded := true })
  | none =>
    (if l.uploaderDegraded then [.healthy Component.uploader] else [],
      { l with failures := 0, uploaderDegraded := false })

/-- Compare the number of dropped payloads with that of the last check, and report
the buffer. -/
def checkDropped (l : UploadLoop) (dropped : Nat) : List HealthReport × UploadLoop :=
  if l.droppedSeen < dropped then
    ([.degraded Component.buffer (droppedMessage (dropped - l.droppedSeen))],
      { l with droppedSeen := dropped, bufferDegraded := true })
  else
    (if l.bufferDegraded then [.healthy Component.buffer] else [],
      { l with droppedSeen := dropped, bufferDegraded := false })

/-- The reports after a cycle that was not stopped, and the loop then. -/
def afterCycle (l : UploadLoop) (failure : Option UploadError) (dropped : Nat) :
    List HealthReport × UploadLoop :=
  let (first, l) := l.countCycle failure
  let (second, l) := l.checkDropped dropped
  (first ++ second, l)

/-- The reports after a cycle and the loop then, when `dropped` payloads have been
dropped in all; nothing when the cycle was stopped, which ends the loop. -/
def observe (l : UploadLoop) (outcome : UploadOutcome) (dropped : Nat) :
    Option (List HealthReport × UploadLoop) :=
  match outcome with
  | .stopped _ => none
  | outcome => some (l.afterCycle outcome.error? dropped)

/-- The pause that follows, at a given time. -/
def pause (l : UploadLoop) (settings : UploadSettings) (now : Instant) : Nat :=
  settings.pause l.failures now

end UploadLoop

end Chargeback
