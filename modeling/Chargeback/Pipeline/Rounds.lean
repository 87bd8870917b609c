import Chargeback.Pipeline.Basic
import Chargeback.Upload.Loop

/-!
# Rounds of the upload loop

A run of the upload loop in which it is given what happens in every round: which
payloads arrive, how many leave the buffer, whether the loop is told to stop, and
what the store of subscribers answers. No post arrives anywhere.

## Main definitions

* `Round`: what happens in a round.
* `UploadRun`: a run of the loop at the beginning of a round.
* `UploadRun.play`: the run over several rounds, with all moments at which a round
  began.
-/

namespace Chargeback

/-- What happens in a round of the upload loop, once it asks for subscribers. -/
structure Round where
  arriving : List Payload := []
  /-- How many payloads leave the buffer after the others have arrived. -/
  leaving : Nat := 0
  /-- The loop is told to stop. -/
  stops : Bool := false
  subscribers : Except StoreError (List Subscriber) := .ok []

namespace Round

/-- The round that ends a run. -/
def last : Round := { stops := true }

/-- Let payloads arrive and leave. -/
def prepare (round : Round) (p : Pipeline) : Pipeline :=
  let p := round.arriving.foldl (fun p payload => (p.enqueue payload).2) p
  { p with buffer := (p.buffer.removeN round.leaving).2 }

/-- The answer to a request of the round's cycle. -/
def answer (round : Round) : (r : UploadRequest) → Pipeline →
    UploadInterface.Answer r × Pipeline
  | .showBuffered, p => ((), p.showBuffered)
  | .subscribers, p => (round.subscribers, round.prepare p)
  | .stopping, p => (round.stops, p)
  | .read n, p => (p.buffer.readN n, p)
  | .post .., p => (none, p)
  | .commit s n, p => p.commit s n
  | .reportFailure name e, p => ((), p.uploadFailed name e)

/-- The cycle of a round. -/
def cycle (round : Round) (batchSize : Nat) (p : Pipeline) : UploadOutcome × Pipeline :=
  let (outcome, p) :=
    (Cycle.program batchSize (p.buffer.len + round.arriving.length)).run round.answer p
  (outcome.getD (.stopped 0), p)

end Round

/-- A moment of a run: milliseconds since its start, the buffer, and the health. -/
structure UploadMoment where
  elapsed : Nat
  buffer : Ring.Stats
  health : HealthRegistry

/-- A run of the upload loop at the beginning of a round. -/
structure UploadRun where
  settings : UploadSettings
  pipeline : Pipeline
  loop : UploadLoop
  /-- Milliseconds since the start of the run. -/
  elapsed : Nat := 0

namespace UploadRun

/-- The start of a run. -/
def start (settings : UploadSettings) (p : Pipeline) : UploadRun :=
  { settings, pipeline := p, loop := .start p.buffer.dropped }

/-- How a run stands. -/
def moment (run : UploadRun) : UploadMoment where
  elapsed := run.elapsed
  buffer := run.pipeline.buffer.stats
  health := run.pipeline.health

/-- A round without the pause after it; the flag tells whether the loop goes on. -/
def round (run : UploadRun) (r : Round) : Bool × UploadRun :=
  let (outcome, p) := r.cycle run.settings.batchSize run.pipeline
  match run.loop.observe outcome p.buffer.dropped with
  | none => (false, { run with pipeline := p })
  | some (reports, loop) => (!r.stops, { run with pipeline := p.reportHealth reports, loop })

/-- The pause after a round. -/
def rest (run : UploadRun) : UploadRun :=
  { run with elapsed := run.elapsed + run.loop.pause run.settings run.pipeline.now }

/-- The rounds of a run until it stops, with the moments at which they began. -/
def play : UploadRun → List Round → List UploadMoment × UploadRun
  | run, [] => ([], run)
  | run, r :: rest =>
    let (goesOn, after) := run.round r
    if goesOn then
      let (moments, final) := play after.rest rest
      (run.moment :: moments, final)
    else ([run.moment], after)

end UploadRun

end Chargeback
