import Chargeback.Buffer.Ring
import Chargeback.Inventory.Tracking
import Chargeback.Reconciler.Handle
import Chargeback.Reconciler.Worker
import Chargeback.Store.Script
import Chargeback.Telemetry.Log
import Chargeback.Telemetry.Metrics
import Chargeback.Upload.Cycle
import Chargeback.Upload.Endpoint

/-!
# The pipeline

All parts of the program in one state: the store, the buffer, the inventory, the
metrics and the health reports. The programs of the other modules run against it,
and it answers their requests.

## Main definitions

* `PipelineSettings`, `Pipeline`: the state.
* `Pipeline.enqueue`: the offer of a payload to the buffer.
* `Pipeline.onGroups`, `Pipeline.handle`, `Pipeline.work`, `Pipeline.upload`: the
  runs of programs on groups, of events and of upload cycles.
-/

namespace Chargeback

/-- The settings of a pipeline. -/
structure PipelineSettings where
  capacity : Nat := Ring.defaultCapacity
  cluster : String := "unknown"
  reconciler : Reconciler := {}
  engine : CostEngine := .default

/-- Why a pipeline could not be put together. -/
inductive BuildError where
  | groupStoreMissing
  | subscriberStoreMissing
deriving DecidableEq, Repr

namespace BuildError

/-- The text of a failure. -/
def message : BuildError → String
  | groupStoreMissing => "Group store is required"
  | subscriberStoreMissing => "Subscriber store is required"

end BuildError

/-- The state of a pipeline. -/
structure Pipeline where
  settings : PipelineSettings
  /-- What the clock shows. -/
  now : Instant
  store : ScriptedStore := {}
  buffer : Ring Payload
  inventory : Inventory := {}
  metrics : Metrics := {}
  health : HealthRegistry := {}
  /-- What has been logged, the last event first. -/
  log : List LogEvent := []
  worker : Worker := {}
  /-- Milliseconds spent in pauses. -/
  paused : Nat := 0

namespace Pipeline

/-- A pipeline at its start. -/
def new (settings : PipelineSettings) (now : Instant) : Pipeline :=
  { settings, now, buffer := .new settings.capacity }

/-- A pipeline at its start, if there are both a store of groups and a store of
subscribers. -/
def build (settings : PipelineSettings) (now : Instant) (groupStore subscriberStore : Bool) :
    Except BuildError Pipeline :=
  if !groupStore then .error .groupStoreMissing
  else if !subscriberStore then .error .subscriberStoreMissing
  else .ok (new settings now)

/-- Log an event. -/
def record (p : Pipeline) (e : LogEvent) : Pipeline := { p with log := e :: p.log }

/-- Record what stages report about themselves. -/
def reportHealth (p : Pipeline) (reports : List HealthReport) : Pipeline :=
  { p with health := p.health.applyAll p.now.seconds reports }

/-- Show how much is buffered. -/
def showBuffered (p : Pipeline) : Pipeline :=
  { p with metrics := p.metrics.setBufferItems p.buffer.len }

/-- Offer a payload to the buffer, and tell whether it was taken. A payload that is
not taken is counted and logged. -/
def enqueue (p : Pipeline) (payload : Payload) : Bool × Pipeline :=
  let (taken, buffer) := p.buffer.put payload
  let p := { p with buffer }
  let p :=
    if taken then p
    else
      { p with metrics := p.metrics.countDropped }.record
        (.eventDropped payload.kind.name payload.key buffer.dropped)
  (taken, p.showBuffered)

/-! ## Groups -/

/-- Count what came of the replacement of a group. -/
def countReplacement : Except StoreError StoredGroup → Metrics → Metrics
  | .ok _, m => m.countGroupUpdate
  | .error (.conflict _), m => m.countGroupConflict
  | .error _, m => m

/-- Count the answer to a call of the store. -/
def countAnswer : (r : StoreRequest) → r.Answer → Metrics → Metrics
  | .replace _, a, m => countReplacement a m
  | _, _, m => m

/-- The answer of the store to a call. -/
def answerStore (r : StoreRequest) (p : Pipeline) : r.Answer × Pipeline :=
  let (a, store) := p.store.answer r
  (a, { p with store, metrics := countAnswer r a p.metrics })

/-- The answer to a request of a program on groups. -/
def answerGroup : (r : AggregatorRequest) → Pipeline → AggregatorInterface.Answer r × Pipeline
  | .store r, p => p.answerStore r
  | .pause n, p => ((), { p with paused := p.paused + n })
  | .clock, p => (p.now, p)

/-- Run a program on groups. -/
def onGroups {α : Type} (p : Pipeline) (program : GroupProgram α) : α × Pipeline :=
  program.run answerGroup p

/-! ## Events -/

/-- The answer to a request of the handling of an event. -/
def answer : (r : ReconcilerRequest) → Pipeline → ReconcilerInterface.Answer r × Pipeline
  | .track action object, p => ((), { p with inventory := p.inventory.track action object })
  | .countEvent kind action, p =>
    ((), { p with metrics := p.metrics.countEvent kind.name action.name })
  | .offer payload, p => ((), (p.enqueue payload).2)
  | .claimedBytes keys, p => (p.inventory.claimedBytes keys, p)
  | .group r, p => answerGroup r p

/-- Handle an event. -/
def handle (p : Pipeline) (e : ResourceEvent) : Except ReconcileError Handler × Pipeline :=
  (p.settings.reconciler.handle e).run answer p

/-- Count an event that could not be handled. A panic is not counted. -/
def countFailure (p : Pipeline) (kind : ResourceKind) :
    Except ReconcileError Handler → Pipeline
  | .ok _ => p
  | .error .storageOverflow => p
  | .error _ => { p with metrics := p.metrics.countReconcileError kind.name }

/-- Let the worker handle an event and report how it went. A worker that has ended does
nothing more, and its panic stays the result. -/
def work (p : Pipeline) (e : ResourceEvent) : Except ReconcileError Handler × Pipeline :=
  if p.worker.ended then (.error .storageOverflow, p)
  else
    let (result, p) := p.handle e
    let p := p.countFailure e.kind result
    let (reports, worker) := p.worker.report result
    (result, { p with worker }.reportHealth reports)

/-- End the worker; the next event is given to a new one. -/
def endWorker (p : Pipeline) : Pipeline := { p with worker := {} }

/-! ## Uploads -/

/-- Remove payloads that a subscriber took, and tell how many there were. -/
def commit (p : Pipeline) (s : Subscriber) (n : Nat) : Nat × Pipeline :=
  let (removed, buffer) := p.buffer.removeN n
  let p := { p with buffer, metrics := p.metrics.countExported removed }.showBuffered
  (removed, p.record (.batchExported s.name removed buffer.len))

/-- Count and log a batch that was not exported. -/
def uploadFailed (p : Pipeline) (subscriber : String) (e : UploadError) : Pipeline :=
  { p with metrics := p.metrics.countUploadFailure }.record
    (.exportFailed subscriber e.message p.buffer.len)

/-- The answer to a request of an upload cycle, when posts go to an endpoint and
nothing stops the cycle. -/
def answerUpload : (r : UploadRequest) → Pipeline × Endpoint →
    UploadInterface.Answer r × Pipeline × Endpoint
  | .showBuffered, (p, e) => ((), p.showBuffered, e)
  | .subscribers, (p, e) =>
    let (a, store) := p.store.listSubscribers
    (a, { p with store }, e)
  | .stopping, s => (false, s)
  | .read n, (p, e) => (p.buffer.readN n, p, e)
  | .post s batch, (p, e) =>
    let (a, e) := e.post s batch
    (a, p, e)
  | .commit s n, (p, e) =>
    let (removed, p) := p.commit s n
    (removed, p, e)
  | .reportFailure name failure, (p, e) => ((), p.uploadFailed name failure, e)

/-- Run an upload cycle with batches of a given size. Nobody else adds to the buffer
meanwhile, so that the cycle comes to its end. -/
def upload (p : Pipeline) (batchSize : Nat) (e : Endpoint) :
    UploadOutcome × Pipeline × Endpoint :=
  let (outcome, after) := (Cycle.program batchSize p.buffer.len).run answerUpload (p, e)
  (outcome.getD (.stopped 0), after)

end Pipeline

end Chargeback
