import Chargeback.Reconciler.Event
import Chargeback.Reconciler.Policy

/-!
# Workers

A worker handles one event after another. A failed event is counted and given
up; the worker then reports the stage that failed as degraded, and reports it as
healthy again after the next event that does not fail. A panic ends the worker, and
it reports nothing more.

## Main definitions

* `Worker`: the stage that the worker has reported as degraded, and whether it has ended.
* `Worker.report`: what a worker reports when an event has been handled.
-/

namespace Chargeback

/-- A worker, with the stage that it has reported as degraded. -/
structure Worker where
  degraded : Option String := none
  /-- The worker has panicked, and takes no more events. -/
  ended : Bool := false
deriving DecidableEq, Repr, Inhabited

namespace Worker

/-- What a worker reports when an event has been handled, and the worker
afterwards. -/
def report (w : Worker) : Except ReconcileError Handler → List HealthReport × Worker
  | .ok _ => ((w.degraded.map HealthReport.healthy).toList, { w with degraded := none })
  | .error e =>
    match e.component? with
    | none => ([], { w with ended := true })
    | some component =>
      let recovered := w.degraded.filter (· ≠ component)
      ((recovered.map HealthReport.healthy).toList ++ [.degraded component e.message],
        { w with degraded := some component })

end Worker

end Chargeback
