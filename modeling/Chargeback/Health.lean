import Chargeback.Json.Record
import Chargeback.Json.Writing

/-!
# Health reports

The stages of the pipeline report how they do. All reports together give one
overall status, the worst of them. Readiness asks less: only the stages that keep
group records correct can make the program unready, since exports wait in the
buffer while their endpoint is away.

## Main definitions

* `Component.Health`: the last report of a stage.
* `HealthRegistry`: the reports of all stages, and whether the start is done.
* `HealthReport`: what a stage says about itself.
* `HealthRegistry.overall`, `HealthRegistry.readiness`: the two summaries.
-/

namespace Chargeback

/-- How a stage does. -/
inductive Status where
  | healthy
  /-- Retrying, dropping or lagging, but still moving events. -/
  | degraded
  | unhealthy
deriving DecidableEq, Repr, Inhabited

namespace Status

/-- The name of a status. -/
def name : Status → String
  | healthy => "healthy"
  | degraded => "degraded"
  | unhealthy => "unhealthy"

/-- The stage still works, if perhaps not well. -/
def isOperational (s : Status) : Bool := s ≠ unhealthy

/-- The rank of a status; the worst one has the highest. -/
def severity : Status → Nat
  | healthy => 0
  | degraded => 1
  | unhealthy => 2

/-- The worse of two statuses. -/
def worse (a b : Status) : Status := if a.severity ≤ b.severity then b else a

/-- The status that a JSON value names. -/
def ofJson? : Json → Option Status :=
  Json.word? ([healthy, degraded, unhealthy].map fun s => (s.name, s))

end Status

namespace Component

/-- The stage that handles events and keeps groups. -/
def reconciler : String := "reconciler"

/-- The stage that delivers buffered payloads. -/
def uploader : String := "uploader"

/-- The reads and writes of group records. -/
def groupStore : String := "group_store"

/-- The buffer between handling and delivery. -/
def buffer : String := "buffer"

/-- The stages that group records depend on. -/
def critical : List String := [reconciler, groupStore]

/-- The last report of a stage. -/
structure Health where
  status : Status
  message : Option String := none
  /-- Unix seconds of the report. -/
  lastCheck : Int
  /-- Unix seconds at which the stage entered its status. -/
  since : Int
deriving DecidableEq, Repr, Inhabited

namespace Health

/-- A report made at a given time. -/
def report (status : Status) (message : Option String) (now : Int) : Health :=
  { status, message, lastCheck := now, since := now }

/-- A report as a JSON value. -/
def toJson (h : Health) : Json :=
  Json.record
    [("status", some (.string h.status.name)), ("message", h.message.map Json.string),
      ("last_check_timestamp", some (.integer h.lastCheck)),
      ("since_timestamp", some (.integer h.since))]

/-- The report of a JSON value. -/
def ofJson? (j : Json) : Option Health := do
  let r ← Json.record? ["status", "message", "last_check_timestamp", "since_timestamp"] j
  some
    { status := ← r.required? "status" Status.ofJson?
      message := ← r.optionalByName? "message" Json.text?
      lastCheck := ← r.required? "last_check_timestamp" Json.signed?
      since := ← r.required? "since_timestamp" Json.signed? }

end Health

end Component

/-- What a stage says about itself while it runs. -/
inductive HealthReport where
  | healthy (component : String)
  | degraded (component message : String)
deriving DecidableEq, Repr

/-- Whether the program can serve, and why not. -/
structure Readiness where
  ready : Bool
  reason : Option String := none
deriving DecidableEq, Repr

namespace Readiness

/-- A readiness as a JSON value. -/
def toJson (r : Readiness) : Json :=
  Json.record [("ready", some (.bool r.ready)), ("reason", r.reason.map Json.string)]

/-- The readiness of a JSON value. -/
def ofJson? (j : Json) : Option Readiness := do
  let r ← Json.record? ["ready", "reason"] j
  some
    { ready := ← r.required? "ready" Json.bool?
      reason := ← r.optionalByName? "reason" Json.text? }

end Readiness

/-- The last reports of all stages, and whether the start is done. -/
structure HealthRegistry where
  components : KeyMap Component.Health := .empty
  ready : Bool := false
deriving DecidableEq, Inhabited

namespace HealthRegistry

/-- Enter a stage as healthy from now on. -/
def register (r : HealthRegistry) (name : String) (now : Int) : HealthRegistry :=
  { r with components := r.components.insert name (.report .healthy none now) }

/-- Record a report. A repeated status keeps the time at which it was entered. -/
def update (r : HealthRegistry) (name : String) (h : Component.Health) : HealthRegistry :=
  let since :=
    match r.components.get? name with
    | some previous => if previous.status = h.status then previous.since else h.since
    | none => h.since
  { r with components := r.components.insert name { h with since } }

/-- Report a stage as healthy. -/
def setHealthy (r : HealthRegistry) (name : String) (now : Int) : HealthRegistry :=
  r.update name (.report .healthy none now)

/-- Report a stage as degraded. -/
def setDegraded (r : HealthRegistry) (name message : String) (now : Int) : HealthRegistry :=
  r.update name (.report .degraded (some message) now)

/-- Report a stage as unhealthy. -/
def setUnhealthy (r : HealthRegistry) (name message : String) (now : Int) : HealthRegistry :=
  r.update name (.report .unhealthy (some message) now)

/-- Report a stage in a status; a healthy one has no message. -/
def set (r : HealthRegistry) (name : String) (status : Status) (message : String) (now : Int) :
    HealthRegistry :=
  match status with
  | .healthy => r.setHealthy name now
  | .degraded => r.setDegraded name message now
  | .unhealthy => r.setUnhealthy name message now

/-- Record what a stage says about itself. -/
def apply (r : HealthRegistry) (now : Int) : HealthReport → HealthRegistry
  | .healthy name => r.setHealthy name now
  | .degraded name message => r.setDegraded name message now

/-- Record several reports in their order. -/
def applyAll (r : HealthRegistry) (now : Int) (reports : List HealthReport) : HealthRegistry :=
  reports.foldl (fun r report => r.apply now report) r

/-- Say whether the start is done. -/
def setReady (r : HealthRegistry) (ready : Bool) : HealthRegistry := { r with ready }

/-- The status of a stage that has reported. -/
def statusOf? (r : HealthRegistry) (name : String) : Option Status :=
  (r.components.get? name).map Component.Health.status

/-- The worst status of all stages; healthy when none has reported. -/
def overall (r : HealthRegistry) : Status :=
  (r.components.values.map Component.Health.status).foldl Status.worse .healthy

/-- The first critical stage that does not work, with its message. -/
def failedCritical? (r : HealthRegistry) : Option (String × Option String) :=
  Component.critical.findSome? fun name =>
    match r.components.get? name with
    | some h => if h.status.isOperational then none else some (name, h.message)
    | none => none

/-- The program is ready when its start is done and no critical stage is
unhealthy. -/
def readiness (r : HealthRegistry) : Readiness :=
  if !r.ready then { ready := false, reason := some "Controller not yet initialized" }
  else
    match r.failedCritical? with
    | none => { ready := true }
    | some (name, some message) =>
      { ready := false, reason := some (name ++ " unhealthy: " ++ message) }
    | some (name, none) => { ready := false, reason := some (name ++ " unhealthy") }

/-- Overall status and all reports as a JSON value. -/
def toJson (r : HealthRegistry) : Json :=
  .object
    [("status", .string r.overall.name),
      ("components", Json.ofMap Component.Health.toJson r.components)]

end HealthRegistry

end Chargeback
