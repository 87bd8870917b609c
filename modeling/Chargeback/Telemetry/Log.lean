import Chargeback.Json.Basic
import Chargeback.Text.Quoted

/-!
# Log events

What the program reports about itself while it runs: its start and its end, what
it exported, what it could not export, and what it had to drop. Every event
carries the name of the cluster.

## Main definitions

* `LogEvent`: the events.
* `LogEvent.toJson`: an event with its level, its message and its fields.
-/

namespace Chargeback

/-- An event that the program reports about itself. -/
inductive LogEvent where
  | started (version : String) (kinds : List String)
  | shutdown (reason : String)
  /-- A subscriber took a batch. -/
  | batchExported (subscriber : String) (count remaining : Nat)
  /-- A batch could not be exported and stays in the buffer. -/
  | exportFailed (subscriber error : String) (buffered : Nat)
  /-- The buffer was full. -/
  | eventDropped (kind key : String) (dropped : Nat)
deriving DecidableEq, Repr

namespace LogEvent

/-- The event tells of something that went wrong. -/
def isWarning : LogEvent → Bool
  | exportFailed .. | eventDropped .. => true
  | _ => false

/-- The level of an event. -/
def level (e : LogEvent) : String := if e.isWarning then "WARN" else "INFO"

/-- The name of an event. -/
def name : LogEvent → String
  | started .. => "controller_started"
  | shutdown .. => "controller_shutdown"
  | batchExported .. => "batch_exported"
  | exportFailed .. => "export_failed"
  | eventDropped .. => "event_dropped"

/-- The message of an event. -/
def message : LogEvent → String
  | started .. => "Cost controller started"
  | shutdown .. => "Cost controller shutting down"
  | batchExported .. => "Exported payload batch"
  | exportFailed .. => "Export failed, keeping batch buffered"
  | eventDropped .. => "Buffer full, dropping payload"

/-- The fields of an event. -/
def fields : LogEvent → List (String × Json)
  | started version kinds =>
    [("controller_version", .string version), ("watched_kinds", .string (Text.quoteAll kinds))]
  | shutdown reason => [("reason", .string reason)]
  | batchExported subscriber count remaining =>
    [("subscriber", .string subscriber), ("count", .natural count),
      ("remaining", .natural remaining)]
  | exportFailed subscriber error buffered =>
    [("subscriber", .string subscriber), ("error", .string error),
      ("buffered", .natural buffered)]
  | eventDropped kind key dropped =>
    [("kind", .string kind), ("key", .string key), ("dropped_total", .natural dropped)]

/-- An event of a cluster as a JSON value. -/
def toJson (cluster : String) (e : LogEvent) : Json :=
  .object
    (("level", .string e.level) :: ("event", .string e.name) :: ("cluster", .string cluster) ::
      ("message", .string e.message) :: e.fields)

end LogEvent

end Chargeback
