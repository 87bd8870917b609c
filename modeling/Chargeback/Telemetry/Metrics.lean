import Chargeback.Decimal.Shortest
import Chargeback.KeyMap

/-!
# Metrics

Counters of what the pipeline did, a gauge of what waits in the buffer and a
histogram of how long uploads took, together with their text in the exposition
format: families in the order of their names, samples in the order of their
labels. A family with labels appears once one of its samples has been touched.

## Main definitions

* `Metrics`: the values.
* `Metrics.families`: the values as families of samples.
* `Metrics.Family.lines`, `Metrics.Sample.line`: their text.
-/

namespace Chargeback

/-- How long uploads took. -/
structure Latency where
  /-- For each bound the number of uploads that took at most as long, and longer
  than the bound before it. -/
  buckets : List Nat
  sum : Float := 0.0
  count : Nat := 0

namespace Latency

/-- The bounds of the histogram, in seconds. -/
def bounds : List Float :=
  [0.005, 0.01, 0.025, 0.05, 0.1, 0.25, 0.5, 1.0, 2.5, 5.0, 10.0, 30.0]

/-- The histogram of no uploads. -/
def empty : Latency := { buckets := bounds.map fun _ => 0 }

/-- Count an upload at the first bound that is not below its length. -/
def countIn (seconds : Float) : List Float → List Nat → List Nat
  | bound :: bounds, n :: buckets =>
    if seconds ≤ bound then (n + 1) :: buckets else n :: countIn seconds bounds buckets
  | _, buckets => buckets

/-- Add an upload of a given length. -/
def observe (l : Latency) (seconds : Float) : Latency where
  buckets := countIn seconds bounds l.buckets
  sum := l.sum + seconds
  count := l.count + 1

end Latency

/-- The values of all metrics. -/
structure Metrics where
  /-- Handled events, by action and then by kind. -/
  eventsProcessed : KeyMap (KeyMap Nat) := .empty
  eventsDropped : Nat := 0
  /-- Failed events by kind. -/
  reconcileErrors : KeyMap Nat := .empty
  payloadsExported : Nat := 0
  uploadFailures : Nat := 0
  uploadLatency : Latency := .empty
  bufferItems : Nat := 0
  groupUpdates : Nat := 0
  groupConflicts : Nat := 0

namespace Metrics

/-- Count one more under a key. -/
def countKey (m : KeyMap Nat) (key : String) : KeyMap Nat :=
  m.insert key ((m.get? key).getD 0 + 1)

/-- Count a handled event. -/
def countEvent (m : Metrics) (kind action : String) : Metrics :=
  { m with
    eventsProcessed :=
      m.eventsProcessed.insert action
        (countKey ((m.eventsProcessed.get? action).getD .empty) kind) }

/-- Count a payload that the buffer rejected. -/
def countDropped (m : Metrics) : Metrics := { m with eventsDropped := m.eventsDropped + 1 }

/-- Count an event that could not be handled. -/
def countReconcileError (m : Metrics) (kind : String) : Metrics :=
  { m with reconcileErrors := countKey m.reconcileErrors kind }

/-- Count payloads that a subscriber took. -/
def countExported (m : Metrics) (n : Nat) : Metrics :=
  { m with payloadsExported := m.payloadsExported + n }

/-- Count a failed upload. -/
def countUploadFailure (m : Metrics) : Metrics := { m with uploadFailures := m.uploadFailures + 1 }

/-- Record the length of an upload in seconds. -/
def observeLatency (m : Metrics) (seconds : Float) : Metrics :=
  { m with uploadLatency := m.uploadLatency.observe seconds }

/-- Set the number of payloads that wait in the buffer. -/
def setBufferItems (m : Metrics) (n : Nat) : Metrics := { m with bufferItems := n }

/-- Count a written group. -/
def countGroupUpdate (m : Metrics) : Metrics := { m with groupUpdates := m.groupUpdates + 1 }

/-- Count a write of a group that met a conflict. -/
def countGroupConflict (m : Metrics) : Metrics :=
  { m with groupConflicts := m.groupConflicts + 1 }

/-! ## Exposition -/

/-- One value of a family. -/
structure Sample where
  /-- What follows the name of the family. -/
  suffix : String := ""
  labels : List (String × String) := []
  value : Float

/-- The samples of one name. -/
structure Family where
  name : String
  help : String
  type : String
  samples : List Sample

/-- The written form of a character in the value of a label. -/
def escapeLabel (c : Char) : List Char :=
  if c = '\\' then ['\\', '\\']
  else if c = '\n' then ['\\', 'n']
  else if c = '"' then ['\\', '"']
  else [c]

/-- A label with its value. -/
def writeLabel (l : String × String) : List Char :=
  l.1.toList ++ '=' :: '"' :: l.2.toList.flatMap escapeLabel ++ ['"']

/-- Labels between braces, unless there are none. -/
def writeLabels (labels : List (String × String)) : List Char :=
  if labels.isEmpty then []
  else '{' :: [','].intercalate (labels.map writeLabel) ++ ['}']

/-- The line of a sample of the family with the given name. -/
def Sample.line (name : String) (s : Sample) : String :=
  name ++ s.suffix ++ String.ofList (writeLabels s.labels) ++ " " ++ Decimal.text s.value

/-- The lines of the samples of a family. -/
def Family.sampleLines (f : Family) : List String := f.samples.map (Sample.line f.name)

/-- All lines of a family: help, type, and samples. -/
def Family.lines (f : Family) : List String :=
  ("# HELP " ++ f.name ++ " " ++ f.help) :: ("# TYPE " ++ f.name ++ " " ++ f.type) ::
    f.sampleLines

/-- The value that a count shows: counters are words of 64 bits. -/
def countValue (n : Nat) : Float := Float.ofNat (n % UInt64.size)

/-- The value that the gauge shows: a signed word of 64 bits. -/
def gaugeValue (n : Nat) : Float := Float.ofInt (Int.bmod n UInt64.size)

/-- The name of a family, in the namespace of the program. -/
def familyName (name : String) : String := "cost_controller_" ++ name

/-- A family that has one sample without labels. -/
def single (name help type : String) (value : Float) : Family :=
  { name := familyName name, help, type, samples := [{ value }] }

/-- The name of the histogram. -/
def latencyName : String := familyName "upload_latency_seconds"

/-- The sums of the beginnings of a list that are longer than nothing. -/
def runningSums (start : Nat) : List Nat → List Nat
  | [] => []
  | n :: rest => (start + n) :: runningSums (start + n) rest

/-- The samples of the histogram: how many uploads took at most as long as each
bound, the last bound being infinite; the total length; and the number. -/
def latencySamples (l : Latency) : List Sample :=
  let bucket (le : String) (n : Nat) : Sample :=
    { suffix := "_bucket", labels := [("le", le)], value := countValue n }
  (Latency.bounds.zip (runningSums 0 l.buckets)).map (fun b => bucket (Decimal.text b.1) b.2) ++
    [bucket "+Inf" l.count, { suffix := "_sum", value := l.sum },
      { suffix := "_count", value := countValue l.count }]

/-- The samples of the events by action and kind. -/
def eventSamples (m : KeyMap (KeyMap Nat)) : List Sample :=
  m.entries.flatMap fun a => a.2.entries.map fun k =>
    { labels := [("action", a.1), ("kind", k.1)], value := countValue k.2 }

/-- The samples of the failures by kind. -/
def errorSamples (m : KeyMap Nat) : List Sample :=
  m.entries.map fun k => { labels := [("kind", k.1)], value := countValue k.2 }

/-- All families that have samples, in the order of their names. -/
def families (m : Metrics) : List Family :=
  [single "buffer_items" "Payloads waiting in the ring buffer" "gauge" (gaugeValue m.bufferItems),
    single "events_dropped_total" "Payloads rejected because the buffer was full" "counter"
      (countValue m.eventsDropped),
    { name := familyName "events_processed_total"
      help := "Resource events handled by the reconciler"
      type := "counter"
      samples := eventSamples m.eventsProcessed },
    single "group_conflicts_total" "Group writes rejected as stale" "counter"
      (countValue m.groupConflicts),
    single "group_updates_total" "Group records written" "counter" (countValue m.groupUpdates),
    single "payloads_exported_total" "Payloads acknowledged by a subscriber" "counter"
      (countValue m.payloadsExported),
    { name := familyName "reconcile_errors_total"
      help := "Resource events that failed to reconcile"
      type := "counter"
      samples := errorSamples m.reconcileErrors },
    single "upload_failures_total" "Failed subscriber uploads" "counter"
      (countValue m.uploadFailures),
    { name := latencyName
      help := "Time spent posting a batch"
      type := "histogram"
      samples := latencySamples m.uploadLatency }].filter fun f => !f.samples.isEmpty

/-- The whole text, line by line. -/
def lines (m : Metrics) : List String := m.families.flatMap Family.lines

end Metrics

end Chargeback
