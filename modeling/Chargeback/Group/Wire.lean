import Chargeback.Group.Spec
import Chargeback.Json.Writing
import Chargeback.Json.Reading
import Chargeback.Json.Record
import Chargeback.Time.Rfc3339

/-!
# Group records in JSON

Empty labels, an empty list of windows, a missing end and zero storage are left
out of the text. A record may be given without any of them, and also without its
type, its total and its members.

## Main definitions

* `Metric.toJson`, `Activity.toJson`, `GroupSpec.toJson`: the written values.
* `Metric.ofJson?`, `Activity.ofJson?`, `GroupSpec.ofJson?`: the read ones.
* `GroupSpec.write`, `GroupSpec.read?`: the text of a record, and the record of a text.
-/

namespace Chargeback

namespace Instant

/-- An instant as a JSON value. -/
def toJson (t : Instant) : Json := .string t.write

/-- The instant of a JSON value. -/
def ofJson? (j : Json) : Option Instant := j.text?.bind Instant.read?

end Instant

namespace Metric

/-- A metric as a JSON value. -/
def toJson (m : Metric) : Json :=
  .object
    [("cpuRequest", .amount m.cpuRequest), ("cpuLimit", .amount m.cpuLimit),
      ("memoryRequest", .amount m.memoryRequest), ("memoryLimit", .amount m.memoryLimit)]

/-- The metric of a JSON value; all four amounts have to be given. -/
def ofJson? (j : Json) : Option Metric := do
  let r ← Json.record? ["cpuRequest", "cpuLimit", "memoryRequest", "memoryLimit"] j
  some
    { cpuRequest := ← r.required? "cpuRequest" Json.amount?
      cpuLimit := ← r.required? "cpuLimit" Json.amount?
      memoryRequest := ← r.required? "memoryRequest" Json.amount?
      memoryLimit := ← r.required? "memoryLimit" Json.amount? }

end Metric

namespace Activity

/-- A window as a JSON value. -/
def toJson (a : Activity) : Json :=
  Json.record
    [("startTime", some a.start.toJson), ("endTime", a.finish.map Instant.toJson),
      ("metric", some a.metric.toJson),
      ("storageBytes", if a.storageBytes = 0 then none else some (.amount a.storageBytes))]

/-- The window of a JSON value. -/
def ofJson? (j : Json) : Option Activity := do
  let r ← Json.record? ["startTime", "endTime", "metric", "storageBytes"] j
  some
    { start := ← r.required? "startTime" Instant.ofJson?
      finish := ← r.optional? "endTime" Instant.ofJson?
      metric := ← r.required? "metric" Metric.ofJson?
      storageBytes := ← r.withDefault? "storageBytes" 0 Json.amount? }

end Activity

namespace GroupType

/-- The names of the group types. -/
def words : List (String × GroupType) := [byNamespace, byLabel, custom].map fun t => (t.name, t)

/-- The group type that a JSON value names. -/
def ofJson? : Json → Option GroupType := Json.word? words

end GroupType

namespace GroupSpec

/-- A map as a JSON value, left out when it is empty. -/
def mapUnlessEmpty {α : Type} (write : α → Json) (m : KeyMap α) : Option Json :=
  if m.isEmpty then none else some (Json.ofMap write m)

/-- A record as a JSON value. -/
def toJson (g : GroupSpec) : Json :=
  Json.record
    [("name", some (.string g.name)), ("type", some (.string g.type.name)),
      ("labels", mapUnlessEmpty Json.string g.labels), ("metrics", some g.total.toJson),
      ("pods", some (Json.ofMap Metric.toJson g.members)),
      ("podsDetails", mapUnlessEmpty Activity.toJson g.windows)]

/-- The record of a JSON value. -/
def ofJson? (j : Json) : Option GroupSpec := do
  let r ← Json.record? ["name", "type", "labels", "metrics", "pods", "podsDetails"] j
  some
    { name := ← r.required? "name" Json.text?
      type := ← r.withDefault? "type" .byNamespace GroupType.ofJson?
      labels := ← r.withDefault? "labels" .empty (Json.map? Json.text?)
      total := ← r.withDefault? "metrics" .zero Metric.ofJson?
      members := ← r.withDefault? "pods" .empty (Json.map? Metric.ofJson?)
      windows := ← r.withDefault? "podsDetails" .empty (Json.map? Activity.ofJson?) }

/-- The text of a record. -/
def write (g : GroupSpec) : String := g.toJson.write

/-- The record that a text stands for. -/
def read? (text : String) : Option GroupSpec := (Json.parse? text).bind ofJson?

end GroupSpec

end Chargeback
