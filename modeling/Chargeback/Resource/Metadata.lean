import Chargeback.Json.Record
import Chargeback.Time.Rfc3339

/-!
# Metadata of cluster objects

Every object of the cluster carries its name and namespace, its labels and
annotations, and a version that changes with every write. Fields that are null
count as absent, and fields of other names do not count at all.

## Main definitions

* `Metadata`: the metadata of an object.
* `Metadata.key`: the key of an object among all objects of its kind.
* `Metadata.nameOrGenerated`: the name under which a record is stored.
-/

namespace Chargeback

/-! ## Fields of an object -/

/-- The fields of a JSON object by name; the last of several equal names counts. -/
abbrev Fields := KeyMap Json

namespace Fields

variable {α : Type}

/-- The fields of a JSON object. -/
def ofJson? : Json → Option Fields
  | .object fields => some (KeyMap.ofList fields)
  | _ => none

/-- Read a field that may be absent or null. -/
def read? (f : Fields) (name : String) (read : Json → Option α) : Option (Option α) :=
  match f.get? name with
  | none | some .null => some none
  | some j => (read j).map some

/-- Read a field that has a default for when it is absent or null. -/
def readD? (f : Fields) (name : String) (default : α) (read : Json → Option α) : Option α :=
  (f.read? name read).map (·.getD default)

end Fields

/-- A map of texts as a JSON value. -/
def KeyMap.toJson (m : KeyMap String) : Json := Json.ofMap Json.string m

/-! ## Metadata -/

/-- The metadata of an object. -/
structure Metadata where
  annotations : Option (KeyMap String) := none
  created : Option Instant := none
  deleted : Option Instant := none
  generateName : Option String := none
  labels : Option (KeyMap String) := none
  name : Option String := none
  namespaceName : Option String := none
  resourceVersion : Option String := none
  uid : Option String := none
deriving DecidableEq, Inhabited

namespace Metadata

/-- The key of an object: its name, behind its namespace if it has one. -/
def key (m : Metadata) : String :=
  let name := m.name.getD ""
  match m.namespaceName with
  | some ns => if ns = "" then name else ns ++ "/" ++ name
  | none => name

/-- The name, or else the beginning from which a name is to be generated. -/
def nameOrGenerated (m : Metadata) : String := (m.name <|> m.generateName).getD ""

/-- Metadata as a JSON value, with times to the second. -/
def toJson (m : Metadata) : Json :=
  Json.record
    [("annotations", m.annotations.map KeyMap.toJson),
      ("creationTimestamp", m.created.map fun t => .string t.writeSeconds),
      ("deletionTimestamp", m.deleted.map fun t => .string t.writeSeconds),
      ("generateName", m.generateName.map Json.string), ("labels", m.labels.map KeyMap.toJson),
      ("name", m.name.map Json.string), ("namespace", m.namespaceName.map Json.string),
      ("resourceVersion", m.resourceVersion.map Json.string), ("uid", m.uid.map Json.string)]

/-- The metadata of a JSON value. -/
def ofJson? (j : Json) : Option Metadata := do
  let f ← Fields.ofJson? j
  let time (j : Json) : Option Instant := j.text?.bind Instant.read?
  some
    { annotations := ← f.read? "annotations" (Json.map? Json.text?)
      created := ← f.read? "creationTimestamp" time
      deleted := ← f.read? "deletionTimestamp" time
      generateName := ← f.read? "generateName" Json.text?
      labels := ← f.read? "labels" (Json.map? Json.text?)
      name := ← f.read? "name" Json.text?
      namespaceName := ← f.read? "namespace" Json.text?
      resourceVersion := ← f.read? "resourceVersion" Json.text?
      uid := ← f.read? "uid" Json.text? }

end Metadata

end Chargeback
