import Chargeback.Json.Writing
import Chargeback.Kind
import Chargeback.Time.Instant

/-!
# Exported changes

A payload describes one change of one resource and carries the JSON text of the
resource's snapshot. Payloads are sent in batches, under the organisation and
the cluster that they belong to.

## Main definitions

* `Payload`: one change. The time of its capture stays here and is never sent.
* `Envelope`: the body of a batch.
-/

namespace Chargeback

/-- A single change of a resource, as it is exported. -/
structure Payload where
  key : String
  action : Action
  namespaceName : String
  kind : ResourceKind
  cloudType : String
  /-- The JSON text of the resource's snapshot. -/
  data : String
  captured : Option Instant := none
deriving DecidableEq, Repr, Inhabited

namespace Payload

/-- The exported fields, in their order. -/
def fieldNames : List String :=
  ["key", "eventType", "namespace", "resourceType", "cloudType", "data"]

/-- The JSON value of the exported fields. -/
def toJson (p : Payload) : Json :=
  .object
    [("key", .string p.key), ("eventType", p.action.toJson), ("namespace", .string p.namespaceName),
      ("resourceType", p.kind.toJson), ("cloudType", .string p.cloudType),
      ("data", .string p.data)]

/-- Read a payload; all exported fields have to be given. -/
def ofJson? (j : Json) : Option Payload := do
  let r ← Json.record? fieldNames j
  some
    { key := ← r.required? "key" Json.text?
      action := ← r.required? "eventType" Action.ofJson?
      namespaceName := ← r.required? "namespace" Json.text?
      kind := ← r.required? "resourceType" ResourceKind.ofJson?
      cloudType := ← r.required? "cloudType" Json.text?
      data := ← r.required? "data" Json.text? }

end Payload

/-- A batch of payloads under its organisation and cluster. -/
structure Envelope where
  orgId : String
  cluster : String
  payloads : List Payload
deriving DecidableEq, Repr

namespace Envelope

/-- The JSON value of a batch. -/
def toJson (e : Envelope) : Json :=
  .object
    [("cspOrgId", .string e.orgId), ("cluster", .string e.cluster),
      ("data", .array (e.payloads.map Payload.toJson))]

/-- The text that is posted for a batch. -/
def body (e : Envelope) : String := e.toJson.write

end Envelope

end Chargeback
