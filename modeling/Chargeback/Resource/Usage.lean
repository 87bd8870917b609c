import Chargeback.Inventory
import Chargeback.Quantity
import Chargeback.Resource.Basic

/-!
# Usage of cluster objects

What the objects of the cluster mean for costs: how much a pod requests, what a
node offers, which claims a pod mounts, and how large claims and volumes are.

## Main definitions

* `PodSpec.metric`, `NodeStatus.metric`: requested and limited resources.
* `Resource.claimKeys`: the keys of the claims that a pod mounts.
* `Resource.started?`: when a pod was started, or else created.
* `Content.claimUsage`, `Content.volumeUsage`: storage class and size.
-/

namespace Chargeback

namespace Quantities

/-- The millicores under the name `cpu`. -/
def cpu (q : Option Quantities) : UInt64 :=
  match q.bind (·.get? "cpu") with
  | some raw => Quantity.millicores raw
  | none => 0

/-- The bytes under a name. -/
def bytes (q : Option Quantities) (name : String) : UInt64 :=
  match q.bind (·.get? name) with
  | some raw => Quantity.bytes raw
  | none => 0

/-- The metric with the given requests and limits. -/
def metric (requests limits : Option Quantities) : Metric where
  cpuRequest := cpu requests
  cpuLimit := cpu limits
  memoryRequest := bytes requests "memory"
  memoryLimit := bytes limits "memory"

end Quantities

/-- The sum over the containers of a pod; the ones that run before them do not
count. -/
def PodSpec.metric (s : PodSpec) : Metric :=
  Metric.sum
    (s.containers.filterMap fun c => c.resources.map fun r => Quantities.metric r.requests r.limits)

/-- What can be allocated on a node as requests, and its capacity as limits. -/
def NodeStatus.metric (s : NodeStatus) : Metric := Quantities.metric s.allocatable s.capacity

namespace Content

/-- The metric of a pod or of a node; zero for other objects. -/
def metric : Content → Metric
  | pod spec _ => spec.elim .zero PodSpec.metric
  | node _ status => status.elim .zero NodeStatus.metric
  | _ => .zero

/-- The storage class of a claim, with the size that it was given, or else the
one that it asks for. -/
def claimUsage (spec : Option ClaimSpec) (status : Option ClaimStatus) : ClaimUsage :=
  let requested :=
    Quantities.bytes ((spec.bind ClaimSpec.resources).bind Requirements.requests) "storage"
  let bound := Quantities.bytes (status.bind ClaimStatus.capacity) "storage"
  { storageClass := (spec.bind ClaimSpec.storageClass).getD ""
    capacityBytes := if bound > 0 then bound else requested }

/-- The storage class and the size of a volume. -/
def volumeUsage (spec : Option VolumeSpec) : ClaimUsage where
  storageClass := (spec.bind VolumeSpec.storageClass).getD ""
  capacityBytes := Quantities.bytes (spec.bind VolumeSpec.capacity) "storage"

end Content

namespace Resource

/-- The labels that name the instance type of a node, the first one first. -/
def instanceTypeLabels : List String :=
  ["node.kubernetes.io/instance-type", "beta.kubernetes.io/instance-type"]

/-- The instance type of a node, if a label names it. -/
def instanceType? (r : Resource) : Option String := do
  let labels ← r.metadata.labels
  instanceTypeLabels.findSome? labels.get?

/-- The key of a claim in the namespace of the object that mounts it. -/
def claimKey (r : Resource) (claim : ClaimReference) : String :=
  r.metadata.namespaceName.getD "default" ++ "/" ++ claim.claimName

/-- The keys of the claims that a pod mounts, one for each volume that refers to
a claim. -/
def claimKeys (r : Resource) : List String :=
  match r.content with
  | .pod (some spec) _ =>
    ((spec.volumes.getD []).filterMap Volume.claim).map r.claimKey
  | _ => []

/-- When a pod was started, or else created. -/
def started? (r : Resource) : Option Instant :=
  let start : Option Instant :=
    match r.content with
    | .pod _ (some status) => status.startTime
    | _ => none
  start <|> r.metadata.created

/-- The metric of a pod or of a node. -/
def metric (r : Resource) : Metric := r.content.metric

end Resource

end Chargeback
