import Chargeback.Json.Writing
import Chargeback.Kind
import Chargeback.Resource.Metadata

/-!
# Cluster objects

The objects that the cluster reports, with the fields that matter for usage and
for export: what the containers of a pod request, the volumes that it mounts,
what a node offers, how large a claim or a volume is.

## Main definitions

* `Resource`: an object with its metadata and what its kind adds to it.
* `Resource.ofJson?`: the object of a kind that a JSON value describes.
* `Serializer`: how objects are written when they are exported.
-/

namespace Chargeback

/-- Amounts of resources by name, as they are written. -/
abbrev Quantities := KeyMap String

/-- The limits and the requests of a container or of a claim. -/
structure Requirements where
  limits : Option Quantities := none
  requests : Option Quantities := none
deriving DecidableEq, Inhabited

/-- A container of a pod. -/
structure Container where
  image : Option String := none
  name : String := ""
  resources : Option Requirements := none
deriving DecidableEq, Inhabited

/-- The claim that a volume refers to. -/
structure ClaimReference where
  claimName : String := ""
  readOnly : Option Bool := none
deriving DecidableEq, Inhabited

/-- A volume of a pod: a path on the node, a claim, or something else. -/
structure Volume where
  hostPath : Option String := none
  name : String := ""
  claim : Option ClaimReference := none
deriving DecidableEq, Inhabited

/-- What a pod is to run. -/
structure PodSpec where
  containers : List Container := []
  initContainers : Option (List Container) := none
  nodeName : Option String := none
  volumes : Option (List Volume) := none
deriving DecidableEq, Inhabited

/-- How a pod runs. -/
structure PodStatus where
  phase : Option String := none
  startTime : Option Instant := none
deriving DecidableEq, Inhabited

/-- How a node is to be used. -/
structure NodeSpec where
  unschedulable : Option Bool := none
deriving DecidableEq, Inhabited

/-- What a node offers. -/
structure NodeStatus where
  allocatable : Option Quantities := none
  capacity : Option Quantities := none
deriving DecidableEq, Inhabited

/-- What a claim asks for. -/
structure ClaimSpec where
  resources : Option Requirements := none
  storageClass : Option String := none
  volumeName : Option String := none
deriving DecidableEq, Inhabited

/-- What a claim was given. -/
structure ClaimStatus where
  capacity : Option Quantities := none
  phase : Option String := none
deriving DecidableEq, Inhabited

/-- What a volume of the cluster offers. -/
structure VolumeSpec where
  capacity : Option Quantities := none
  storageClass : Option String := none
deriving DecidableEq, Inhabited

/-- The phase that an object is in. -/
structure PhaseStatus where
  phase : Option String := none
deriving DecidableEq, Inhabited

/-- What the kind of an object adds to its metadata. -/
inductive Content where
  | pod (spec : Option PodSpec) (status : Option PodStatus)
  | node (spec : Option NodeSpec) (status : Option NodeStatus)
  | persistentVolume (spec : Option VolumeSpec) (status : Option PhaseStatus)
  | persistentVolumeClaim (spec : Option ClaimSpec) (status : Option ClaimStatus)
  | namespaceScope (status : Option PhaseStatus)
  | service
  | replicaSet
  | daemonSet
  | deployment
  | statefulSet
  | job
deriving DecidableEq, Inhabited

/-- The kind of an object with this content. -/
def Content.kind : Content → ResourceKind
  | pod .. => .pod
  | node .. => .node
  | persistentVolume .. => .persistentVolume
  | persistentVolumeClaim .. => .persistentVolumeClaim
  | namespaceScope .. => .namespaceScope
  | service => .service
  | replicaSet => .replicaSet
  | daemonSet => .daemonSet
  | deployment => .deployment
  | statefulSet => .statefulSet
  | job => .job

/-- An object of the cluster. -/
structure Resource where
  metadata : Metadata := {}
  content : Content
  /-- All else that the object says, as a text. It is exported, but not read here. -/
  others : String := ""
deriving DecidableEq, Inhabited

/-- The kind of an object. -/
def Resource.kind (r : Resource) : ResourceKind := r.content.kind

/-- The key of an object among all objects of its kind. -/
def Resource.key (r : Resource) : String := r.metadata.key

/-! ## Reading -/

namespace Requirements

/-- The requirements of a JSON value. -/
def ofJson? (j : Json) : Option Requirements := do
  let f ← Fields.ofJson? j
  some
    { limits := ← f.read? "limits" (Json.map? Json.text?)
      requests := ← f.read? "requests" (Json.map? Json.text?) }

/-- Requirements as a JSON value. -/
def toJson (r : Requirements) : Json :=
  Json.record
    [("limits", r.limits.map KeyMap.toJson), ("requests", r.requests.map KeyMap.toJson)]

end Requirements

namespace Container

/-- The container of a JSON value. -/
def ofJson? (j : Json) : Option Container := do
  let f ← Fields.ofJson? j
  some
    { image := ← f.read? "image" Json.text?
      name := ← f.readD? "name" "" Json.text?
      resources := ← f.read? "resources" Requirements.ofJson? }

/-- A container as a JSON value. -/
def toJson (c : Container) : Json :=
  Json.record
    [("image", c.image.map Json.string), ("name", some (.string c.name)),
      ("resources", c.resources.map Requirements.toJson)]

end Container

namespace Volume

/-- The volume of a JSON value. -/
def ofJson? (j : Json) : Option Volume := do
  let f ← Fields.ofJson? j
  let path (j : Json) : Option String := do
    (← Fields.ofJson? j).readD? "path" "" Json.text?
  let claim (j : Json) : Option ClaimReference := do
    let f ← Fields.ofJson? j
    some
      { claimName := ← f.readD? "claimName" "" Json.text?
        readOnly := ← f.read? "readOnly" Json.bool? }
  some
    { hostPath := ← f.read? "hostPath" path
      name := ← f.readD? "name" "" Json.text?
      claim := ← f.read? "persistentVolumeClaim" claim }

/-- A volume as a JSON value. -/
def toJson (v : Volume) : Json :=
  Json.record
    [("hostPath", v.hostPath.map fun p => .object [("path", .string p)]),
      ("name", some (.string v.name)),
      ("persistentVolumeClaim", v.claim.map fun c =>
        Json.record
          [("claimName", some (.string c.claimName)), ("readOnly", c.readOnly.map Json.bool)])]

end Volume

namespace PodSpec

/-- The specification of a pod that a JSON value gives. -/
def ofJson? (j : Json) : Option PodSpec := do
  let f ← Fields.ofJson? j
  some
    { containers := ← f.readD? "containers" [] (Json.list? Container.ofJson?)
      initContainers := ← f.read? "initContainers" (Json.list? Container.ofJson?)
      nodeName := ← f.read? "nodeName" Json.text?
      volumes := ← f.read? "volumes" (Json.list? Volume.ofJson?) }

/-- The specification of a pod as a JSON value. -/
def toJson (s : PodSpec) : Json :=
  Json.record
    [("containers", some (.array (s.containers.map Container.toJson))),
      ("initContainers", s.initContainers.map fun l => .array (l.map Container.toJson)),
      ("nodeName", s.nodeName.map Json.string),
      ("volumes", s.volumes.map fun l => .array (l.map Volume.toJson))]

end PodSpec

namespace PodStatus

/-- The status of a pod that a JSON value gives. -/
def ofJson? (j : Json) : Option PodStatus := do
  let f ← Fields.ofJson? j
  some
    { phase := ← f.read? "phase" Json.text?
      startTime := ← f.read? "startTime" fun j => j.text?.bind Instant.read? }

/-- The status of a pod as a JSON value. -/
def toJson (s : PodStatus) : Json :=
  Json.record
    [("phase", s.phase.map Json.string),
      ("startTime", s.startTime.map fun t => .string t.writeSeconds)]

end PodStatus

namespace NodeSpec

/-- The specification of a node that a JSON value gives. -/
def ofJson? (j : Json) : Option NodeSpec := do
  let f ← Fields.ofJson? j
  some { unschedulable := ← f.read? "unschedulable" Json.bool? }

/-- The specification of a node as a JSON value. -/
def toJson (s : NodeSpec) : Json :=
  Json.record [("unschedulable", s.unschedulable.map Json.bool)]

end NodeSpec

namespace NodeStatus

/-- The status of a node that a JSON value gives. -/
def ofJson? (j : Json) : Option NodeStatus := do
  let f ← Fields.ofJson? j
  some
    { allocatable := ← f.read? "allocatable" (Json.map? Json.text?)
      capacity := ← f.read? "capacity" (Json.map? Json.text?) }

/-- The status of a node as a JSON value. -/
def toJson (s : NodeStatus) : Json :=
  Json.record
    [("allocatable", s.allocatable.map KeyMap.toJson), ("capacity", s.capacity.map KeyMap.toJson)]

end NodeStatus

namespace ClaimSpec

/-- The specification of a claim that a JSON value gives. -/
def ofJson? (j : Json) : Option ClaimSpec := do
  let f ← Fields.ofJson? j
  some
    { resources := ← f.read? "resources" Requirements.ofJson?
      storageClass := ← f.read? "storageClassName" Json.text?
      volumeName := ← f.read? "volumeName" Json.text? }

/-- The specification of a claim as a JSON value. -/
def toJson (s : ClaimSpec) : Json :=
  Json.record
    [("resources", s.resources.map Requirements.toJson),
      ("storageClassName", s.storageClass.map Json.string),
      ("volumeName", s.volumeName.map Json.string)]

end ClaimSpec

namespace ClaimStatus

/-- The status of a claim that a JSON value gives. -/
def ofJson? (j : Json) : Option ClaimStatus := do
  let f ← Fields.ofJson? j
  some
    { capacity := ← f.read? "capacity" (Json.map? Json.text?)
      phase := ← f.read? "phase" Json.text? }

/-- The status of a claim as a JSON value. -/
def toJson (s : ClaimStatus) : Json :=
  Json.record [("capacity", s.capacity.map KeyMap.toJson), ("phase", s.phase.map Json.string)]

end ClaimStatus

namespace VolumeSpec

/-- The specification of a volume that a JSON value gives. -/
def ofJson? (j : Json) : Option VolumeSpec := do
  let f ← Fields.ofJson? j
  some
    { capacity := ← f.read? "capacity" (Json.map? Json.text?)
      storageClass := ← f.read? "storageClassName" Json.text? }

/-- The specification of a volume as a JSON value. -/
def toJson (s : VolumeSpec) : Json :=
  Json.record
    [("capacity", s.capacity.map KeyMap.toJson),
      ("storageClassName", s.storageClass.map Json.string)]

end VolumeSpec

namespace PhaseStatus

/-- The phase that a JSON value gives. -/
def ofJson? (j : Json) : Option PhaseStatus := do
  let f ← Fields.ofJson? j
  some { phase := ← f.read? "phase" Json.text? }

/-- A phase as a JSON value. -/
def toJson (s : PhaseStatus) : Json := Json.record [("phase", s.phase.map Json.string)]

end PhaseStatus

namespace Content

/-- The content of an object of the given kind, from the fields of the object. -/
def ofFields? (f : Fields) : ResourceKind → Option Content
  | .pod => do
    some (.pod (← f.read? "spec" PodSpec.ofJson?) (← f.read? "status" PodStatus.ofJson?))
  | .node => do
    some (.node (← f.read? "spec" NodeSpec.ofJson?) (← f.read? "status" NodeStatus.ofJson?))
  | .persistentVolume => do
    some
      (.persistentVolume (← f.read? "spec" VolumeSpec.ofJson?)
        (← f.read? "status" PhaseStatus.ofJson?))
  | .persistentVolumeClaim => do
    some
      (.persistentVolumeClaim (← f.read? "spec" ClaimSpec.ofJson?)
        (← f.read? "status" ClaimStatus.ofJson?))
  | .namespaceScope => do some (.namespaceScope (← f.read? "status" PhaseStatus.ofJson?))
  | .service => some .service
  | .replicaSet => some .replicaSet
  | .daemonSet => some .daemonSet
  | .deployment => some .deployment
  | .statefulSet => some .statefulSet
  | .job => some .job

/-- The specification as a JSON value. -/
def specJson : Content → Option Json
  | pod spec _ => spec.map PodSpec.toJson
  | node spec _ => spec.map NodeSpec.toJson
  | persistentVolume spec _ => spec.map VolumeSpec.toJson
  | persistentVolumeClaim spec _ => spec.map ClaimSpec.toJson
  | _ => none

/-- The status as a JSON value. -/
def statusJson : Content → Option Json
  | pod _ status => status.map PodStatus.toJson
  | node _ status => status.map NodeStatus.toJson
  | persistentVolume _ status => status.map PhaseStatus.toJson
  | persistentVolumeClaim _ status => status.map ClaimStatus.toJson
  | namespaceScope status => status.map PhaseStatus.toJson
  | _ => none

end Content

namespace Resource

/-- A field, when it is given, has to hold one particular text. -/
def fieldIs (f : Fields) (name expected : String) : Bool :=
  match f.get? name with
  | none => true
  | some (.string s) => s = expected
  | some _ => false

/-- The object of the given kind that a JSON value describes. -/
def ofJson? (kind : ResourceKind) (j : Json) : Option Resource := do
  let f ← Fields.ofJson? j
  if fieldIs f "apiVersion" kind.apiVersion && fieldIs f "kind" kind.name then
    some
      { metadata := ← f.readD? "metadata" {} Metadata.ofJson?
        content := ← Content.ofFields? f kind }
  else none

/-- The fields of an object that are read here, as a JSON value. -/
def toJson (r : Resource) : Json :=
  Json.record
    [("apiVersion", some (.string r.kind.apiVersion)), ("kind", some (.string r.kind.name)),
      ("metadata", some r.metadata.toJson), ("spec", r.content.specJson),
      ("status", r.content.statusJson)]

end Resource

/-- How objects are written as JSON texts. This is left to a library, which knows all fields of
an object. -/
structure Serializer where
  /-- The text of an object, or why it has none. -/
  write : Resource → Except String String
  /-- Only a map whose keys are no texts cannot be written, and no object has one. -/
  total : ∀ r, ∃ text, write r = .ok text

namespace Serializer

theorem write_ne_error (s : Serializer) (r : Resource) (reason : String) :
    s.write r ≠ .error reason := by
  obtain ⟨text, htext⟩ := s.total r
  rw [htext]
  exact nofun

/-- The text that an object is written as. -/
def text (s : Serializer) (r : Resource) : String :=
  match h : s.write r with
  | .ok text => text
  | .error reason => (s.write_ne_error r reason h).elim

theorem write_eq (s : Serializer) (r : Resource) : s.write r = .ok (s.text r) := by
  unfold text
  split
  next text h => exact h
  next reason h => exact absurd h (s.write_ne_error r reason)

/-- The library on objects that say nothing else than what is read here. -/
def ofFields : Serializer where
  write r := .ok r.toJson.write
  total r := ⟨r.toJson.write, rfl⟩

end Serializer

end Chargeback
