import Chargeback.Json.Record

/-!
# Kinds of resources and of changes

## Main definitions

* `ResourceKind`: the kinds of cluster resources that are watched.
* `Action`: what happened to a resource.
* `ResourceKind.isCosted`: the kinds that carry usage or capacity.
-/

namespace Chargeback

/-- A watched kind of cluster resource. -/
inductive ResourceKind where
  | pod
  | node
  | persistentVolume
  | persistentVolumeClaim
  | service
  | replicaSet
  | daemonSet
  | deployment
  | statefulSet
  | job
  | namespaceScope
deriving DecidableEq, Repr, Inhabited

namespace ResourceKind

/-- All kinds, in the order in which they are listed. -/
def all : List ResourceKind :=
  [pod, node, persistentVolume, persistentVolumeClaim, service, replicaSet, daemonSet,
    deployment, statefulSet, job, namespaceScope]

/-- The name of a kind. -/
def name : ResourceKind → String
  | pod => "Pod"
  | node => "Node"
  | persistentVolume => "PersistentVolume"
  | persistentVolumeClaim => "PersistentVolumeClaim"
  | service => "Service"
  | replicaSet => "ReplicaSet"
  | daemonSet => "DaemonSet"
  | deployment => "Deployment"
  | statefulSet => "StatefulSet"
  | job => "Job"
  | namespaceScope => "Namespace"

/-- The API version that the objects of a kind belong to. -/
def apiVersion : ResourceKind → String
  | replicaSet | daemonSet | deployment | statefulSet => "apps/v1"
  | job => "batch/v1"
  | _ => "v1"

/-- The kind carries usage or capacity; the others are only exported. -/
def isCosted : ResourceKind → Bool
  | pod | node | persistentVolume | persistentVolumeClaim => true
  | _ => false

theorem mem_all (k : ResourceKind) : k ∈ all := by cases k <;> decide

theorem name_injective {k l : ResourceKind} (h : k.name = l.name) : k = l := by
  revert h; cases k <;> cases l <;> decide

/-- The names of the kinds. -/
def words : List (String × ResourceKind) := all.map fun k => (k.name, k)

/-- The kind that a JSON value names. -/
def ofJson? : Json → Option ResourceKind := Json.word? words

/-- The JSON value that names a kind. -/
def toJson (k : ResourceKind) : Json := .string k.name

end ResourceKind

/-- What happened to a resource. -/
inductive Action where
  | create
  | update
  | delete
deriving DecidableEq, Repr, Inhabited

namespace Action

/-- All actions, in the order in which they are listed. -/
def all : List Action := [create, update, delete]

/-- The name of an action. -/
def name : Action → String
  | create => "create"
  | update => "update"
  | delete => "delete"

/-- The names of the actions. -/
def words : List (String × Action) := all.map fun a => (a.name, a)

/-- The action that a JSON value names. -/
def ofJson? : Json → Option Action := Json.word? words

/-- The JSON value that names an action. -/
def toJson (a : Action) : Json := .string a.name

end Action

end Chargeback
