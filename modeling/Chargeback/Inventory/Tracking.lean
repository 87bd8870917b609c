import Chargeback.Inventory
import Chargeback.Resource.Usage

/-!
# Tracking of objects

The inventory follows every change of a pod, of a node or of a claim. The last
object counts, and a deletion forgets it; volumes and other objects are not
kept.

## Main definitions

* `PodRecord.ofResource`, `NodeRecord.ofResource`: what is kept of an object.
* `Inventory.track`: the inventory after a change.
-/

namespace Chargeback

/-- What is kept of a pod. -/
def PodRecord.ofResource (r : Resource) : PodRecord where
  nodeName :=
    match r.content with
    | .pod (some spec) _ => spec.nodeName
    | _ => none
  metric := r.metric
  claims := r.claimKeys

/-- What is kept of a node. -/
def NodeRecord.ofResource (r : Resource) : NodeRecord where
  instanceType := r.instanceType?.getD ""
  metric := r.metric

namespace Inventory

/-- Forget a deleted object. -/
def forget (i : Inventory) (r : Resource) : Inventory :=
  match r.content with
  | .pod .. => i.removePod r.key
  | .node .. => i.removeNode r.key
  | .persistentVolumeClaim .. => i.removeClaim r.key
  | _ => i

/-- Keep an object that is there. -/
def observe (i : Inventory) (r : Resource) : Inventory :=
  match r.content with
  | .pod .. => i.upsertPod r.key (.ofResource r)
  | .node .. => i.upsertNode r.key (.ofResource r)
  | .persistentVolumeClaim spec status => i.upsertClaim r.key (Content.claimUsage spec status)
  | _ => i

/-- The inventory after a change of an object. -/
def track (i : Inventory) (a : Action) (r : Resource) : Inventory :=
  match a with
  | .delete => i.forget r
  | .create | .update => i.observe r

end Inventory

end Chargeback
