import Chargeback.Amount
import Chargeback.Cost.Engine

/-!
# Inventory

What is known about the present nodes, pods and claims, kept from their last
events. Pods are priced from it, and members of groups are given the storage
that their claims hold. Its totals are checked additions: a total that no word
of 64 bits can hold is a panic and never a smaller number.

## Main definitions

* `Inventory`: nodes, pods and claims by key.
* `Inventory.claimedBytes`: the storage behind a list of claims.
* `Inventory.nodeUsage?`: a node with the CPU that its pods request.
* `Inventory.podCost?`: the cost of a pod that runs on a known node.
-/

namespace Chargeback

/-- What is known about a pod. -/
structure PodRecord where
  nodeName : Option String
  metric : Metric
  /-- The keys of the claims that the pod mounts. -/
  claims : List String
deriving DecidableEq, Repr, Inhabited

/-- What is known about a node. -/
structure NodeRecord where
  instanceType : String
  /-- What can be allocated counts as requested, and the capacity as the limit. -/
  metric : Metric
deriving DecidableEq, Repr, Inhabited

/-- The known nodes, pods and claims. -/
structure Inventory where
  nodes : KeyMap NodeRecord := .empty
  pods : KeyMap PodRecord := .empty
  claims : KeyMap ClaimUsage := .empty
deriving DecidableEq, Inhabited

/-- A panic: a sum is larger than a word of 64 bits can hold. -/
inductive SumOverflow where
  | sumOverflow
deriving DecidableEq, Repr

namespace Inventory

/-- Remember a node. -/
def upsertNode (i : Inventory) (name : String) (r : NodeRecord) : Inventory :=
  { i with nodes := i.nodes.insert name r }

/-- Forget a node. -/
def removeNode (i : Inventory) (name : String) : Inventory :=
  { i with nodes := i.nodes.erase name }

/-- Remember a pod. -/
def upsertPod (i : Inventory) (key : String) (r : PodRecord) : Inventory :=
  { i with pods := i.pods.insert key r }

/-- Forget a pod. -/
def removePod (i : Inventory) (key : String) : Inventory :=
  { i with pods := i.pods.erase key }

/-- Remember a claim. -/
def upsertClaim (i : Inventory) (key : String) (c : ClaimUsage) : Inventory :=
  { i with claims := i.claims.insert key c }

/-- Forget a claim. -/
def removeClaim (i : Inventory) (key : String) : Inventory :=
  { i with claims := i.claims.erase key }

/-- The sum of amounts, or the panic when no word holds it. -/
def exactSum (l : List UInt64) : Except SumOverflow UInt64 :=
  match Amount.sum? l with
  | some n => .ok n
  | none => .error .sumOverflow

/-- The known claims among the given keys, in their order. -/
def claimsOf (i : Inventory) (keys : List String) : List ClaimUsage :=
  keys.filterMap i.claims.get?

/-- The bytes of the known claims among the given keys. -/
def claimedBytes (i : Inventory) (keys : List String) : Except SumOverflow UInt64 :=
  exactSum ((i.claimsOf keys).map ClaimUsage.capacityBytes)

/-- The pods that are scheduled on a node. -/
def podsOn (i : Inventory) (node : String) : List PodRecord :=
  i.pods.values.filter fun p => p.nodeName = some node

/-- A known node, with the CPU that the pods scheduled on it request. -/
def nodeUsage? (i : Inventory) (node : String) : Except SumOverflow (Option NodeUsage) := do
  match i.nodes.get? node with
  | none => pure none
  | some r =>
    let allocated ← exactSum ((i.podsOn node).map fun p => p.metric.cpuRequest)
    pure (some { instanceType := r.instanceType, allocated })

/-- The cost of a known pod that is scheduled on a known node. -/
def podCost? (i : Inventory) (e : CostEngine) (key : String) (now : Instant) :
    Except SumOverflow (Option (Priced Cost)) := do
  match i.pods.get? key with
  | none => pure none
  | some pod =>
    match pod.nodeName with
    | none => pure none
    | some node =>
      match ← i.nodeUsage? node with
      | none => pure none
      | some usage => pure (some (e.podCost pod.metric usage (i.claimsOf pod.claims) now))

/-- The numbers of known nodes, pods and claims. -/
def counts (i : Inventory) : List Nat := [i.nodes.size, i.pods.size, i.claims.size]

end Inventory

end Chargeback
