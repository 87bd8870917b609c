import Chargeback.Cost.Price
import Chargeback.Cost.Rates
import Chargeback.Group.Spec
import Chargeback.Time.Month

/-!
# Costs from month to date

A pod is charged its share of the node that it runs on, by requested CPU, and
the claims that it mounts. A group is charged what its members requested, for
the hours of the current month in which they were members.

## Main definitions

* `Cost`: a cost and its parts.
* `CostEngine`: prices, rates, and the part of a node's price that is for CPU.
* `CostEngine.podCost`, `CostEngine.groupCost`: costs of pods and of groups.
-/

namespace Chargeback

/-- A cost and its parts. -/
structure Cost where
  total : Float := 0.0
  cpu : Float := 0.0
  memory : Float := 0.0
  storage : Float := 0.0
deriving Repr, Inhabited

namespace Cost

/-- Add two costs part by part. -/
def add (a b : Cost) : Cost where
  total := a.total + b.total
  cpu := a.cpu + b.cpu
  memory := a.memory + b.memory
  storage := a.storage + b.storage

instance : Add Cost := ⟨add⟩

/-- Add costs to a zero cost from left to right. -/
def sum (l : List Cost) : Cost := l.foldl (· + ·) {}

/-- A cost as a JSON value, with doubles written in a given way. -/
def toJson (float : Float → Json) (c : Cost) : Json :=
  .object
    [("totalCost", float c.total), ("cpuCost", float c.cpu), ("memoryCost", float c.memory),
      ("storageCost", float c.storage)]

/-- The cost of a JSON value; all parts have to be given. -/
def ofJson? (j : Json) : Option Cost := do
  let r ← Json.record? ["totalCost", "cpuCost", "memoryCost", "storageCost"] j
  some
    { total := ← r.required? "totalCost" Json.float?
      cpu := ← r.required? "cpuCost" Json.float?
      memory := ← r.required? "memoryCost" Json.float?
      storage := ← r.required? "storageCost" Json.float? }

end Cost

/-- The cost of a compute instance, split into CPU and memory. -/
structure ComputeCost where
  total : Float
  cpu : Float
  memory : Float
deriving Repr

/-- The cost of an instance as a JSON value, with doubles written in a given way. -/
def ComputeCost.toJson (float : Float → Json) (c : ComputeCost) : Json :=
  .object [("total", float c.total), ("cpu", float c.cpu), ("memory", float c.memory)]

/-- A node as it is shared among pods. -/
structure NodeUsage where
  instanceType : String
  /-- Millicores that all pods on the node request. -/
  allocated : UInt64
deriving DecidableEq, Repr

/-- A claim to storage. -/
structure ClaimUsage where
  storageClass : String
  capacityBytes : UInt64
deriving DecidableEq, Repr, Inhabited

/-- Prices, rates, and the part of an instance's price that is for its CPU. -/
structure CostEngine where
  prices : PriceTable
  cpuShare : Float
  rates : CostRates

namespace CostEngine

/-- The part of an instance's price that is for its CPU, unless told otherwise. -/
def defaultShare : Float := 0.3

/-- A share clamped to the interval from zero to one; the default for what is not
finite. -/
def clampShare (share : Float) : Float :=
  if share.isFinite then (if share < 0.0 then 0.0 else if share > 1.0 then 1.0 else share)
  else defaultShare

/-- The engine with the given prices, share and rates. -/
def new (prices : PriceTable) (share : Float) (rates : CostRates) : CostEngine :=
  { prices, cpuShare := clampShare share, rates }

/-- The engine with reference prices and default rates. -/
def default : CostEngine := new .reference defaultShare .default

/-- The cost of an instance since the start of the month. -/
def computeCost (e : CostEngine) (instanceType : String) (now : Instant) :
    Priced ComputeCost := do
  let price ← e.prices.instancePrice instanceType
  let total := Month.hoursElapsed now * price
  pure { total, cpu := total * e.cpuShare, memory := total * (1.0 - e.cpuShare) }

/-- The cost of a gibibyte of a storage class since the start of the month. -/
def storageCost (e : CostEngine) (storageClass : String) (now : Instant) : Priced Float := do
  let price ← e.prices.storagePrice storageClass
  pure (price * Month.fractionElapsed now)

/-- The cost of claims, added to zero from left to right. -/
def claimsCost (e : CostEngine) (claims : List ClaimUsage) (now : Instant) : Priced Float :=
  claims.foldlM
    (fun sum claim => do
      let cost ← e.storageCost claim.storageClass now
      pure (sum + cost * bytesToGiB claim.capacityBytes))
    0.0

/-- A pod's share of its node by requested CPU; zero when nothing on the node
requests any. -/
def podShare (pod : Metric) (node : NodeUsage) : Float :=
  if node.allocated = 0 then 0.0 else pod.cpuRequest.toFloat / node.allocated.toFloat

/-- The cost of a pod: its share of the node, and its claims. -/
def podCost (e : CostEngine) (pod : Metric) (node : NodeUsage) (claims : List ClaimUsage)
    (now : Instant) : Priced Cost := do
  let share := podShare pod node
  let compute ← e.computeCost node.instanceType now
  let storage ← e.claimsCost claims now
  pure
    { total := share * compute.total + storage
      cpu := share * compute.cpu
      memory := share * compute.memory
      storage }

/-- Add the cost of one member's window to the parts of a cost. -/
def chargeWindow (e : CostEngine) (now : Instant) (c : Cost) (a : Activity) : Cost :=
  let hours := Month.activeHours a.start a.finish now
  { c with
    cpu := c.cpu + e.rates.cpuHour * a.metric.cpuRequestCores * hours
    memory := c.memory + e.rates.memoryHour * a.metric.memoryRequestGiB * hours
    storage := c.storage + e.rates.storageHour * bytesToGiB a.storageBytes * hours }

/-- The cost of a group's members since the start of the month. -/
def groupCost (e : CostEngine) (g : GroupSpec) (now : Instant) : Cost :=
  let c := g.windows.values.foldl (e.chargeWindow now) {}
  { c with total := c.cpu + c.memory + c.storage }

end CostEngine

end Chargeback
