import Chargeback.Amount

/-!
# Resources of a workload

What a workload asks for and what it may use at most. CPU is counted in
millicores and memory in bytes, so that values stay exact and can be summed over
any number of members; sums stop at the largest amount in each field.

## Main definitions

* `Metric`: requested and limited CPU and memory.
* `Metric.sum`: the total over a list, from left to right.
-/

namespace Chargeback

/-- Requested and limited resources; CPU in millicores, memory in bytes. -/
structure Metric where
  cpuRequest : UInt64 := 0
  cpuLimit : UInt64 := 0
  memoryRequest : UInt64 := 0
  memoryLimit : UInt64 := 0
deriving DecidableEq, Repr, Inhabited

namespace Metric

/-- Nothing requested and nothing limited. -/
def zero : Metric := {}

/-- Fieldwise addition that stops at the largest amount. -/
def add (a b : Metric) : Metric where
  cpuRequest := Amount.add a.cpuRequest b.cpuRequest
  cpuLimit := Amount.add a.cpuLimit b.cpuLimit
  memoryRequest := Amount.add a.memoryRequest b.memoryRequest
  memoryLimit := Amount.add a.memoryLimit b.memoryLimit

instance : Add Metric := ⟨add⟩

/-- The total of a list, added to zero from left to right. -/
def sum (l : List Metric) : Metric := l.foldl (· + ·) zero

/-- Requested CPU in cores. -/
def cpuRequestCores (m : Metric) : Float := m.cpuRequest.toFloat / 1000.0

end Metric

/-- Bytes in gibibytes. -/
def bytesToGiB (bytes : UInt64) : Float := bytes.toFloat / (1024.0 * 1024.0 * 1024.0)

/-- Requested memory in gibibytes. -/
def Metric.memoryRequestGiB (m : Metric) : Float := bytesToGiB m.memoryRequest

end Chargeback
