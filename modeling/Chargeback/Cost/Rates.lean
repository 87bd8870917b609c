import Chargeback.Decimal.Basic
import Chargeback.Json.Record
import Chargeback.Text.Blank

/-!
# Rates of resources

What a core, a gibibyte of memory and a gibibyte of storage cost by the hour.
The rates are read from a map of texts; a rate that is missing, is no number, is
negative or is not finite falls back to its default without touching the others.

## Main definitions

* `CostRates`: the three rates.
* `CostRates.ofData`: the rates of a map, with the keys that had no valid one.
-/

namespace Chargeback

/-- Cost of one unit of a resource for one hour. -/
structure CostRates where
  cpuHour : Float := 0.024
  memoryHour : Float := 0.01
  storageHour : Float := 0.0033
deriving Repr, Inhabited

namespace CostRates

/-- The key of the rate of a core. -/
def cpuKey : String := "cpuCostPerCPUPerHour"

/-- The key of the rate of a gibibyte of memory. -/
def memoryKey : String := "memCostPerGBPerHour"

/-- The key of the rate of a gibibyte of storage. -/
def storageKey : String := "storageCostPerGBPerHour"

/-- The rates that stand in for missing ones. -/
def default : CostRates := {}

/-- A finite number that is not negative, with blanks around it. -/
def readRate? (raw : String) : Option Float :=
  (Decimal.readFloat? (Text.trim raw.toList)).filter fun x => x.isFinite && x ≥ 0.0

/-- The rate under a key, and the key if what stands there is no rate. -/
def rateOf (data : KeyMap String) (key : String) (default : Float) : Float × List String :=
  match data.get? key with
  | none => (default, [])
  | some raw =>
    match readRate? raw with
    | some x => (x, [])
    | none => (default, [key])

/-- The rates of a map, and the keys under which there is something that is no
rate. -/
def ofData (data : KeyMap String) : CostRates × List String :=
  let (cpuHour, badCpu) := rateOf data cpuKey default.cpuHour
  let (memoryHour, badMemory) := rateOf data memoryKey default.memoryHour
  let (storageHour, badStorage) := rateOf data storageKey default.storageHour
  ({ cpuHour, memoryHour, storageHour }, badCpu ++ badMemory ++ badStorage)

/-- Rates as a JSON value, with doubles written in a given way. -/
def toJson (float : Float → Json) (r : CostRates) : Json :=
  .object
    [(cpuKey, float r.cpuHour), (memoryKey, float r.memoryHour),
      (storageKey, float r.storageHour)]

/-- The rates of a JSON value; all three have to be given. -/
def ofJson? (j : Json) : Option CostRates := do
  let r ← Json.record? [cpuKey, memoryKey, storageKey] j
  some
    { cpuHour := ← r.required? cpuKey Json.float?
      memoryHour := ← r.required? memoryKey Json.float?
      storageHour := ← r.required? storageKey Json.float? }

end CostRates

end Chargeback
