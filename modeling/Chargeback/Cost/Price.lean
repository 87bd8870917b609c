import Chargeback.KeyMap

/-!
# Price tables

Hourly prices of instance types and monthly prices per gibibyte of storage
classes. A name without a positive price is given the default price, and the
name is reported along with whatever is computed from it.

## Main definitions

* `Priced α`: a result with the names for which the default price stood in.
* `PriceTable`: the prices of instance types and storage classes.
* `PriceTable.reference`: the reference prices.
-/

namespace Chargeback

/-- A result, and the names for which the default price stood in, in the order
in which they were looked up. -/
structure Priced (α : Type) where
  value : α
  missing : List String := []
deriving Repr

namespace Priced

variable {α β : Type}

/-- Use a result in a further computation and keep the missing names of both. -/
def bind (x : Priced α) (f : α → Priced β) : Priced β :=
  let y := f x.value
  { value := y.value, missing := x.missing ++ y.missing }

instance : Monad Priced where
  pure a := { value := a }
  bind := bind

end Priced

/-- The prices of instance types by the hour and of storage classes by the
gibibyte and month. -/
structure PriceTable where
  instances : KeyMap Float := .empty
  storage : KeyMap Float := .empty

namespace PriceTable

/-- The price of everything that has none. -/
def defaultPrice : Float := 0.1

/-- The reference prices of instance types: memory-optimised ones first, then
compute-optimised ones. -/
def referenceInstances : List (String × Float) :=
  [("x1.16xlarge", 6.669), ("x1.32xlarge", 13.338), ("r4.large", 0.133), ("r4.xlarge", 0.266),
    ("r4.2xlarge", 0.532), ("r4.4xlarge", 1.064), ("r4.8xlarge", 2.128),
    ("r4.16xlarge", 4.256), ("c5.large", 0.085), ("c5.xlarge", 0.17), ("c5.2xlarge", 0.34),
    ("c5.4xlarge", 0.68), ("c5.9xlarge", 1.53), ("c5.18xlarge", 3.06), ("c5d.large", 0.096),
    ("c5d.xlarge", 0.192), ("c5d.2xlarge", 0.384), ("c5d.4xlarge", 0.768),
    ("c5d.9xlarge", 1.728), ("c5d.18xlarge", 3.456), ("c4.large", 0.1), ("c4.xlarge", 0.199),
    ("c4.2xlarge", 0.398), ("c4.4xlarge", 0.796), ("c4.8xlarge", 1.591)]

/-- The reference prices of storage classes. -/
def referenceStorage : List (String × Float) :=
  [("gp2", 0.1), ("io1", 0.125), ("st1", 0.045), ("sc1", 0.025)]

/-- The table without prices. -/
def empty : PriceTable := {}

/-- The table of reference prices. -/
def reference : PriceTable where
  instances := KeyMap.ofList referenceInstances
  storage := KeyMap.ofList referenceStorage

/-- Set the price of an instance type. -/
def setInstance (t : PriceTable) (name : String) (price : Float) : PriceTable :=
  { t with instances := t.instances.insert name price }

/-- Set the price of a storage class. -/
def setStorage (t : PriceTable) (name : String) (price : Float) : PriceTable :=
  { t with storage := t.storage.insert name price }

/-- The positive price that a table has for a name, or else the default. -/
def priceIn (prices : KeyMap Float) (name : String) : Priced Float :=
  match prices.get? name with
  | some p => if p > 0.0 then pure p else { value := defaultPrice, missing := [name] }
  | none => { value := defaultPrice, missing := [name] }

/-- The hourly price of an instance type. -/
def instancePrice (t : PriceTable) (name : String) : Priced Float := priceIn t.instances name

/-- The monthly price of a gibibyte of a storage class. -/
def storagePrice (t : PriceTable) (name : String) : Priced Float := priceIn t.storage name

end PriceTable

end Chargeback
