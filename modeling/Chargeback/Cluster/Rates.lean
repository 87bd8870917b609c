import Chargeback.Cluster.Reply
import Chargeback.Cost.Rates
import Chargeback.Resource.Basic

/-!
# Rates kept in the cluster

The rates stand in a map of texts that the cluster keeps under a name. When it
cannot be read the default rates hold.

## Main definitions

* `RatesRecord.data?`: the map in a JSON value.
* `CostRates.fetch`: the rates of a namespace.
-/

namespace Chargeback

namespace RatesRecord

/-- The path of a map. -/
def path (ns name : String) : String := "/api/v1/namespaces/" ++ ns ++ "/configmaps/" ++ name

/-- The map in a JSON value; it is empty when the value gives none. -/
def data? (j : Json) : Option (KeyMap String) := do
  let f ← Fields.ofJson? j
  if Resource.fieldIs f "apiVersion" "v1" && Resource.fieldIs f "kind" "ConfigMap" then
    let _ ← f.read? "metadata" Metadata.ofJson?
    let _ ← f.read? "immutable" Json.bool?
    f.readD? "data" .empty (Json.map? Json.text?)
  else none

end RatesRecord

/-- The rates that stand in a namespace under a name. -/
def CostRates.fetch (ns name : String) : ClusterProgram CostRates := do
  let reply ← Program.ask (I := ClusterInterface) { path := RatesRecord.path ns name }
  match reply.value? RatesRecord.data? with
  | .ok (some data) => pure (ofData data).1
  | _ => pure default

end Chargeback
