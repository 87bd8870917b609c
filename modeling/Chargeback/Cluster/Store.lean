import Chargeback.Cluster.Page
import Chargeback.Cluster.Reply
import Chargeback.Store.Request
import Chargeback.Subscriber

/-!
# A store in the cluster

Groups and subscribers are records of the cluster, in one namespace. A group is
fetched, created and replaced under its name; the version that a replaced group
carries makes the write conditional.

## Main definitions

* `StoredSubscriber`: a subscriber as it is stored.
* `ClusterStore.call`: a call of the store of groups, as a request to the cluster.
* `ClusterStore.subscribers`: all subscribers.
-/

namespace Chargeback

/-- A subscriber as it is stored. -/
structure StoredSubscriber where
  metadata : Metadata
  spec : Subscriber
deriving DecidableEq, Inhabited

namespace StoredSubscriber

/-- A stored subscriber as a JSON value. -/
def toJson (s : StoredSubscriber) : Json :=
  .object
    [("apiVersion", .string StoredGroup.apiVersion), ("kind", .string "Subscriber"),
      ("metadata", s.metadata.toJson), ("spec", s.spec.toJson)]

/-- The stored subscriber of a JSON value, which has to give all four parts. -/
def ofJson? (j : Json) : Option StoredSubscriber := do
  let r ← Json.record? ["apiVersion", "kind", "metadata", "spec"] j
  let _ ← r.required? "apiVersion" Json.text?
  let _ ← r.required? "kind" Json.text?
  some
    { metadata := ← r.required? "metadata" Metadata.ofJson?
      spec := ← r.required? "spec" Subscriber.ofJson? }

end StoredSubscriber

namespace ClusterStore

/-- The path of all records of a namespace that have the given plural name. -/
def path (ns plural : String) : String :=
  "/apis/" ++ StoredGroup.apiVersion ++ "/namespaces/" ++ ns ++ "/" ++ plural

/-- The path of all groups. -/
def groupsPath (ns : String) : String := path ns "groups"

/-- The path of a group. -/
def groupPath (ns name : String) : String := groupsPath ns ++ "/" ++ name

/-- The request that a call makes. -/
def request (ns : String) : StoreRequest → ClusterRequest
  | .get name => { path := groupPath ns name }
  | .create g => { method := "POST", path := groupsPath ns, body := some g.toJson }
  | .replace g => { method := "PUT", path := groupPath ns g.name, body := some g.toJson }
  | .list => { path := groupsPath ns }

/-- The result of a call for the record of a name. -/
def result {α : Type} (name : String) : Except ClusterError α → Except StoreError α
  | .ok a => .ok a
  | .error e => .error (.ofCluster name e)

/-- The answer to a call that a reply gives. -/
def answer : (r : StoreRequest) → Reply → r.Answer
  | .get name, reply => result name (reply.value? StoredGroup.ofJson?)
  | .create g, reply => result g.name (reply.value StoredGroup.ofJson?)
  | .replace g, reply => result g.name (reply.value StoredGroup.ofJson?)
  | .list, reply => result "groups" ((reply.value (Page.ofJson? StoredGroup.ofJson?)).map Page.items)

/-- Call the store of groups in a namespace. -/
def call (ns : String) (r : StoreRequest) : ClusterProgram r.Answer := do
  let reply ← Program.ask (I := ClusterInterface) (request ns r)
  pure (answer r reply)

/-- All subscribers in a namespace. -/
def subscribers (ns : String) : ClusterProgram (Except StoreError (List StoredSubscriber)) := do
  let reply ← Program.ask (I := ClusterInterface) { path := path ns "subscribers" }
  pure
    (result "subscribers" ((reply.value (Page.ofJson? StoredSubscriber.ofJson?)).map Page.items))

end ClusterStore

end Chargeback
