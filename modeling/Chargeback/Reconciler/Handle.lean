import Chargeback.Group.Membership
import Chargeback.Inventory
import Chargeback.Reconciler.Event
import Chargeback.Reconciler.Policy
import Chargeback.Resource.Usage

/-!
# Handling of events

An event is first entered into the inventory, whatever the policies say; then it
is exported, unless it is to be ignored; and last, if it is about a pod, it
changes the groups that the pod belongs to. A full buffer does not hinder the
groups, and a failure of the groups does not take back the export.

## Main definitions

* `ReconcilerRequest`: what the handling of an event asks for.
* `Reconciler`: the settings of the handling.
* `Reconciler.handle`: the handling of an event.
-/

namespace Chargeback

/-- What the handling of an event asks for. -/
inductive ReconcilerRequest where
  /-- Enter a change of an object into the inventory. -/
  | track (action : Action) (object : Resource)
  | countEvent (kind : ResourceKind) (action : Action)
  /-- Offer a payload to the buffer. -/
  | offer (p : Payload)
  /-- The bytes of the known claims among the given keys. -/
  | claimedBytes (keys : List String)
  | group (r : AggregatorRequest)

/-- The interface of the handling of events. -/
abbrev ReconcilerInterface : Interface where
  Request := ReconcilerRequest
  Answer
    | .track .. => Unit
    | .countEvent .. => Unit
    | .offer _ => Unit
    | .claimedBytes _ => Except SumOverflow UInt64
    | .group r => AggregatorInterface.Answer r

/-- A program that handles events. -/
abbrev ReconcilerProgram := Program ReconcilerInterface

/-- The settings of the handling of events. -/
structure Reconciler where
  policies : ReconcilerSettings := {}
  retry : RetryPolicy := {}
  cloudType : String := "aws"
  serializer : Serializer := .ofFields

namespace Reconciler

/-- Make a request. -/
def ask (r : ReconcilerRequest) : ReconcilerProgram (ReconcilerInterface.Answer r) :=
  Program.ask (I := ReconcilerInterface) r

/-- Run a program on groups; its failure is one of the event's. -/
def onGroups (p : GroupProgram (Except AggregateError Unit)) :
    ReconcilerProgram (Except ReconcileError Unit) := do
  match ← p.embed fun r => ask (.group r) with
  | .ok () => pure (.ok ())
  | .error e => pure (.error (.aggregate e))

/-- The handler of an event. -/
def handlerOf (c : Reconciler) (e : ResourceEvent) : Handler :=
  Handler.select c.policies.updatePolicy c.policies.deletePolicy e.kind e.action

/-- The payload that an event about an object exports. -/
def payload (c : Reconciler) (e : ResourceEvent) (object : Resource) : Payload where
  key := e.key
  action := e.action
  namespaceName := object.metadata.namespaceName.getD ""
  kind := e.kind
  cloudType := c.cloudType
  data := c.serializer.text object
  captured := some e.observed

/-- What a pod contributes to its groups, given the bytes that it claims. A pod
that does not say since when it runs, runs since it was observed. -/
def memberUsage (e : ResourceEvent) (pod : Resource) (bytes : UInt64) : MemberUsage where
  metric := pod.metric
  storageBytes := bytes
  started := pod.started?.getD e.observed

/-- A pod enters its groups, or its usage changes there. -/
def joinGroups (c : Reconciler) (e : ResourceEvent) (pod : Resource) :
    ReconcilerProgram (Except ReconcileError Unit) := do
  match ← ask (.claimedBytes pod.claimKeys) with
  | .error _ => pure (.error .storageOverflow)
  | .ok bytes =>
    onGroups (Membership.join c.retry c.policies.labelGroups (.ofResource pod)
      (memberUsage e pod bytes) e.observed)

/-- A pod leaves its groups, at the time of its deletion if it gives one. -/
def leaveGroups (c : Reconciler) (e : ResourceEvent) (pod : Resource) :
    ReconcilerProgram (Except ReconcileError Unit) :=
  onGroups (Membership.leave c.retry (.ofResource pod) (pod.metadata.deleted.getD e.observed))

/-- What an event about an object changes in the groups. Only pods are members. -/
def aggregate (c : Reconciler) (e : ResourceEvent) (object : Resource) :
    ReconcilerProgram (Except ReconcileError Unit) :=
  match object.kind, c.handlerOf e with
  | .pod, .exportAndUpsert => c.joinGroups e object
  | .pod, .exportAndPurge => c.leaveGroups e object
  | _, _ => pure (.ok ())

/-- Handle an event, and give back the handler that was chosen. -/
def handle (c : Reconciler) (e : ResourceEvent) :
    ReconcilerProgram (Except ReconcileError Handler) := do
  match e.object with
  | none => pure (.error (.missingObject e.key))
  | some object =>
    let () ← ask (.track e.action object)
    let () ← ask (.countEvent e.kind e.action)
    match c.handlerOf e with
    | .ignore => pure (.ok .ignore)
    | handler =>
      let () ← ask (.offer (c.payload e object))
      match ← c.aggregate e object with
      | .ok () => pure (.ok handler)
      | .error failure => pure (.error failure)

end Reconciler

end Chargeback
