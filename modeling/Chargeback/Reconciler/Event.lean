import Chargeback.Group.Aggregator
import Chargeback.Health
import Chargeback.Payload
import Chargeback.Resource.Basic

/-!
# Events of resources

An event says what happened to which resource, and carries the object as it was
then. Its kind and its key are its own: they are taken from the object when the
event is made, but are not looked up again later.

## Main definitions

* `ResourceEvent`: a classified change of a resource.
* `ReconcileError`: why an event could not be handled, and the panic that ends its handling.
-/

namespace Chargeback

/-- A classified change of a resource. -/
structure ResourceEvent where
  kind : ResourceKind
  action : Action
  /-- The key of the resource among those of its kind. -/
  key : String
  object : Option Resource
  observed : Instant
deriving DecidableEq

namespace ResourceEvent

/-- The event of an action on an object, observed at a given time. -/
def new (action : Action) (object : Resource) (observed : Instant) : ResourceEvent :=
  { kind := object.kind, action, key := object.key, object := some object, observed }

end ResourceEvent

/-- Why an event could not be handled. -/
inductive ReconcileError where
  | missingObject (key : String)
  | aggregate (e : AggregateError)
  /-- A panic: the claims of a pod are larger than a word of 64 bits can hold. Nobody takes
  note of it, and nothing is done after it. -/
  | storageOverflow
deriving DecidableEq, Repr

namespace ReconcileError

/-- The text of a failure, or of a panic. -/
def message : ReconcileError → String
  | missingObject key => "event for " ++ key ++ " carries no object"
  | aggregate e => e.message
  | storageOverflow => "attempt to add with overflow"

/-- The stage that a failure is reported for; none for a panic, which is not reported. -/
def component? : ReconcileError → Option String
  | missingObject _ => some Component.reconciler
  | aggregate _ => some Component.groupStore
  | storageOverflow => none

end ReconcileError

end Chargeback
