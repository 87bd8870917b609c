import Chargeback.Group.Aggregator
import Chargeback.Resource.Basic

/-!
# Membership of pods

A pod belongs to the group of its namespace, under its name, and to the groups
whose selectors its labels match, under a key that names its namespace too. When
its labels change it leaves the groups that no longer match; when it is deleted
it leaves every group that holds it, whatever its labels say then.

## Main definitions

* `PodMember`: what decides to which groups a pod belongs.
* `Membership.join`: a pod enters its groups, or its usage changes.
* `Membership.leave`: a pod leaves all its groups.
-/

namespace Chargeback

/-- What decides to which groups a pod belongs. -/
structure PodMember where
  namespaceName : String
  name : String
  labels : KeyMap String
deriving DecidableEq

namespace PodMember

/-- The pod that an object describes. -/
def ofResource (r : Resource) : PodMember where
  namespaceName := r.metadata.namespaceName.getD "default"
  name := r.metadata.nameOrGenerated
  labels := r.metadata.labels.getD .empty

/-- The key of a pod in the groups that select by labels. -/
def selectorKey (m : PodMember) : String := m.namespaceName ++ ":" ++ m.name

/-- The name of the group of the pod's namespace. -/
def namespaceGroup (m : PodMember) : String := namespaceGroupName m.namespaceName

end PodMember

namespace Membership

/-- The result of a change whose record is of no interest. -/
def discard {α : Type} (change : GroupProgram (Except AggregateError α)) :
    GroupProgram (Except AggregateError Unit) := do
  match ← change with
  | .ok _ => pure (.ok ())
  | .error e => pure (.error e)

/-- One change after the other; the first failure ends the sequence. -/
def andThen (first second : GroupProgram (Except AggregateError Unit)) :
    GroupProgram (Except AggregateError Unit) := do
  match ← first with
  | .ok () => second
  | .error e => pure (.error e)

/-- A change for each group in turn; the first failure ends the sequence. -/
def inTurn (change : StoredGroup → GroupProgram (Except AggregateError Unit)) :
    List StoredGroup → GroupProgram (Except AggregateError Unit)
  | [] => pure (.ok ())
  | g :: rest => andThen (change g) (inTurn change rest)

/-- A change for each group that selects by labels. -/
def inSelectorGroups (p : RetryPolicy)
    (change : StoredGroup → GroupProgram (Except AggregateError Unit)) :
    GroupProgram (Except AggregateError Unit) := do
  match ← Aggregator.selectorGroups p with
  | .ok groups => inTurn change groups
  | .error e => pure (.error e)

/-- Make a pod a member of a group that selects it, and take it out of one that
holds it but does not select it any more. -/
def settle (p : RetryPolicy) (pod : PodMember) (usage : MemberUsage) (observed : Instant)
    (g : StoredGroup) : GroupProgram (Except AggregateError Unit) :=
  if g.spec.selects pod.labels then
    discard (Aggregator.upsert p g.name g.spec.type pod.selectorKey usage)
  else if g.spec.hasMember pod.selectorKey then
    discard (Aggregator.remove p g.name pod.selectorKey observed)
  else pure (.ok ())

/-- A pod enters its groups, or its usage changes there. -/
def join (p : RetryPolicy) (labelGroups : Bool) (pod : PodMember) (usage : MemberUsage)
    (observed : Instant) : GroupProgram (Except AggregateError Unit) :=
  andThen (discard (Aggregator.upsert p pod.namespaceGroup .byNamespace pod.name usage))
    (if labelGroups then inSelectorGroups p (settle p pod usage observed) else pure (.ok ()))

/-- Take a pod out of a group that holds it. -/
def release (p : RetryPolicy) (pod : PodMember) (ended : Instant) (g : StoredGroup) :
    GroupProgram (Except AggregateError Unit) :=
  if g.spec.hasMember pod.selectorKey then
    discard (Aggregator.remove p g.name pod.selectorKey ended)
  else pure (.ok ())

/-- A pod leaves all groups that hold it. -/
def leave (p : RetryPolicy) (pod : PodMember) (ended : Instant) :
    GroupProgram (Except AggregateError Unit) :=
  andThen (discard (Aggregator.remove p pod.namespaceGroup pod.name ended))
    (inSelectorGroups p (release p pod ended))

end Membership

end Chargeback
