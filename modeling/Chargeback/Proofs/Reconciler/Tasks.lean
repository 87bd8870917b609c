import Chargeback.Inventory.Tracking
import Chargeback.Proofs.Group.Repeats
import Chargeback.Proofs.Reconciler.CurrentPods

/-!
# What an event is to do in the groups

When an event has been entered into the inventory and its payload has been offered, what is
left to do is a task in the groups: a pod is to join them or to leave them, or nothing is to
be done. The event, the policies and the inventory decide which task it is, and the groups
do not.

## Main definitions

* `GroupTask`: the tasks.
* `GroupTask.program`: what carries out a task.
* `GroupTask.goal`: what the records become.
* `Reconciler.task`: the task of an event.
-/

namespace Chargeback

/-- What an event is to do in the groups. -/
inductive GroupTask where
  | nothing
  | join (labelGroups : Bool) (pod : PodMember) (usage : MemberUsage) (observed : Instant)
  | leave (pod : PodMember) (ended : Instant)

namespace GroupTask

/-- What carries out a task. -/
def program (retry : RetryPolicy) : GroupTask → GroupProgram (Except AggregateError Unit)
  | nothing => pure (.ok ())
  | join labelGroups pod usage observed => Membership.join retry labelGroups pod usage observed
  | leave pod ended => Membership.leave retry pod ended

/-- What a task is to make of the record under a name. -/
def goal (now : Instant) : GroupTask → String → Option GroupSpec → Option GroupSpec
  | nothing => fun _ s => s
  | join labelGroups pod usage observed => Membership.joined labelGroups pod usage observed now
  | leave pod ended => Membership.left pod ended now

/-- Of the clock, only the month counts. -/
theorem goal_congr {now now' : Instant} (h : Month.start now' = Month.start now) (t : GroupTask) :
    t.goal now' = t.goal now := by
  cases t with
  | nothing => rfl
  | join labelGroups pod usage observed => exact Membership.joined_congr h
  | leave pod ended => exact Membership.left_congr h

end GroupTask

namespace Reconciler

/-- The task of an event, with the inventory into which it has been entered; or why there is
none. -/
def task (c : Reconciler) (i : Inventory) (e : ResourceEvent) : Except ReconcileError GroupTask :=
  match e.object with
  | none => .error (.missingObject e.key)
  | some object =>
    match object.kind, c.handlerOf e with
    | .pod, .exportAndUpsert =>
      match i.claimedBytes object.claimKeys with
      | .error _ => .error .storageOverflow
      | .ok bytes =>
        .ok (.join c.policies.labelGroups (.ofResource object) (memberUsage e object bytes)
          e.observed)
    | .pod, .exportAndPurge =>
      .ok (.leave (.ofResource object) (object.metadata.deleted.getD e.observed))
    | _, _ => .ok .nothing

variable {c : Reconciler} {i : Inventory} {e : ResourceEvent} {object : Resource}

theorem task_of_upsert (he : e.object = some object) (hkind : object.kind = .pod)
    (hhandler : c.handlerOf e = .exportAndUpsert) {bytes : UInt64}
    (hbytes : i.claimedBytes object.claimKeys = .ok bytes) :
    c.task i e = .ok (.join c.policies.labelGroups (.ofResource object) (memberUsage e object bytes)
      e.observed) := by
  simp only [task, he, hkind, hhandler, hbytes]

theorem task_of_overflow (he : e.object = some object) (hkind : object.kind = .pod)
    (hhandler : c.handlerOf e = .exportAndUpsert) {overflow : SumOverflow}
    (hbytes : i.claimedBytes object.claimKeys = .error overflow) :
    c.task i e = .error .storageOverflow := by
  simp only [task, he, hkind, hhandler, hbytes]

theorem task_of_purge (he : e.object = some object) (hkind : object.kind = .pod)
    (hhandler : c.handlerOf e = .exportAndPurge) :
    c.task i e = .ok (.leave (.ofResource object) (object.metadata.deleted.getD e.observed)) := by
  simp only [task, he, hkind, hhandler]

theorem task_of_neither (he : e.object = some object)
    (h : object.kind ≠ .pod ∨ LeavesGroups (c.handlerOf e)) : c.task i e = .ok .nothing := by
  simp only [task, he]
  split
  next hkind hhandler => exact absurd hkind (h.resolve_right fun h => h.1 hhandler)
  next hkind hhandler => exact absurd hkind (h.resolve_right fun h => h.2 hhandler)
  next => rfl

end Reconciler

namespace Inventory

/-- An object that is entered again changes nothing. -/
theorem track_track (i : Inventory) (a : Action) (r : Resource) :
    (i.track a r).track a r = i.track a r := by
  have hforget : (i.forget r).forget r = i.forget r := by
    cases hr : r.content <;>
      simp [forget, hr, removePod, removeNode, removeClaim, KeyMap.erase_of_get?]
  have hobserve : (i.observe r).observe r = i.observe r := by
    cases hr : r.content <;>
      simp [observe, hr, upsertPod, upsertNode, upsertClaim, KeyMap.insert_of_get?]
  cases a with
  | create => exact hobserve
  | update => exact hobserve
  | delete => exact hforget

/-- The inventory into which an event has been entered, if it carries an object. -/
def entered (i : Inventory) (e : ResourceEvent) : Inventory :=
  e.object.elim i (i.track e.action)

theorem entered_entered (i : Inventory) (e : ResourceEvent) :
    (i.entered e).entered e = i.entered e := by
  rw [entered, entered]
  cases e.object with
  | none => rfl
  | some object => exact i.track_track e.action object

end Inventory

end Chargeback
