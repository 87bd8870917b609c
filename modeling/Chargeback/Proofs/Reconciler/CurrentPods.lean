import Chargeback.Reconciler.Handle

/-!
# The pods of a history

Which pods there are after a history of events, and what is known of them. A pod is
there from its first event that counts until it is deleted for good: a creation counts
always, an update only if updates are recomputed, and a deletion only if the deleted are
purged. What is known of a pod is the object of its last event that counts.

## Main definitions

* `ResourceEvent.pod?`, `ResourceEvent.applies`, `ResourceEvent.purges`: the pod that an
  event is about, and whether the event counts.
* `CurrentPods.after`, `currentPods`: the pods after an event, and after a history.
-/

namespace Chargeback

namespace ResourceEvent

/-- The pod that an event is about, if it is about one. An event whose own kind costs
nothing is not, whatever its object is. -/
def pod? (e : ResourceEvent) : Option Resource :=
  e.object.filter fun object => object.kind = .pod && e.kind.isCosted

/-- The object of the event counts from now on. -/
def applies (s : ReconcilerSettings) (e : ResourceEvent) : Bool :=
  e.action = .create || e.action = .update && s.updatePolicy = .recompute

/-- The object of the event is gone for good. -/
def purges (s : ReconcilerSettings) (e : ResourceEvent) : Bool :=
  e.action = .delete && s.deletePolicy = .purge

end ResourceEvent

/-- Pods by namespace and name. -/
abbrev CurrentPods := String → String → Option Resource

namespace CurrentPods

/-- No pods at all. -/
def none : CurrentPods := fun _ _ => .none

/-- Enter a pod, or take it out. -/
def set (pods : CurrentPods) (m : PodMember) (pod : Option Resource) : CurrentPods := fun ns name =>
  if m.namespaceName = ns ∧ m.name = name then pod else pods ns name

theorem set_of_ne {pods : CurrentPods} {m : PodMember} {pod : Option Resource} {ns name : String}
    (h : ¬(m.namespaceName = ns ∧ m.name = name)) : pods.set m pod ns name = pods ns name :=
  if_neg h

theorem set_self {pods : CurrentPods} {m : PodMember} {pod : Option Resource} :
    pods.set m pod m.namespaceName m.name = pod := if_pos ⟨rfl, rfl⟩

/-- The pods after an event. -/
def after (s : ReconcilerSettings) (pods : CurrentPods) (e : ResourceEvent) : CurrentPods :=
  match e.pod? with
  | .none => pods
  | some pod =>
    if e.applies s then pods.set (.ofResource pod) (some pod)
    else if e.purges s then pods.set (.ofResource pod) .none
    else pods

/-- An event that is about no pod, or does not count, leaves the pods as they are. -/
theorem after_of_neither {s : ReconcilerSettings} {pods : CurrentPods} {e : ResourceEvent}
    (h : e.pod? = .none ∨ e.applies s = false ∧ e.purges s = false) : pods.after s e = pods := by
  rw [after]
  cases hpod : e.pod? with
  | none => rfl
  | some pod =>
    obtain ⟨happlies, hpurges⟩ := h.resolve_left (by simp [hpod])
    simp [happlies, hpurges]

end CurrentPods

/-- The pods after a history. -/
def currentPods (s : ReconcilerSettings) (events : List ResourceEvent) : CurrentPods :=
  events.foldl (CurrentPods.after s) .none

theorem currentPods_append (s : ReconcilerSettings) (events : List ResourceEvent)
    (e : ResourceEvent) :
    currentPods s (events ++ [e]) = (currentPods s events).after s e := by
  rw [currentPods, List.foldl_append]
  rfl

/-! ## Handlers -/

namespace Reconciler

variable {c : Reconciler} {e : ResourceEvent} {object : Resource}

/-- The handler leaves the groups as they are. -/
def LeavesGroups (h : Handler) : Prop := h ≠ .exportAndUpsert ∧ h ≠ .exportAndPurge

theorem leavesGroups_of_not_costed (hkind : e.kind.isCosted = false) :
    LeavesGroups (c.handlerOf e) := by
  rw [handlerOf]
  cases e.action <;> cases c.policies.updatePolicy <;> cases c.policies.deletePolicy <;>
    simp [Handler.select, Handler.ofCreate, hkind, LeavesGroups]

theorem leavesGroups_of_neither (happlies : e.applies c.policies = false)
    (hpurges : e.purges c.policies = false) : LeavesGroups (c.handlerOf e) := by
  rw [handlerOf]
  rw [ResourceEvent.applies] at happlies
  rw [ResourceEvent.purges] at hpurges
  cases haction : e.action with
  | create => simp [haction] at happlies
  | update =>
    cases hupdate : c.policies.updatePolicy with
    | ignore => simp [Handler.select, LeavesGroups]
    | recompute => simp [haction, hupdate] at happlies
  | delete =>
    cases hdelete : c.policies.deletePolicy with
    | retain => simp [Handler.select, LeavesGroups]
    | purge => simp [haction, hdelete] at hpurges

theorem handlerOf_of_applies (hkind : e.kind.isCosted) (h : e.applies c.policies) :
    c.handlerOf e = .exportAndUpsert := by
  rw [ResourceEvent.applies] at h
  rw [handlerOf]
  cases haction : e.action with
  | create => simp [Handler.select, Handler.ofCreate, hkind]
  | update =>
    cases hupdate : c.policies.updatePolicy with
    | ignore => simp [haction, hupdate] at h
    | recompute => simp [Handler.select, Handler.ofCreate, hkind]
  | delete => simp [haction] at h

theorem handlerOf_of_purges (hkind : e.kind.isCosted) (h : e.purges c.policies) :
    c.handlerOf e = .exportAndPurge := by
  rw [ResourceEvent.purges] at h
  rw [handlerOf]
  cases haction : e.action with
  | create => simp [haction] at h
  | update => simp [haction] at h
  | delete =>
    cases hdelete : c.policies.deletePolicy with
    | retain => simp [haction, hdelete] at h
    | purge => simp [Handler.select, hkind]

/-! ## What an event changes in the groups -/

theorem aggregate_of_leavesGroups (h : LeavesGroups (c.handlerOf e)) :
    c.aggregate e object = .done (.ok ()) := by
  unfold aggregate
  split
  next _ hhandler => exact absurd hhandler h.1
  next _ hhandler => exact absurd hhandler h.2
  next => rfl

theorem aggregate_of_not_pod (h : object.kind ≠ .pod) : c.aggregate e object = .done (.ok ()) := by
  unfold aggregate
  split
  next hkind _ => exact absurd hkind h
  next hkind _ => exact absurd hkind h
  next => rfl

/-- The groups do not change for an event that is about no pod. -/
theorem aggregate_of_no_pod (he : e.object = some object) (hpod : e.pod? = none) :
    c.aggregate e object = .done (.ok ()) := by
  by_cases hkind : object.kind = .pod
  · refine aggregate_of_leavesGroups (leavesGroups_of_not_costed ?_)
    simpa [ResourceEvent.pod?, he, hkind] using hpod
  · exact aggregate_of_not_pod hkind

/-- A pod that an event is about is its object, and the event's kind has costs. -/
theorem of_pod?_eq_some {pod : Resource} (h : e.pod? = some pod) :
    e.object = some pod ∧ pod.kind = .pod ∧ e.kind.isCosted := by
  rw [ResourceEvent.pod?, Option.filter_eq_some_iff] at h
  simpa using h

theorem aggregate_of_applies (hpod : e.pod? = some object) (h : e.applies c.policies) :
    c.aggregate e object = c.joinGroups e object := by
  obtain ⟨-, hkind, hcosted⟩ := of_pod?_eq_some hpod
  rw [aggregate, hkind, handlerOf_of_applies hcosted h]

theorem aggregate_of_purges (hpod : e.pod? = some object) (h : e.purges c.policies) :
    c.aggregate e object = c.leaveGroups e object := by
  obtain ⟨-, hkind, hcosted⟩ := of_pod?_eq_some hpod
  rw [aggregate, hkind, handlerOf_of_purges hcosted h]

end Reconciler

end Chargeback
