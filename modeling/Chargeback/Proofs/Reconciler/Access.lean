import Chargeback.Proofs.Program.Protocol
import Chargeback.Proofs.Reconciler.CurrentPods
import Chargeback.Proofs.Reconciler.Offers

/-!
# Which events reach the store of groups

Joining groups and leaving them both begin with a read of the store. Events about pods lead to
one of the two, unless their handler leaves the groups alone or the claims of the pod cannot be
added up. No other event gets as far as the store, and none fails in the groups without having
called it.

## Main definitions

* `StartsInStore`: the program begins with a call of the store.
* `Reconciler.accessing`: a protocol that notes whether the store has been called.
* `Reconciler.ReachesGroups`: the event is to change groups.
* `Reconciler.accesses_told`: which events call the store.
-/

namespace Chargeback

/-! ## Programs that begin in the store -/

section Groups

variable {α β : Type}

/-- The program begins with a call of the store. -/
def StartsInStore (p : GroupProgram α) : Prop := ∃ r next, p = .call (.store r) next

theorem StartsInStore.bind {p : GroupProgram α} (h : StartsInStore p) (f : α → GroupProgram β) :
    StartsInStore (p.bind f) := by
  obtain ⟨r, next, rfl⟩ := h
  exact ⟨r, _, rfl⟩

namespace Aggregator

variable (p : RetryPolicy) (name : String)

theorem retrying_starts (r : StoreRequest) : StartsInStore (retrying p r) := by
  unfold retrying
  cases p.retries with
  | zero => exact ⟨r, _, rfl⟩
  | succ left => exact ⟨r, _, rfl⟩

theorem get_starts : StartsInStore (get p name) := (retrying_starts p _).bind _

theorem current_starts (createAs : Option GroupType) : StartsInStore (current p name createAs) := by
  cases createAs with
  | none => exact get_starts p name
  | some type => exact ((get_starts p name).bind _).bind _

theorem modify_starts (createAs : Option GroupType) (change : GroupSpec → GroupSpec) :
    StartsInStore (modify p name createAs change) := by
  have honce : StartsInStore (attemptOnce p name createAs change) :=
    (current_starts p name createAs).bind _
  unfold modify
  cases p.retries with
  | zero => exact honce.bind _
  | succ left => exact honce.bind _

end Aggregator

namespace Membership

variable (p : RetryPolicy) (pod : PodMember)

theorem join_starts (labelGroups : Bool) (usage : MemberUsage) (observed : Instant) :
    StartsInStore (join p labelGroups pod usage observed) :=
  (((Aggregator.modify_starts p pod.namespaceGroup _ _).bind _).bind _).bind _

theorem leave_starts (ended : Instant) : StartsInStore (leave p pod ended) :=
  ((Aggregator.modify_starts p pod.namespaceGroup _ _).bind _).bind _

end Membership

end Groups

/-! ## Events -/

/-- The request is a call of the store. -/
def ReconcilerRequest.callsStore : ReconcilerRequest → Bool
  | .group (.store _) => true
  | _ => false

namespace Reconciler

/-- Anything may be asked for, and it is noted whether the store has been called. -/
def accessing : Protocol ReconcilerInterface Bool where
  allows _ _ := True
  after accessed r _ := accessed || r.callsStore

/-- The event is to change groups: it is about a pod, and its handler does not leave the groups
alone. -/
def ReachesGroups (c : Reconciler) (e : ResourceEvent) : Prop :=
  ∃ object, e.object = some object ∧ object.kind = .pod ∧ ¬LeavesGroups (c.handlerOf e)

/-- What has been called goes with the result: the store, exactly by what is to reach the groups
and does not fail before; and by all that fails in the groups. -/
structure Told {α : Type} (reaches : Prop) (accessed : Bool) (result : Except ReconcileError α) :
    Prop where
  accessed_iff : accessed = true ↔ reaches ∧ result ≠ .error .storageOverflow
  of_aggregate : ∀ failure, result = .error (.aggregate failure) → accessed = true

variable {c : Reconciler} {e : ResourceEvent} {object : Resource} {α : Type}

/-- What ends well has called the store exactly if it was to reach the groups. -/
theorem Told.of_ok {reaches : Prop} {accessed : Bool} {a : α} (h : accessed = true ↔ reaches) :
    Told reaches accessed (.ok a) where
  accessed_iff := by simp [h]
  of_aggregate _ hfailed := by cases hfailed

/-- A call is not forgotten. -/
theorem accessing_stays (p : ReconcilerProgram α) :
    p.Obeys accessing (fun accessed _ => accessed = true) true := by
  induction p with
  | done a => rfl
  | call r next ih => exact ⟨trivial, ih⟩

theorem onGroups_told {p : GroupProgram (Except AggregateError Unit)} (h : StartsInStore p)
    {reaches : Prop} (hreaches : reaches) : (onGroups p).Obeys accessing (Told reaches) false := by
  obtain ⟨r, next, rfl⟩ := h
  refine ⟨trivial, fun a => (accessing_stays _).bind ?_⟩
  rintro accessed (failure | ⟨⟩) rfl
  · exact ⟨by simp [hreaches], fun _ _ => rfl⟩
  · exact .of_ok (by simp [hreaches])

theorem aggregate_told :
    (c.aggregate e object).Obeys accessing
      (Told (object.kind = .pod ∧ ¬LeavesGroups (c.handlerOf e))) false := by
  by_cases hreaches : object.kind = .pod ∧ ¬LeavesGroups (c.handlerOf e)
  · unfold aggregate
    split
    next =>
      refine ⟨trivial, fun a => ?_⟩
      cases a with
      | error overflow => exact ⟨by simp [accessing, ReconcilerRequest.callsStore], nofun⟩
      | ok bytes => exact onGroups_told (Membership.join_starts ..) hreaches
    next => exact onGroups_told (Membership.leave_starts ..) hreaches
    next hupsert hpurge =>
      exact absurd ⟨fun h => hupsert hreaches.1 h, fun h => hpurge hreaches.1 h⟩ hreaches.2
  · have hnothing : c.aggregate e object = .done (.ok ()) := by
      by_cases hkind : object.kind = .pod
      · exact aggregate_of_leavesGroups (Classical.not_not.mp fun h => hreaches ⟨hkind, h⟩)
      · exact aggregate_of_not_pod hkind
    rw [hnothing]
    exact .of_ok (by simp [hreaches])

/-- From the offer on, the result is that of the groups. -/
theorem offer_told (he : e.object = some object) (handler : Handler) :
    (do
      let () ← ask (.offer (c.payload e object))
      match ← c.aggregate e object with
      | .ok () => pure (.ok handler)
      | .error failure => pure (.error failure) :
        ReconcilerProgram (Except ReconcileError Handler)).Obeys
      accessing (Told (c.ReachesGroups e)) false := by
  have hreaches : c.ReachesGroups e ↔ object.kind = .pod ∧ ¬LeavesGroups (c.handlerOf e) := by
    simp [ReachesGroups, he]
  rw [hreaches]
  refine ⟨trivial, fun _ => aggregate_told.bind ?_⟩
  rintro accessed (failure | ⟨⟩) told
  · exact ⟨by simpa using told.accessed_iff, by simpa using told.of_aggregate⟩
  · exact .of_ok (by simpa using told.accessed_iff)

/-- Before the groups, nothing calls the store. -/
theorem handle_told (c : Reconciler) (e : ResourceEvent) :
    (c.handle e).Obeys accessing (Told (c.ReachesGroups e)) false := by
  cases he : e.object with
  | none =>
    rw [handle_of_no_object he]
    exact ⟨by simp [ReachesGroups, he], nofun⟩
  | some object =>
    rw [handle, he]
    refine ⟨trivial, fun _ => ⟨trivial, fun _ => ?_⟩⟩
    cases hhandler : c.handlerOf e with
    | ignore => exact .of_ok (by simp [ReachesGroups, LeavesGroups, hhandler, accessing,
        ReconcilerRequest.callsStore])
    | exportOnly => exact offer_told he _
    | exportAndUpsert => exact offer_told he _
    | exportAndPurge => exact offer_told he _

/-- Whether the store is called when an event is handled in some environment. -/
def accesses {σ : Type} (c : Reconciler) (e : ResourceEvent)
    (answer : (r : ReconcilerRequest) → σ → ReconcilerInterface.Answer r × σ) (s : σ) : Bool :=
  (c.handle e).noted accessing.after answer false s

theorem accesses_told {σ : Type} (c : Reconciler) (e : ResourceEvent)
    (answer : (r : ReconcilerRequest) → σ → ReconcilerInterface.Answer r × σ) (s : σ) :
    Told (c.ReachesGroups e) (c.accesses e answer s) ((c.handle e).run answer s).1 :=
  (c.handle_told e).noted answer s

end Reconciler

end Chargeback
