import Chargeback.Group.Membership
import Chargeback.Proofs.Group.Records
import Chargeback.Time.Month

/-!
# What moves of pods make of records

When a pod joins its groups or leaves them, each record of the store becomes another one,
and which one depends only on the record itself, the pod and the time: the record of the
pod's namespace gets its name, or loses it; and each record that selects by labels gets
its key if it selects the pod, and else loses it.

## Main definitions

* `GroupSpec.basis`: the record that a change starts from.
* `GroupSpec.upserted`, `GroupSpec.removed`: a change of a member, as it is written.
* `GroupSpec.settled`, `GroupSpec.released`: what becomes of a record that selects by labels.
* `GroupSpec.storage?`: the storage of a member.
* `Membership.joined`, `Membership.left`: what becomes of all records.
-/

namespace Chargeback

namespace GroupSpec

variable {s : GroupSpec} {key k : String} {usage : MemberUsage} {ended observed now : Instant}
  {pod : PodMember}

/-- The record that a change starts from: the stored one, or else the empty one that the
change creates. -/
def basis (name : String) (createAs : Option GroupType) (s : Option GroupSpec) :
    Option GroupSpec :=
  s <|> createAs.map (GroupSpec.new name)

/-- The record as an upsert writes it. -/
def upserted (key : String) (usage : MemberUsage) (now : Instant) (s : GroupSpec) : GroupSpec :=
  (s.upsertMember key usage).pruneActivity (Month.start now)

/-- The record as a removal writes it. -/
def removed (key : String) (ended now : Instant) (s : GroupSpec) : GroupSpec :=
  (s.removeMember key ended).pruneActivity (Month.start now)

/-- A pod that has joined its groups is a member of those that select it. -/
def settled (pod : PodMember) (usage : MemberUsage) (observed now : Instant) (s : GroupSpec) :
    GroupSpec :=
  if s.selects pod.labels then s.upserted pod.selectorKey usage now
  else if s.hasMember pod.selectorKey then s.removed pod.selectorKey observed now
  else s

/-- A pod that has left its groups is a member of none. -/
def released (pod : PodMember) (ended now : Instant) (s : GroupSpec) : GroupSpec :=
  if s.hasMember pod.selectorKey then s.removed pod.selectorKey ended now else s

/-! ## Members -/

theorem get?_members_upserted :
    (s.upserted key usage now).members.get? k =
      if key = k then some usage.metric else s.members.get? k :=
  KeyMap.get?_insert s.members key k usage.metric

theorem get?_members_removed :
    (s.removed key ended now).members.get? k = if key = k then none else s.members.get? k :=
  KeyMap.get?_erase s.members key k

theorem get?_members_of_not_member (h : ¬s.hasMember key) :
    s.members.get? k = if key = k then none else s.members.get? k := by
  split
  next heq =>
    subst heq
    exact Option.not_isSome_iff_eq_none.mp h
  next => rfl

theorem get?_members_settled :
    (s.settled pod usage observed now).members.get? k =
      if pod.selectorKey = k then (if s.selects pod.labels then some usage.metric else none)
      else s.members.get? k := by
  rw [settled]
  split
  next => exact get?_members_upserted
  next =>
    split
    next => exact get?_members_removed
    next h => exact get?_members_of_not_member h

theorem get?_members_released :
    (s.released pod ended now).members.get? k =
      if pod.selectorKey = k then none else s.members.get? k := by
  rw [released]
  split
  next => exact get?_members_removed
  next h => exact get?_members_of_not_member h

/-! ## Storage -/

/-- The storage of a member, as it stands in its open window. -/
def storage? (s : GroupSpec) (key : String) : Option UInt64 :=
  (s.openWindow? key).map Activity.storageBytes

theorem storage?_upserted :
    (s.upserted key usage now).storage? k =
      if key = k then some usage.storageBytes else s.storage? k := by
  rw [storage?, upserted, openWindow?_pruneActivity, openWindow?_upsertMember]
  split
  next => cases s.windows.get? key <;> rfl
  next => rfl

theorem storage?_upserted_self : (s.upserted key usage now).storage? key = some usage.storageBytes :=
  storage?_upserted.trans (if_pos rfl)

theorem storage?_removed :
    (s.removed key ended now).storage? k = if key = k then none else s.storage? k := by
  rw [storage?, removed, openWindow?_pruneActivity, openWindow?_removeMember]
  split
  next => rfl
  next => rfl

theorem storage?_removed_self : (s.removed key ended now).storage? key = none :=
  storage?_removed.trans (if_pos rfl)

/-- Who is no member has no open window either, if the record is in step. -/
theorem InStep.storage?_of_not_member (h : InStep s) (hmember : ¬s.hasMember key) :
    s.storage? key = none := by
  have hnone : s.members.get? key = none := Option.not_isSome_iff_eq_none.mp hmember
  rw [h.members, Option.map_eq_none_iff] at hnone
  rw [storage?, hnone]
  rfl

theorem storage?_settled_of_ne (h : pod.selectorKey ≠ k) :
    (s.settled pod usage observed now).storage? k = s.storage? k := by
  rw [settled]
  split
  next => rw [storage?_upserted, if_neg h]
  next =>
    split
    next => rw [storage?_removed, if_neg h]
    next => rfl

theorem storage?_released_of_ne (h : pod.selectorKey ≠ k) :
    (s.released pod ended now).storage? k = s.storage? k := by
  rw [released]
  split
  next => rw [storage?_removed, if_neg h]
  next => rfl

/-- After a pod has joined its groups, it has its storage in exactly those that select it. -/
theorem InStep.storage?_settled (h : InStep s) :
    (s.settled pod usage observed now).storage? pod.selectorKey =
      if s.selects pod.labels then some usage.storageBytes else none := by
  rw [settled]
  split
  next => exact storage?_upserted_self
  next =>
    split
    next => exact storage?_removed_self
    next hmember => exact h.storage?_of_not_member hmember

/-- After a pod has left its groups, it has no open window in those that select by labels. -/
theorem InStep.storage?_released (h : InStep s) :
    (s.released pod ended now).storage? pod.selectorKey = none := by
  rw [released]
  split
  next => exact storage?_removed_self
  next hmember => exact h.storage?_of_not_member hmember

theorem InStep.upserted (h : InStep s) : InStep (s.upserted key usage now) :=
  (h.upsertMember key usage).pruneActivity _

theorem InStep.removed (h : InStep s) : InStep (s.removed key ended now) :=
  (h.removeMember key ended).pruneActivity _

theorem InStep.settled (h : InStep s) : InStep (s.settled pod usage observed now) := by
  rw [GroupSpec.settled]
  split
  next => exact h.upserted
  next =>
    split
    next => exact h.removed
    next => exact h

theorem InStep.released (h : InStep s) : InStep (s.released pod ended now) := by
  rw [GroupSpec.released]
  split
  next => exact h.removed
  next => exact h

end GroupSpec

namespace Membership

/-- What becomes of a record if only those that select by labels are changed. -/
def inSelecting (f : GroupSpec → GroupSpec) (s : GroupSpec) : GroupSpec :=
  if s.type = .byNamespace then s else f s

theorem inSelecting_of_byNamespace {f : GroupSpec → GroupSpec} {s : GroupSpec}
    (h : s.type = .byNamespace) : inSelecting f s = s :=
  if_pos h

theorem inSelecting_of_ne {f : GroupSpec → GroupSpec} {s : GroupSpec} (h : s.type ≠ .byNamespace) :
    inSelecting f s = f s :=
  if_neg h

/-- What becomes of the record under a name if first that of a namespace is changed, or
created and changed, and then all that select by labels. -/
def moved (group : String) (createAs : Option GroupType) (own f : GroupSpec → GroupSpec)
    (name : String) (s : Option GroupSpec) : Option GroupSpec :=
  (if name = group then (GroupSpec.basis group createAs s).map own else s).map (inSelecting f)

section Moved

variable {group name : String} {createAs : Option GroupType} {own f : GroupSpec → GroupSpec}
  {before : Option GroupSpec} {s' : GroupSpec}

/-- A record that has moved was there before, or has just been created; it has been changed
as that of the namespace if it has its name, and then as one that selects by labels if it
is one. -/
theorem exists_of_moved (h : moved group createAs own f name before = some s') :
    ∃ s, (before = some s ∨ before = none ∧ name = group ∧ createAs.map (.new group) = some s) ∧
      s' = inSelecting f (if name = group then own s else s) := by
  obtain ⟨m, hm, rfl⟩ := Option.map_eq_some_iff.mp h
  by_cases hname : name = group
  · rw [if_pos hname] at hm
    obtain ⟨s, hs, rfl⟩ := Option.map_eq_some_iff.mp hm
    refine ⟨s, ?_, by rw [if_pos hname]⟩
    cases before with
    | some s₀ => exact .inl hs
    | none => exact .inr ⟨rfl, hname, hs⟩
  · rw [if_neg hname] at hm
    exact ⟨m, .inl hm, by rw [if_neg hname]⟩

/-- All records have a property still that new ones have and each change keeps. -/
theorem of_moved {P : GroupSpec → Prop} (hnew : ∀ type, P (.new group type))
    (hown : ∀ s, P s → P (own s)) (hf : ∀ s, P s → P (f s)) (hbefore : ∀ s, before = some s → P s)
    (h : moved group createAs own f name before = some s') : P s' := by
  obtain ⟨s, hs, rfl⟩ := exists_of_moved h
  have hstart : P s := by
    rcases hs with hs | ⟨-, -, hs⟩
    · exact hbefore s hs
    · obtain ⟨type, -, rfl⟩ := Option.map_eq_some_iff.mp hs
      exact hnew type
  have hmiddle : P (if name = group then own s else s) := by
    split
    · exact hown s hstart
    · exact hstart
  generalize (if name = group then own s else s) = middle at hmiddle ⊢
  rw [inSelecting]
  split
  · exact hmiddle
  · exact hf _ hmiddle

end Moved

/-- What becomes of the records when a pod joins its groups. -/
def joined (labelGroups : Bool) (pod : PodMember) (usage : MemberUsage) (observed now : Instant) :
    String → Option GroupSpec → Option GroupSpec :=
  moved pod.namespaceGroup (some .byNamespace) (GroupSpec.upserted pod.name usage now)
    (if labelGroups then GroupSpec.settled pod usage observed now else id)

/-- What becomes of the records when a pod leaves its groups. -/
def left (pod : PodMember) (ended now : Instant) : String → Option GroupSpec → Option GroupSpec :=
  moved pod.namespaceGroup none (GroupSpec.removed pod.name ended now)
    (GroupSpec.released pod ended now)

end Membership

end Chargeback
