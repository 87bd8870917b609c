import Chargeback.Proofs.Group.Moves

/-!
# Changes that are made again

A change that is made once more, in the same month, finds its work done. The member has
its usage already, or has left already; the total is that of the members; and no window
is left that ended before the month. So the record stays what it is, and is not written.

A pod changes the record of its namespace under one key, and those that select it under
another one. If a group is both, each of the two changes leaves alone what the other one
has done.

## Main definitions

* `GroupSpec.Tidy`, `GroupSpec.Has`, `GroupSpec.Lacks`: what a change leaves behind.
* `Membership.Repeatable`: two changes that may be made again, one after the other.
* `Membership.entered`: what the first of them makes of all records.
-/

namespace Chargeback

/-- The two keys of a pod differ. -/
theorem PodMember.selectorKey_ne_name (pod : PodMember) : pod.selectorKey ≠ pod.name := by
  intro h
  have hlength := congrArg String.length h
  simp only [selectorKey, String.length_append] at hlength
  have hcolon : ":".length = 1 := rfl
  omega

namespace GroupSpec

variable {s s' : GroupSpec} {key k : String} {usage : MemberUsage} {ended observed now : Instant}
  {pod : PodMember}

/-! ## What a change leaves behind -/

/-- The total is that of the members, and no window ended before the month. -/
structure Tidy (now : Instant) (s : GroupSpec) : Prop where
  total : s.total = Metric.sum s.members.values
  windows : ∀ key a, s.windows.get? key = some a → a.reaches (Month.start now)

/-- The member has the usage already: giving it once more does not change its window. -/
structure Has (key : String) (usage : MemberUsage) (s : GroupSpec) : Prop where
  member : s.members.get? key = some usage.metric
  window : ∃ a, s.openWindow? key = some a ∧ Activity.upsert usage (some a) = a

/-- There is no such member, and no open window of one. -/
structure Lacks (key : String) (s : GroupSpec) : Prop where
  member : s.members.get? key = none
  window : s.openWindow? key = none

theorem tidy_prune (htotal : s.total = Metric.sum s.members.values) :
    (s.pruneActivity (Month.start now)).Tidy now where
  total := htotal
  windows key a ha := by
    rw [pruneActivity, KeyMap.get?_filter, Option.filter_eq_some_iff] at ha
    exact ha.2

theorem Tidy.prune_eq (h : s.Tidy now) : s.pruneActivity (Month.start now) = s := by
  rw [pruneActivity, KeyMap.filter_eq_self h.windows]

theorem tidy_upserted : (s.upserted key usage now).Tidy now := tidy_prune rfl

theorem tidy_removed : (s.removed key ended now).Tidy now := tidy_prune rfl

theorem has_upserted : (s.upserted key usage now).Has key usage where
  member := get?_members_upserted.trans (if_pos rfl)
  window := by
    refine ⟨Activity.upsert usage (s.windows.get? key), ?_, ?_⟩
    · rw [upserted, openWindow?_pruneActivity, openWindow?_upsertMember, if_pos rfl]
    · cases s.windows.get? key <;> rfl

theorem lacks_removed : (s.removed key ended now).Lacks key where
  member := get?_members_removed.trans (if_pos rfl)
  window := by rw [removed, openWindow?_pruneActivity, openWindow?_removeMember, if_pos rfl]

/-- Nothing is written for a member that has its usage. -/
theorem Has.upserted_eq (h : s.Has key usage) (ht : s.Tidy now) : s.upserted key usage now = s := by
  obtain ⟨a, hopen, hkept⟩ := h.window
  have ha : s.windows.get? key = some a := (openWindow?_eq_some_iff.mp hopen).1
  have hupsert : s.upsertMember key usage = s := by
    rw [upsertMember, recompute, ha, hkept, KeyMap.insert_of_get? ha, KeyMap.insert_of_get? h.member,
      ← ht.total]
  rw [upserted, hupsert, ht.prune_eq]

/-- A window that has an end keeps it. -/
theorem Lacks.close_eq (h : s.Lacks key) {a : Activity} (ha : s.windows.get? key = some a) :
    a.close ended = a := by
  have hclosed := h.window
  rw [openWindow?, ha, Option.filter_some] at hclosed
  cases hfinish : a.finish with
  | none => simp [hfinish] at hclosed
  | some e => rw [Activity.close, hfinish, Option.getD_some, ← hfinish]

/-- Nothing is written for somebody who is not there. -/
theorem Lacks.removed_eq (h : s.Lacks key) (ht : s.Tidy now) : s.removed key ended now = s := by
  have hwindows : s.windows.alter key (Option.map (Activity.close ended)) = s.windows := by
    rw [KeyMap.alter]
    cases ha : s.windows.get? key with
    | none => exact KeyMap.erase_of_get? ha
    | some a =>
      rw [Option.map_some, h.close_eq ha]
      exact KeyMap.insert_of_get? ha
  have hremove : s.removeMember key ended = s := by
    rw [removeMember, recompute, hwindows, KeyMap.erase_of_get? h.member, ← ht.total]
  rw [removed, hremove, ht.prune_eq]

/-! ## Other members -/

/-- The change has left a member and its window alone. -/
structure SameMember (key : String) (s s' : GroupSpec) : Prop where
  member : s'.members.get? key = s.members.get? key
  window : s'.openWindow? key = s.openWindow? key

theorem SameMember.refl (key : String) (s : GroupSpec) : SameMember key s s := ⟨rfl, rfl⟩

theorem sameMember_upserted (h : k ≠ key) : SameMember key s (s.upserted k usage now) where
  member := get?_members_upserted.trans (if_neg h)
  window := by rw [upserted, openWindow?_pruneActivity, openWindow?_upsertMember, if_neg h]

theorem sameMember_removed (h : k ≠ key) : SameMember key s (s.removed k ended now) where
  member := get?_members_removed.trans (if_neg h)
  window := by rw [removed, openWindow?_pruneActivity, openWindow?_removeMember, if_neg h]

theorem sameMember_settled (h : pod.selectorKey ≠ key) :
    SameMember key s (s.settled pod usage observed now) := by
  rw [settled]
  split
  next => exact sameMember_upserted h
  next =>
    split
    next => exact sameMember_removed h
    next => exact .refl key s

theorem sameMember_released (h : pod.selectorKey ≠ key) :
    SameMember key s (s.released pod ended now) := by
  rw [released]
  split
  next => exact sameMember_removed h
  next => exact .refl key s

theorem Has.of_sameMember (h : s.Has key usage) (hs : SameMember key s s') : s'.Has key usage :=
  ⟨hs.member.trans h.member, hs.window ▸ h.window⟩

theorem Lacks.of_sameMember (h : s.Lacks key) (hs : SameMember key s s') : s'.Lacks key :=
  ⟨hs.member.trans h.member, hs.window.trans h.window⟩

theorem Tidy.settled (h : s.Tidy now) : (s.settled pod usage observed now).Tidy now := by
  rw [GroupSpec.settled]
  split
  next => exact tidy_upserted
  next =>
    split
    next => exact tidy_removed
    next => exact h

theorem Tidy.released (h : s.Tidy now) : (s.released pod ended now).Tidy now := by
  rw [GroupSpec.released]
  split
  next => exact tidy_removed
  next => exact h

/-! ## The same change again -/

theorem upserted_upserted : (s.upserted key usage now).upserted key usage now =
    s.upserted key usage now :=
  has_upserted.upserted_eq tidy_upserted

theorem removed_removed : (s.removed key ended now).removed key ended now =
    s.removed key ended now :=
  lacks_removed.removed_eq tidy_removed

/-- A group that selects the pod still does, and one that has let it go does not hold it any
more. -/
theorem settled_settled : (s.settled pod usage observed now).settled pod usage observed now =
    s.settled pod usage observed now := by
  by_cases hselects : s.selects pod.labels
  · have hsettled : s.settled pod usage observed now = s.upserted pod.selectorKey usage now := by
      rw [settled, if_pos hselects]
    have hstill : (s.upserted pod.selectorKey usage now).selects pod.labels := hselects
    rw [hsettled, settled, if_pos hstill, upserted_upserted]
  · by_cases hmember : s.hasMember pod.selectorKey
    · have hsettled : s.settled pod usage observed now = s.removed pod.selectorKey observed now := by
        rw [settled, if_neg hselects, if_pos hmember]
      have hstill : ¬(s.removed pod.selectorKey observed now).selects pod.labels := hselects
      rw [hsettled, settled, if_neg hstill, removed_removed, ite_self]
    · have hsettled : s.settled pod usage observed now = s := by
        rw [settled, if_neg hselects, if_neg hmember]
      rw [hsettled, hsettled]

theorem released_released : (s.released pod ended now).released pod ended now =
    s.released pod ended now := by
  by_cases hmember : s.hasMember pod.selectorKey
  · have hreleased : s.released pod ended now = s.removed pod.selectorKey ended now := by
      rw [released, if_pos hmember]
    rw [hreleased, released, removed_removed, ite_self]
  · have hreleased : s.released pod ended now = s := by rw [released, if_neg hmember]
    rw [hreleased, hreleased]

/-- What was given to a member under its name is not touched under the other key. -/
theorem upserted_settled {u : MemberUsage} :
    ((s.upserted pod.name u now).settled pod usage observed now).upserted pod.name u now =
      (s.upserted pod.name u now).settled pod usage observed now := by
  have hhas : (s.upserted pod.name u now).Has pod.name u := has_upserted
  exact (hhas.of_sameMember (sameMember_settled pod.selectorKey_ne_name)).upserted_eq
    tidy_upserted.settled

theorem removed_released :
    ((s.removed pod.name ended now).released pod ended now).removed pod.name ended now =
      (s.removed pod.name ended now).released pod ended now := by
  have hlacks : (s.removed pod.name ended now).Lacks pod.name := lacks_removed
  exact (hlacks.of_sameMember (sameMember_released pod.selectorKey_ne_name)).removed_eq
    tidy_removed.released

end GroupSpec

/-! ## All records -/

namespace Membership

open GroupSpec (basis)

variable {own f : GroupSpec → GroupSpec} {group name : String} {createAs : Option GroupType}
  {s : Option GroupSpec}

/-- Two changes of a record, one after the other, that may be made again: each of them by
itself, and the first one also after the second. -/
structure Repeatable (own f : GroupSpec → GroupSpec) : Prop where
  own_own : ∀ s, own (own s) = own s
  own_next : ∀ s, own (f (own s)) = f (own s)
  next_next : ∀ s, f (f s) = f s

/-- What becomes of the record under a name if that of a namespace is changed, or created and
changed. -/
def entered (group : String) (createAs : Option GroupType) (own : GroupSpec → GroupSpec)
    (name : String) (s : Option GroupSpec) : Option GroupSpec :=
  if name = group then (basis group createAs s).map own else s

theorem moved_eq :
    moved group createAs own f name s =
      (entered group createAs own name s).map (inSelecting f) := rfl

/-- What a change has been made of is there when it is made again. -/
theorem basis_map (change : GroupSpec → GroupSpec) :
    basis group createAs ((basis group createAs s).map change) =
      (basis group createAs s).map change := by
  cases s with
  | some s₀ => rfl
  | none => cases createAs <;> rfl

/-- A record that a change has created counts as one that it is to create. -/
theorem moved_basis : moved group createAs own f group (basis group createAs s) =
    moved group createAs own f group s := by
  have hbasis : basis group createAs (basis group createAs s) = basis group createAs s := by
    cases s with
    | some s₀ => rfl
    | none => cases createAs <;> rfl
  rw [moved, moved, if_pos rfl, if_pos rfl, hbasis]

theorem entered_of_ne (h : name ≠ group) : entered group createAs own name s = s := if_neg h

theorem entered_self : entered group createAs own group s = (basis group createAs s).map own :=
  if_pos rfl

/-- It does not matter for this that the second change is only made of records that select by
labels. -/
theorem repeatable_inSelecting (h : Repeatable own f) (htype : ∀ s, (f s).type = s.type) :
    Repeatable own (inSelecting f) where
  own_own := h.own_own
  own_next r := by
    by_cases hr : (own r).type = .byNamespace
    · rw [inSelecting_of_byNamespace hr, h.own_own]
    · rw [inSelecting_of_ne hr, h.own_next]
  next_next r := by
    by_cases hr : r.type = .byNamespace
    · rw [inSelecting_of_byNamespace hr, inSelecting_of_byNamespace hr]
    · have hnext : (f r).type ≠ .byNamespace := htype r ▸ hr
      rw [inSelecting_of_ne hr, inSelecting_of_ne hnext, h.next_next]

section Repeatable

variable (h : Repeatable own (inSelecting f))
include h

theorem Repeatable.entered_entered : entered group createAs own name
    (entered group createAs own name s) = entered group createAs own name s := by
  by_cases hname : name = group
  · subst hname
    rw [entered_self, entered_self, basis_map, Option.map_map, (funext h.own_own : own ∘ own = own)]
  · rw [entered_of_ne hname, entered_of_ne hname]

theorem Repeatable.entered_moved : entered group createAs own name
    (moved group createAs own f name s) = moved group createAs own f name s := by
  by_cases hname : name = group
  · subst hname
    rw [moved_eq, entered_self, entered_self, Option.map_map, basis_map, Option.map_map]
    exact congrArg (Option.map · _) (funext h.own_next)
  · rw [entered_of_ne hname]

theorem Repeatable.moved_entered : moved group createAs own f name
    (entered group createAs own name s) = moved group createAs own f name s := by
  rw [moved_eq, h.entered_entered, moved_eq]

theorem Repeatable.map_moved :
    (moved group createAs own f name s).map (inSelecting f) =
      moved group createAs own f name s := by
  rw [moved_eq, Option.map_map]
  exact congrArg (Option.map · _) (funext h.next_next)

theorem Repeatable.moved_moved : moved group createAs own f name
    (moved group createAs own f name s) = moved group createAs own f name s := by
  rw [moved_eq, h.entered_moved, h.map_moved]

end Repeatable

/-! ## Joining and leaving again -/

variable {labelGroups : Bool} {pod : PodMember} {usage : MemberUsage} {observed ended now : Instant}

theorem repeatable_joined : Repeatable (GroupSpec.upserted pod.name usage now)
    (inSelecting (if labelGroups then GroupSpec.settled pod usage observed now else id)) := by
  cases labelGroups with
  | true =>
    refine repeatable_inSelecting ⟨fun s => GroupSpec.upserted_upserted,
      fun s => GroupSpec.upserted_settled, fun s => GroupSpec.settled_settled⟩ ?_
    intro s
    rw [if_pos rfl, GroupSpec.settled]
    split
    next => rfl
    next => split <;> rfl
  | false =>
    exact repeatable_inSelecting ⟨fun s => GroupSpec.upserted_upserted,
      fun s => GroupSpec.upserted_upserted, fun s => rfl⟩ fun s => rfl

theorem repeatable_left : Repeatable (GroupSpec.removed pod.name ended now)
    (inSelecting (GroupSpec.released pod ended now)) := by
  refine repeatable_inSelecting ⟨fun s => GroupSpec.removed_removed,
    fun s => GroupSpec.removed_released, fun s => GroupSpec.released_released⟩ ?_
  intro s
  rw [GroupSpec.released]
  split <;> rfl

/-- Of the clock, only the month counts. -/
theorem joined_congr {now now' : Instant} (h : Month.start now' = Month.start now) :
    joined labelGroups pod usage observed now' = joined labelGroups pod usage observed now := by
  have hupserted (key : String) : GroupSpec.upserted key usage now' = GroupSpec.upserted key usage now := by
    funext s
    rw [GroupSpec.upserted, GroupSpec.upserted, h]
  have hsettled : GroupSpec.settled pod usage observed now' =
      GroupSpec.settled pod usage observed now := by
    funext s
    simp only [GroupSpec.settled, GroupSpec.removed, hupserted, h]
  rw [joined, joined, hupserted, hsettled]

theorem left_congr {now now' : Instant} (h : Month.start now' = Month.start now) :
    left pod ended now' = left pod ended now := by
  have hremoved (key : String) : GroupSpec.removed key ended now' = GroupSpec.removed key ended now := by
    funext s
    rw [GroupSpec.removed, GroupSpec.removed, h]
  have hreleased : GroupSpec.released pod ended now' = GroupSpec.released pod ended now := by
    funext s
    simp only [GroupSpec.released, hremoved]
  rw [left, left, hremoved, hreleased]

end Membership

end Chargeback
