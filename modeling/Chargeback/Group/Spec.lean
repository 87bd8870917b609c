import Chargeback.KeyMap
import Chargeback.Metric
import Chargeback.Time.Instant

/-!
# Group records

A group adds up the resources of its members: the pods of a namespace, or the
pods that carry one of its labels. Its record holds the metric of every current
member, their total, and for each member the window of time in which it was one.
A window stays behind when its member leaves, until the month in which it ended
has passed, since costs are charged from month to date.

## Main definitions

* `GroupSpec`: the record of a group.
* `GroupSpec.upsertMember`, `GroupSpec.removeMember`, `GroupSpec.pruneActivity`:
  the three ways in which a record changes.
* `GroupSpec.selects`: the labels that make a pod a member.
-/

namespace Chargeback

/-- How a group finds its members. -/
inductive GroupType where
  | byNamespace
  | byLabel
  | custom
deriving DecidableEq, Repr, Inhabited

namespace GroupType

/-- The name of a group type. -/
def name : GroupType → String
  | byNamespace => "namespace"
  | byLabel => "label"
  | custom => "custom"

end GroupType

/-- The window of time in which a member belonged to a group. -/
structure Activity where
  start : Instant
  finish : Option Instant := none
  metric : Metric
  /-- Bytes of persistent storage that the member claims. -/
  storageBytes : UInt64 := 0
deriving DecidableEq, Repr, Inhabited

/-- What a member contributes to a group. -/
structure MemberUsage where
  metric : Metric
  storageBytes : UInt64
  started : Instant
deriving DecidableEq, Repr, Inhabited

/-- The record of a group. -/
structure GroupSpec where
  name : String
  type : GroupType := .byNamespace
  /-- The labels that a label group or a custom group selects by. -/
  labels : KeyMap String := .empty
  /-- The total over the current members. -/
  total : Metric := .zero
  /-- The metrics of the current members. -/
  members : KeyMap Metric := .empty
  /-- The windows of current and of recent members. -/
  windows : KeyMap Activity := .empty
deriving DecidableEq, Inhabited

/-- The name of the group that adds up a namespace. -/
def namespaceGroupName (ns : String) : String := "ns-" ++ ns

/-- Reopen the window of a member with a new usage, or begin one. An earlier
window keeps its start. -/
def Activity.upsert (usage : MemberUsage) : Option Activity → Activity
  | some a => { a with metric := usage.metric, storageBytes := usage.storageBytes, finish := none }
  | none =>
    { start := usage.started, metric := usage.metric, storageBytes := usage.storageBytes }

@[simp] theorem Activity.upsert_finish (u : MemberUsage) (w : Option Activity) :
    (upsert u w).finish = none := by cases w <;> rfl

@[simp] theorem Activity.upsert_metric (u : MemberUsage) (w : Option Activity) :
    (upsert u w).metric = u.metric := by cases w <;> rfl

@[simp] theorem Activity.upsert_storageBytes (u : MemberUsage) (w : Option Activity) :
    (upsert u w).storageBytes = u.storageBytes := by cases w <;> rfl

/-- Close a window, unless it is closed already. -/
def Activity.close (ended : Instant) (a : Activity) : Activity :=
  { a with finish := some (a.finish.getD ended) }

@[simp] theorem Activity.close_finish (ended : Instant) (a : Activity) :
    (a.close ended).finish = some (a.finish.getD ended) := rfl

/-- A window is open, or ended at the cutoff or after it. -/
def Activity.reaches (cutoff : Instant) (a : Activity) : Bool :=
  match a.finish with
  | some e => cutoff ≤ e
  | none => true

namespace GroupSpec

/-- The record of a new group. -/
def new (name : String) (type : GroupType) : GroupSpec := { name, type }

/-- Add up the metrics of the current members. -/
def recompute (g : GroupSpec) : GroupSpec := { g with total := Metric.sum g.members.values }

/-- Give a member a usage; the last one given counts. -/
def upsertMember (g : GroupSpec) (key : String) (usage : MemberUsage) : GroupSpec :=
  { g with
    members := g.members.insert key usage.metric
    windows := g.windows.insert key (Activity.upsert usage (g.windows.get? key)) }.recompute

/-- Take a member out of the group and close its window. -/
def removeMember (g : GroupSpec) (key : String) (ended : Instant) : GroupSpec :=
  { g with
    members := g.members.erase key
    windows := g.windows.alter key (Option.map (Activity.close ended)) }.recompute

/-- The key is that of a current member. -/
def hasMember (g : GroupSpec) (key : String) : Bool := g.members.contains key

/-- Forget the windows that ended before the cutoff. -/
def pruneActivity (g : GroupSpec) (cutoff : Instant) : GroupSpec :=
  { g with windows := g.windows.filter fun _ a => a.reaches cutoff }

/-- Some label of the group's selector is among the given labels. A namespace
group selects nothing. -/
def selects (g : GroupSpec) (labels : KeyMap String) : Bool :=
  g.type ≠ .byNamespace && g.labels.entries.any fun e => labels.get? e.1 = some e.2

@[simp] theorem upsertMember_members (g : GroupSpec) (key : String) (u : MemberUsage) :
    (g.upsertMember key u).members = g.members.insert key u.metric := rfl

@[simp] theorem upsertMember_windows (g : GroupSpec) (key : String) (u : MemberUsage) :
    (g.upsertMember key u).windows =
      g.windows.insert key (Activity.upsert u (g.windows.get? key)) := rfl

@[simp] theorem removeMember_members (g : GroupSpec) (key : String) (t : Instant) :
    (g.removeMember key t).members = g.members.erase key := rfl

@[simp] theorem removeMember_windows (g : GroupSpec) (key : String) (t : Instant) :
    (g.removeMember key t).windows = g.windows.alter key (Option.map (Activity.close t)) := rfl

@[simp] theorem pruneActivity_members (g : GroupSpec) (t : Instant) :
    (g.pruneActivity t).members = g.members := rfl

@[simp] theorem pruneActivity_windows (g : GroupSpec) (t : Instant) :
    (g.pruneActivity t).windows = g.windows.filter fun _ a => a.reaches t := rfl

@[simp] theorem pruneActivity_total (g : GroupSpec) (t : Instant) :
    (g.pruneActivity t).total = g.total := rfl

end GroupSpec

end Chargeback
