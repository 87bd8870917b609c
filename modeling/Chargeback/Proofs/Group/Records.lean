import Chargeback.Proofs.Group.Writers
import Mathlib.Algebra.Group.Nat.Defs

/-!
# Group records in step

A record tells of its members three times: by their metrics, by the total of these, and
by the windows of time in which they were members. Each change touches another part of it:
an upsert reopens a window, a removal closes one, and closed windows are forgotten. Still
the members are always those whose windows are open, with the metrics of these windows;
and the total is the exact one of the members, as long as a word can hold it. So the order
in which members came and went does not show in it.

## Main definitions

* `Metric.fields`: the fields that are added up.
* `GroupSpec.openWindow?`: the window of a member that has not left.
* `GroupSpec.Reachable`: the records that changes make of a new one.
* `GroupSpec.InStep`: members, windows and total tell the same.
-/

namespace Chargeback

/-! ## Totals -/

/-- Added up from the left, amounts stop at the largest one if their exact total lies
beyond it, and only then. -/
theorem Amount.toNat_foldl_add (l : List UInt64) (a : UInt64) :
    (l.foldl add a).toNat = min (a.toNat + total l) (UInt64.size - 1) := by
  induction l generalizing a with
  | nil =>
    have hlt := a.toNat_lt
    simp only [List.foldl_nil, total, UInt64.size]
    omega
  | cons b l ih =>
    simp only [List.foldl_cons, ih, toNat_add, total]
    omega

namespace Metric

/-- The fields of a metric. -/
def fields : List (Metric → UInt64) := [cpuRequest, cpuLimit, memoryRequest, memoryLimit]

variable {field : Metric → UInt64}

theorem field_zero (h : field ∈ fields) : field zero = 0 := by
  simp only [fields, List.mem_cons, List.not_mem_nil, or_false] at h
  rcases h with rfl | rfl | rfl | rfl <;> rfl

theorem field_add (h : field ∈ fields) (a b : Metric) :
    field (a + b) = Amount.add (field a) (field b) := by
  simp only [fields, List.mem_cons, List.not_mem_nil, or_false] at h
  rcases h with rfl | rfl | rfl | rfl <;> rfl

theorem field_foldl_add (h : field ∈ fields) (l : List Metric) (a : Metric) :
    field (l.foldl (· + ·) a) = (l.map field).foldl Amount.add (field a) := by
  induction l generalizing a with
  | nil => rfl
  | cons b l ih => simp only [List.foldl_cons, List.map_cons, ih, field_add h]

/-- Each field of a total is the exact total of the field, clamped to the largest word. -/
theorem toNat_field_sum (h : field ∈ fields) (l : List Metric) :
    (field (sum l)).toNat = min (Amount.total (l.map field)) (UInt64.size - 1) := by
  rw [sum, field_foldl_add h, Amount.toNat_foldl_add, field_zero h, UInt64.toNat_zero, Nat.zero_add]

end Metric

/-! ## Open windows -/

namespace GroupSpec

variable {g : GroupSpec}

/-- The window of a member that has not left. -/
def openWindow? (g : GroupSpec) (key : String) : Option Activity :=
  (g.windows.get? key).filter fun a => a.finish.isNone

theorem openWindow?_eq_some_iff {key : String} {a : Activity} :
    g.openWindow? key = some a ↔ g.windows.get? key = some a ∧ a.finish = none := by
  rw [openWindow?, Option.filter_eq_some_iff, Option.isNone_iff_eq_none]

/-- An upsert opens the window of its member and leaves all others. -/
theorem openWindow?_upsertMember (g : GroupSpec) (key k : String) (u : MemberUsage) :
    (g.upsertMember key u).openWindow? k =
      if key = k then some (Activity.upsert u (g.windows.get? key)) else g.openWindow? k := by
  simp only [openWindow?, upsertMember_windows, KeyMap.get?_insert]
  split
  next => simp
  next => rfl

/-- A removal leaves its member without an open window. -/
theorem openWindow?_removeMember (g : GroupSpec) (key k : String) (ended : Instant) :
    (g.removeMember key ended).openWindow? k = if key = k then none else g.openWindow? k := by
  simp only [openWindow?, removeMember_windows, KeyMap.get?_alter]
  split
  next => cases g.windows.get? key <;> simp
  next => rfl

/-- Only closed windows are forgotten. -/
@[simp] theorem openWindow?_pruneActivity (g : GroupSpec) (cutoff : Instant) (k : String) :
    (g.pruneActivity cutoff).openWindow? k = g.openWindow? k := by
  simp only [openWindow?, pruneActivity, KeyMap.get?_filter, Option.filter_filter]
  cases hk : g.windows.get? k with
  | none => rfl
  | some a =>
    cases hfinish : a.finish with
    | none => simp [Option.filter_some, Activity.reaches, hfinish]
    | some e => simp [Option.filter_some, hfinish]

/-! ## Records in step -/

/-- The records that changes make of a new one. -/
inductive Reachable : GroupSpec → Prop where
  | new (name : String) (type : GroupType) : Reachable (.new name type)
  | upsert {g : GroupSpec} (h : Reachable g) (key : String) (usage : MemberUsage) :
    Reachable (g.upsertMember key usage)
  | remove {g : GroupSpec} (h : Reachable g) (key : String) (ended : Instant) :
    Reachable (g.removeMember key ended)
  | prune {g : GroupSpec} (h : Reachable g) (cutoff : Instant) :
    Reachable (g.pruneActivity cutoff)

/-- The members are those with open windows, and the total is that of the members. -/
structure InStep (g : GroupSpec) : Prop where
  members : ∀ key, g.members.get? key = (g.openWindow? key).map Activity.metric
  total : g.total = Metric.sum g.members.values

/-- A record without members and windows, whatever it selects. -/
theorem inStep_of_empty (hmembers : g.members = .empty) (hwindows : g.windows = .empty)
    (htotal : g.total = .zero) : InStep g where
  members _ := by
    rw [openWindow?, hmembers, hwindows]
    rfl
  total := by
    rw [hmembers, htotal]
    rfl

theorem inStep_new (name : String) (type : GroupType) : InStep (.new name type) :=
  inStep_of_empty rfl rfl rfl

theorem InStep.upsertMember (h : InStep g) (key : String) (u : MemberUsage) :
    InStep (g.upsertMember key u) where
  members k := by
    rw [upsertMember_members, KeyMap.get?_insert, openWindow?_upsertMember, h.members k]
    split
    next => simp
    next => rfl
  total := rfl

theorem InStep.removeMember (h : InStep g) (key : String) (ended : Instant) :
    InStep (g.removeMember key ended) where
  members k := by
    rw [removeMember_members, KeyMap.get?_erase, openWindow?_removeMember, h.members k]
    split
    next => rfl
    next => rfl
  total := rfl

theorem InStep.pruneActivity (h : InStep g) (cutoff : Instant) :
    InStep (g.pruneActivity cutoff) where
  members k := by
    rw [pruneActivity_members, openWindow?_pruneActivity, h.members k]
  total := h.total

theorem Reachable.inStep (h : Reachable g) : InStep g := by
  induction h with
  | new name type => exact inStep_new name type
  | upsert _ key usage ih => exact ih.upsertMember key usage
  | remove _ key ended ih => exact ih.removeMember key ended
  | prune _ cutoff ih => exact ih.pruneActivity cutoff

end GroupSpec

/-! ## Stored records -/

namespace Writers

variable {m₀ : MemoryStore} {w : Writers} {name : String} {g : StoredGroup}

/-- By induction on the replacements: each of them changes the record and forgets windows. -/
theorem reachable_replaced {s : GroupSpec} (h : s.Reachable) (es : List Replacement) :
    (es.foldl Replacement.apply s).Reachable := by
  induction es generalizing s with
  | nil => exact h
  | cons e es ih =>
    refine ih (GroupSpec.Reachable.prune ?_ _)
    cases e.change with
    | upsert name type key usage => exact h.upsert key usage
    | remove name key ended => exact h.remove key ended

/-- What is stored of a group that was missing at first has come about by changes. -/
theorem Accounts.reachable (h : Accounts m₀ w name) (hmissing : m₀.groups.get? name = none)
    (hg : w.memory.groups.get? name = some g) : g.spec.Reachable := by
  rw [Accounts, hg] at h
  obtain ⟨s, horigin, hspec⟩ := h
  rw [Origin, hmissing] at horigin
  obtain ⟨c, -, -, type, -, rfl⟩ := horigin
  rw [hspec]
  exact reachable_replaced (.new name type) _

/-- A record that is stored at some time of some run, of a group that was missing at its
beginning. -/
def HasStored (s : GroupSpec) : Prop :=
  ∃ m₀ moves name g, MemoryStore.Reachable m₀ ∧ m₀.groups.get? name = none ∧
    (Writers.run { memory := m₀ } moves).memory.groups.get? name = some g ∧ g.spec = s

theorem HasStored.reachable {s : GroupSpec} (h : HasStored s) : s.Reachable := by
  obtain ⟨m₀, moves, name, g, hm₀, hmissing, hg, rfl⟩ := h
  have H := accounted_run (accounted_new hm₀.sound) moves
  exact (H.accounts name).reachable hmissing hg

end Writers

/-- Whatever the changes of a record were, and at whatever times; and so for all that is
ever stored of a group that changes have created: the members are those whose windows have
no end, with the metrics of these windows, and each field of the total is the exact total of
the members, clamped to the largest word. -/
theorem GroupSpec.members_in_step {g : GroupSpec} (h : g.Reachable ∨ Writers.HasStored g) :
    (∀ key metric, g.members.get? key = some metric ↔
      ∃ a, g.windows.get? key = some a ∧ a.finish = none ∧ a.metric = metric) ∧
    ∀ field ∈ Metric.fields,
      (field g.total).toNat = min (Amount.total (g.members.values.map field)) (2 ^ 64 - 1) := by
  have H : g.InStep := by
    rcases h with h | h
    · exact h.inStep
    · exact h.reachable.inStep
  constructor
  · intro key metric
    simp only [H.members, Option.map_eq_some_iff, openWindow?_eq_some_iff, and_assoc]
  · intro field hfield
    rw [H.total]
    exact Metric.toNat_field_sum hfield _

/-- A record with two members that ask for all memory there is and a bit more. A third one
has left before the last write, and its window has been forgotten. -/
def crowdedRecord : GroupSpec :=
  let usage (bytes : UInt64) : MemberUsage :=
    { metric := { cpuRequest := 250, memoryRequest := bytes }, storageBytes := 0, started := ⟨0, 0⟩ }
  let g := ((GroupSpec.new "ns-shop" .byNamespace).upsertMember "web-2" (usage 9)).upsertMember
    "web-1" (usage 0xffffffffffffffff)
  ((g.removeMember "web-2" ⟨86400, 0⟩).upsertMember "web-0" (usage 7)).pruneActivity ⟨172800, 0⟩

/-- Two writers race for this record. -/
def racedRecord : GroupSpec :=
  (((Writers.run { memory := {} } Writers.racingMoves).memory.groups.get? "ns-shop").map
    StoredGroup.spec).getD default

theorem crowded_and_raced_in_step :
    (crowdedRecord.Reachable ∧
      crowdedRecord.members.values.map Metric.memoryRequest = [7, 0xffffffffffffffff] ∧
      crowdedRecord.total.memoryRequest.toNat = 2 ^ 64 - 1) ∧
    Writers.HasStored racedRecord ∧
      ∃ a, racedRecord.windows.get? "web-1" = some a ∧ a.finish = none ∧
        a.metric = { cpuRequest := 250 } := by
  have hcrowded : crowdedRecord.Reachable :=
    (((((GroupSpec.Reachable.new _ _).upsert _ _).upsert _ _).remove _ _).upsert _ _).prune _
  have hraced : Writers.HasStored racedRecord := by
    have hstored : ((Writers.run { memory := {} } Writers.racingMoves).memory.groups.get?
        "ns-shop").isSome := by decide +kernel
    obtain ⟨g, hg⟩ := Option.isSome_iff_exists.mp hstored
    refine ⟨{}, Writers.racingMoves, "ns-shop", g, .empty [], rfl, hg, ?_⟩
    rw [racedRecord, hg]
    rfl
  have hfield : Metric.memoryRequest ∈ Metric.fields := by simp [Metric.fields]
  refine ⟨⟨hcrowded, by decide +kernel, ?_⟩, hraced, ?_⟩
  · rw [(GroupSpec.members_in_step (.inl hcrowded)).2 _ hfield]
    decide +kernel
  · exact ((GroupSpec.members_in_step (.inr hraced)).1 _ _).mp (by decide +kernel)

end Chargeback
