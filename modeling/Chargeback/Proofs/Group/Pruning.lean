import Chargeback.Cost.Engine
import Chargeback.Proofs.Double.Zero
import Chargeback.Proofs.Group.Records
import Chargeback.Proofs.Group.Windows
import Chargeback.Proofs.Histories
import Chargeback.Proofs.Time.Month

/-!
# What is forgotten costs nothing

A write forgets the windows that ended before its month, and costs are only ever asked for
later. A month of a later time does not begin earlier, so none of these windows has any time
left in it: it is cut off at the start of the month, which lies behind its end. A window at
whose end the month begins is kept, though it is not charged for either. Current members have
no end to their windows, and keep them.

What is charged for no time is zero, and a zero does not change a cost: the parts of a cost
start from zero and never become the negative zero. Only where an amount and its rate have no
finite product does the zero length of a window not make a zero of it.

## Main definitions

* `Month.activeSeconds_of_le`: a window that ended before a month counts no time from then on.
* `CostEngine.chargeWindow_of_no_time`: a window without time is not charged for.
* `GroupSpec.pruning_unseen`: a pruning does not show in what is charged later.
-/

namespace Chargeback

universe u v

/-- Values that make no difference to results of some kind can be left out, where all values
keep this kind. -/
theorem KeyMap.foldl_values_filter {α : Type u} {β : Type v} {f : β → α → β}
    {p : String → α → Bool} {kind : β → Prop} (m : KeyMap α)
    (hkeeps : ∀ b a, kind b → kind (f b a))
    (h : ∀ b, kind b → ∀ k a, m.get? k = some a → p k a = false → f b a = b) {b : β}
    (hb : kind b) : (m.filter p).values.foldl f b = m.values.foldl f b := by
  unfold values filter
  rw [List.foldl_map, List.foldl_map]
  refine foldl_filter_of_keeps (fun b (e : String × α) => hkeeps b e.2) (fun b hb e he hp => ?_) hb
  exact h b hb e.1 e.2 ((mem_entries_iff m e.1 e.2).mp he) hp

variable {g : GroupSpec} {a : Activity} {t t' now : Instant} {key : String} {e : CostEngine}
  {c : Cost}

/-! ## Windows that are over -/

/-- A window that ended before the month counts no time, whenever it began. -/
theorem Month.activeSeconds_of_not_reaches (h : a.reaches (Month.start t) = false) :
    activeSeconds a.start a.finish t = 0 := by
  unfold Activity.reaches at h
  split at h
  next e hfinish =>
    have hend : e ≤ start t := by
      have hlate := of_decide_eq_false h
      rw [Instant.le_iff] at hlate ⊢
      omega
    refine if_pos ?_
    rw [hfinish]
    exact Instant.le_trans (Instant.earlier_le_left e t)
      (Instant.le_trans hend (Instant.le_later_right a.start (start t)))
  next => cases h

/-- A window that ended before a month counts no time from then on. -/
theorem Month.activeSeconds_of_le (hle : t ≤ t') (h : a.reaches (Month.start t) = false) :
    activeSeconds a.start a.finish t' = 0 := by
  refine activeSeconds_of_not_reaches ?_
  cases hlater : a.reaches (start t') with
  | false => rfl
  | true =>
    rw [Activity.reaches_of_le (start_mono hle) hlater] at h
    cases h

/-! ## Costs of windows -/

/-- No part of a cost is the negative zero. -/
structure Cost.HasNoMinusZero (c : Cost) : Prop where
  cpu : ¬IsMinusZero c.cpu
  memory : ¬IsMinusZero c.memory
  storage : ¬IsMinusZero c.storage

namespace CostEngine

/-- The parts of what a window costs by the hour are finite. -/
structure HourlyFinite (e : CostEngine) (a : Activity) : Prop where
  cpu : (e.rates.cpuHour * a.metric.cpuRequestCores).isFinite
  memory : (e.rates.memoryHour * a.metric.memoryRequestGiB).isFinite
  storage : (e.rates.storageHour * bytesToGiB a.storageBytes).isFinite

instance (e : CostEngine) (a : Activity) : Decidable (e.HourlyFinite a) :=
  decidable_of_iff
    ((e.rates.cpuHour * a.metric.cpuRequestCores).isFinite ∧
      (e.rates.memoryHour * a.metric.memoryRequestGiB).isFinite ∧
      (e.rates.storageHour * bytesToGiB a.storageBytes).isFinite)
    ⟨fun ⟨cpu, memory, storage⟩ => ⟨cpu, memory, storage⟩, fun h => ⟨h.cpu, h.memory, h.storage⟩⟩

theorem hasNoMinusZero_chargeWindow (h : c.HasNoMinusZero) (e : CostEngine) (now : Instant)
    (a : Activity) : (e.chargeWindow now c a).HasNoMinusZero where
  cpu := not_isMinusZero_add h.cpu _
  memory := not_isMinusZero_add h.memory _
  storage := not_isMinusZero_add h.storage _

/-- No seconds are no hours. -/
theorem unpack_activeHours (h : Month.activeSeconds a.start a.finish now = 0) :
    (Month.activeHours a.start a.finish now).toModel.unpack = .zero .positive := by
  rw [Month.activeHours, h]
  rfl

/-- A window without time in the month is not charged for. -/
theorem chargeWindow_of_no_time (hc : c.HasNoMinusZero) (ha : e.HourlyFinite a)
    (h : Month.activeSeconds a.start a.finish now = 0) : e.chargeWindow now c a = c := by
  have hhours := unpack_activeHours h
  unfold chargeWindow
  simp only [add_mul_of_isZero hc.cpu ha.cpu hhours, add_mul_of_isZero hc.memory ha.memory hhours,
    add_mul_of_isZero hc.storage ha.storage hhours]

end CostEngine

namespace GroupSpec

/-! ## Forgetting -/

/-- A window is kept as it is, or it is forgotten and counts no time from then on. -/
theorem get?_windows_pruneActivity (h : t ≤ t') (g : GroupSpec) (key : String) :
    (g.pruneActivity (Month.start t)).windows.get? key = g.windows.get? key ∨
      (g.pruneActivity (Month.start t)).windows.get? key = none ∧
        ∃ a, g.windows.get? key = some a ∧ Month.activeSeconds a.start a.finish t' = 0 := by
  rw [pruneActivity_windows, KeyMap.get?_filter]
  cases hw : g.windows.get? key with
  | none => exact .inl rfl
  | some a =>
    rw [Option.filter_some]
    cases hreach : a.reaches (Month.start t) with
    | true => exact .inl rfl
    | false => exact .inr ⟨rfl, a, rfl, Month.activeSeconds_of_le h hreach⟩

/-- The window of a current member has no end, and no cutoff reaches it. -/
theorem Reachable.get?_windows_of_hasMember (h : g.Reachable) (hmember : g.hasMember key)
    (cutoff : Instant) :
    ∃ a, g.windows.get? key = some a ∧ a.finish = none ∧
      (g.pruneActivity cutoff).windows.get? key = some a := by
  rw [hasMember, KeyMap.contains_eq_isSome, h.inStep.members, Option.isSome_map] at hmember
  obtain ⟨a, ha⟩ := Option.isSome_iff_exists.mp hmember
  have hkept : (g.pruneActivity cutoff).openWindow? key = some a := by
    rw [openWindow?_pruneActivity, ha]
  obtain ⟨hw, hfinish⟩ := openWindow?_eq_some_iff.mp ha
  exact ⟨a, hw, hfinish, (openWindow?_eq_some_iff.mp hkept).1⟩

/-- The windows that have time in the month, at some time of it. -/
def charged (g : GroupSpec) (now : Instant) : KeyMap Activity :=
  g.windows.filter fun _ a => Month.activeSeconds a.start a.finish now ≠ 0

theorem charged_pruneActivity (h : t ≤ t') (g : GroupSpec) :
    (g.pruneActivity (Month.start t)).charged t' = g.charged t' := by
  ext1 key
  rw [charged, charged, KeyMap.get?_filter, KeyMap.get?_filter]
  rcases get?_windows_pruneActivity h g key with hkept | ⟨hnone, a, ha, hzero⟩
  · rw [hkept]
  · rw [hnone, ha]
    simp [Option.filter_some, hzero]

/-- The cost of a group is that of the windows that a pruning keeps. -/
theorem groupCost_pruneActivity (h : t ≤ t') {g : GroupSpec}
    (hfinite : ∀ key a, g.windows.get? key = some a → a.reaches (Month.start t) = false →
      e.HourlyFinite a) :
    e.groupCost (g.pruneActivity (Month.start t)) t' = e.groupCost g t' := by
  have hcost : (g.pruneActivity (Month.start t)).windows.values.foldl (e.chargeWindow t') {} =
      g.windows.values.foldl (e.chargeWindow t') {} := by
    have hstart : Cost.HasNoMinusZero {} := ⟨nofun, nofun, nofun⟩
    have hkeeps (c : Cost) (a : Activity) (hc : c.HasNoMinusZero) :
        (e.chargeWindow t' c a).HasNoMinusZero :=
      CostEngine.hasNoMinusZero_chargeWindow hc e t' a
    refine KeyMap.foldl_values_filter g.windows hkeeps ?_ hstart
    intro c hc key a ha hreach
    exact CostEngine.chargeWindow_of_no_time hc (hfinite key a ha hreach)
      (Month.activeSeconds_of_le h hreach)
  unfold CostEngine.groupCost
  rw [hcost]

/-- A pruning by the month of a write leaves the members and their total. At no later time does
it show in what is charged: every window is kept as it is, or it counts no time in the month, and
so the windows that do are the same and so is the cost, as long as the forgotten windows cost a
finite amount by the hour. Current members keep their windows. -/
theorem pruning_unseen {g : GroupSpec} {t t' : Instant} (h : t ≤ t') :
    let pruned := g.pruneActivity (Month.start t)
    pruned = { g with windows := pruned.windows } ∧
    (∀ key, pruned.windows.get? key = g.windows.get? key ∨
      pruned.windows.get? key = none ∧
        ∃ a, g.windows.get? key = some a ∧ Month.activeSeconds a.start a.finish t' = 0) ∧
    pruned.charged t' = g.charged t' ∧
    (∀ e : CostEngine,
      (∀ key a, g.windows.get? key = some a → pruned.windows.get? key = none → e.HourlyFinite a) →
      e.groupCost pruned t' = e.groupCost g t') ∧
    (g.Reachable → ∀ key, g.hasMember key →
      ∃ a, g.windows.get? key = some a ∧ a.finish = none ∧
        pruned.windows.get? key = some a) := by
  intro pruned
  refine ⟨rfl, get?_windows_pruneActivity h g, charged_pruneActivity h g, ?_, ?_⟩
  · intro e hfinite
    refine groupCost_pruneActivity h fun key a ha hreach => hfinite key a ha ?_
    rw [pruneActivity_windows, KeyMap.get?_filter, ha, Option.filter_some, hreach]
    rfl
  · intro hreachable key hmember
    exact hreachable.get?_windows_of_hasMember hmember (Month.start t)

/-- A day of 2024. -/
def leapDay (month day : Nat) : Instant := Instant.ofDate { year := 2024, month, day }

/-- One member left in January, one as February began, and one has stayed. -/
def leapRecord : GroupSpec :=
  let usage : MemberUsage :=
    { metric := { cpuRequest := 250 }, storageBytes := 0, started := leapDay 1 5 }
  let g := (((GroupSpec.new "ns-shop" .byNamespace).upsertMember "web-0" usage).upsertMember
    "web-1" usage).upsertMember "web-2" usage
  (g.removeMember "web-0" (leapDay 1 20)).removeMember "web-1" (leapDay 2 1)

/-- A write in February forgets the first of them, which March does not count. -/
theorem forgotten_in_february :
    let pruned := leapRecord.pruneActivity (Month.start (leapDay 2 10))
    pruned.windows.keys = ["web-1", "web-2"] ∧
    (∃ a, leapRecord.windows.get? "web-0" = some a ∧
      Month.activeSeconds a.start a.finish (leapDay 3 5) = 0) ∧
    (∃ a, leapRecord.windows.get? "web-2" = some a ∧ pruned.windows.get? "web-2" = some a) ∧
    CostEngine.default.groupCost pruned (leapDay 3 5) =
      CostEngine.default.groupCost leapRecord (leapDay 3 5) := by
  intro pruned
  have hreachable : leapRecord.Reachable :=
    ((((GroupSpec.Reachable.new _ _).upsert _ _).upsert _ _).upsert _ _ |>.remove _ _).remove _ _
  have hfinite : ∀ a ∈ leapRecord.windows.values, CostEngine.default.HourlyFinite a := by
    decide +kernel
  obtain ⟨-, hwindows, -, hcost, hmembers⟩ :=
    pruning_unseen (g := leapRecord) (by decide +kernel : leapDay 2 10 ≤ leapDay 3 5)
  obtain ⟨a, ha, -, hkept⟩ := hmembers hreachable "web-2" (by decide +kernel)
  refine ⟨by decide +kernel, ?_, ⟨a, ha, hkept⟩, hcost CostEngine.default fun key a ha _ =>
    hfinite a ((KeyMap.mem_values_iff _ _).mpr ⟨key, ha⟩)⟩
  rcases hwindows "web-0" with hsame | ⟨-, hforgotten⟩
  · exact absurd hsame (by decide +kernel)
  · exact hforgotten

end GroupSpec

end Chargeback
