import Chargeback.Proofs.Double.Quotient
import Chargeback.Proofs.Pipeline.Mirror

/-!
# Totals of the inventory

The CPU that a node's pods request and the bytes behind a list of claims are added up without
bounds on the number of pods and claims. Each of them stops at the largest word, but a few of
them can pass it together. Such a total is refused. All others are exact, whatever events have
been taken up. So a pod requests at most what is allocated on its node, and its share of the
node, rounded as it is, is never above one.

## Main definitions

* `Inventory.exactSum_eq_error_iff`: a sum is refused only if no word can hold it.
* `Inventory.claimedTotal`: the bytes of the present claims.
* `CostEngine.podShare_le_one`: a share of a node that holds the pod.
* `Traffic.totals_exact_or_refused`: the totals after any run.
-/

namespace Chargeback

/-- No part is larger than the total. -/
theorem Amount.toNat_le_total {l : List UInt64} {a : UInt64} (h : a ∈ l) : a.toNat ≤ total l := by
  induction h with
  | head l => exact Nat.le_add_right _ _
  | tail b _ ih => exact Nat.le_trans ih (Nat.le_add_left _ _)

/-- A pod that requests no more than is allocated has a share of one at most. -/
theorem CostEngine.podShare_le_one {pod : Metric} {node : NodeUsage}
    (h : pod.cpuRequest ≤ node.allocated) : podShare pod node ≤ 1.0 := by
  unfold podShare
  split
  next => decide +kernel
  next hne => exact toFloat_div_le_one h hne

/-! ## Sums -/

namespace Inventory

variable {i : Inventory} {history : List ResourceEvent} {node : String} {keys : List String}

/-- A sum is refused exactly if no word can hold the total. -/
theorem exactSum_eq_error_iff {l : List UInt64} :
    exactSum l = .error .sumOverflow ↔ UInt64.size ≤ Amount.total l := by
  cases hsum : exactSum l with
  | ok n =>
    have hlt := n.toNat_lt
    rw [exactSum_eq_ok_iff] at hsum
    simp only [reduceCtorEq, false_iff, UInt64.size]
    omega
  | error overflow =>
    refine ⟨fun _ => ?_, fun _ => rfl⟩
    by_contra hfits
    have hword : Amount.total l = (UInt64.ofNat (Amount.total l)).toNat :=
      (UInt64.toNat_ofNat_of_lt' (Nat.lt_of_not_le hfits)).symm
    rw [exactSum_eq_ok_iff.mpr hword] at hsum
    cases hsum

/-- The bytes of the present claims among the given keys. -/
def claimedTotal (history : List ResourceEvent) (keys : List String) : Nat :=
  Amount.total ((presentClaims history keys).map ClaimUsage.capacityBytes)

/-- A pod that is scheduled on a node is one of those whose requests are added up there. -/
theorem cpuRequest_le_requestedCpu {key : String} {pod : Resource} (hkey : key ∈ keys)
    (hpod : present? .pod key history = some pod) :
    pod.metric.cpuRequest.toNat ≤ requestedCpu history keys :=
  Amount.toNat_le_total (List.mem_map.mpr ⟨key, hkey, by rw [hpod, Option.elim_some]⟩)

theorem Mirrors.nodeUsage?_eq_error_iff (h : i.Mirrors history) :
    i.nodeUsage? node = .error .sumOverflow ↔
      (present? .node node history).isSome ∧
        UInt64.size ≤ requestedCpu history (i.keysOn node) := by
  have hnode := h.nodes node
  rw [← h.total_podsOn, ← exactSum_eq_error_iff]
  cases hpresent : present? .node node history with
  | none =>
    rw [hpresent] at hnode
    simp [nodeUsage?_eq_none_iff.mpr hnode]
  | some r =>
    rw [hpresent] at hnode
    rw [nodeUsage?_of_node hnode]
    cases exactSum ((i.podsOn node).map fun p => p.metric.cpuRequest) with
    | error overflow => simp [Except.map]
    | ok n => simp [Except.map]

theorem Mirrors.toNat_allocated (h : i.Mirrors history) {usage : NodeUsage}
    (husage : i.nodeUsage? node = .ok (some usage)) :
    usage.allocated.toNat = requestedCpu history (i.keysOn node) := by
  cases hnode : i.nodes.get? node with
  | none =>
    rw [nodeUsage?_eq_none_iff.mpr hnode] at husage
    cases husage
  | some r =>
    rw [nodeUsage?_of_node hnode] at husage
    cases hsum : exactSum ((i.podsOn node).map fun p => p.metric.cpuRequest) with
    | error overflow =>
      rw [hsum] at husage
      cases husage
    | ok n =>
      rw [hsum] at husage
      cases husage
      rw [← h.total_podsOn, exactSum_eq_ok_iff.mp hsum]

theorem Mirrors.claimedBytes_eq (h : i.Mirrors history) (keys : List String) :
    i.claimedBytes keys = exactSum ((presentClaims history keys).map ClaimUsage.capacityBytes) := by
  rw [claimedBytes, h.claimsOf]

end Inventory

/-! ## All runs -/

namespace Traffic

open Inventory

/-- Whatever events have been taken up, the CPU that is allocated on a node is what the pods
scheduled there request, and there is none exactly if the node is present and no word can hold
it; so it is with the bytes of claims. A pod on the node requests at most what is allocated, and
its share of the node is at most one. -/
theorem totals_exact_or_refused (settings : PipelineSettings) (now : Instant) (batchSize : Nat)
    (moves : List TrafficMove) :
    let start : Traffic := { pipeline := .new settings now, batchSize }
    let history := start.history moves
    let inventory := (start.run moves).pipeline.inventory
    (∀ node, ∃ keys, ScheduledOn history node keys ∧
      (inventory.nodeUsage? node = .error .sumOverflow ↔
        (present? .node node history).isSome ∧ 2 ^ 64 ≤ requestedCpu history keys) ∧
      ∀ usage, inventory.nodeUsage? node = .ok (some usage) →
        usage.allocated.toNat = requestedCpu history keys ∧
        ∀ key ∈ keys, ∀ pod, present? .pod key history = some pod →
          pod.metric.cpuRequest ≤ usage.allocated ∧
          CostEngine.podShare pod.metric usage ≤ 1.0) ∧
    ∀ keys,
      (inventory.claimedBytes keys = .error .sumOverflow ↔ 2 ^ 64 ≤ claimedTotal history keys) ∧
      ∀ bytes, inventory.claimedBytes keys = .ok bytes →
        bytes.toNat = claimedTotal history keys := by
  intro start history inventory
  have H : Follows (start.run moves) history := (follows_new settings now batchSize).run moves
  have hmirrors : inventory.Mirrors history := H.mirrors
  constructor
  · intro node
    refine ⟨inventory.keysOn node, hmirrors.scheduledOn node, hmirrors.nodeUsage?_eq_error_iff, ?_⟩
    intro usage husage
    have hallocated := hmirrors.toNat_allocated husage
    refine ⟨hallocated, fun key hkey pod hpod => ?_⟩
    have hle : pod.metric.cpuRequest ≤ usage.allocated := by
      rw [UInt64.le_iff_toNat_le, hallocated]
      exact cpuRequest_le_requestedCpu hkey hpod
    exact ⟨hle, CostEngine.podShare_le_one hle⟩
  · intro keys
    rw [hmirrors.claimedBytes_eq]
    exact ⟨exactSum_eq_error_iff, fun bytes hbytes => (exactSum_eq_ok_iff.mp hbytes).symm⟩

/-! ## A node and two pods -/

/-- The node, two pods on it that request some CPU, and two claims of a size, all of them new. -/
def rackEvents (cpu cpu' size : String) : List ResourceEvent :=
  let pod (name cpu : String) : Resource :=
    let container : Container :=
      { resources := some { requests := some (.ofList [("cpu", cpu)]) } }
    { metadata := { name := some name, namespaceName := some "shop" }
      content := .pod (some { nodeName := some "n1", containers := [container] }) none }
  let claim (name : String) : Resource :=
    { metadata := { name := some name, namespaceName := some "shop" }
      content :=
        .persistentVolumeClaim
          (some { resources := some { requests := some (.ofList [("storage", size)]) } }) none }
  nodeAdded :: [pod "web-0" cpu, pod "web-1" cpu', claim "data-0", claim "data-1"].map fun r =>
    .new .create r ⟨1700000000, 0⟩

/-- The events are taken up one after the other. -/
def rackMoves (cpu cpu' size : String) : List TrafficMove :=
  (rackEvents cpu cpu' size).zipIdx.flatMap fun (e, i) => [.begin {} e, .advance i]

/-- A start without events. -/
def rackStart : Traffic := { pipeline := .new {} ⟨1700000000, 0⟩, batchSize := 1 }

/-- Two pods that each request the most that a word can hold leave their node without a usage,
and two claims of that size leave a pod without its storage. -/
theorem full_rack_refused :
    let inventory :=
      (rackStart.run (rackMoves "20000000000000000" "20000000000000000" "16Ei")).pipeline.inventory
    inventory.counts = [1, 2, 2] ∧ inventory.nodeUsage? "n1" = .error .sumOverflow ∧
      inventory.claimedBytes ["shop/data-0", "shop/data-1"] = .error .sumOverflow := by
  decide +kernel

/-- What a quarter of a core and three quarters make of the node. -/
theorem rack_totals_exact :
    let moves := rackMoves "250m" "750m" "10Gi"
    let inventory := (rackStart.run moves).pipeline.inventory
    ∃ usage keys pod bytes, inventory.nodeUsage? "n1" = .ok (some usage) ∧
      present? .pod "shop/web-1" (rackStart.history moves) = some pod ∧
      usage.allocated.toNat = requestedCpu (rackStart.history moves) keys ∧
      CostEngine.podShare pod.metric usage ≤ 1.0 ∧
      inventory.claimedBytes ["shop/data-0", "shop/data-1"] = .ok bytes ∧
      bytes.toNat = claimedTotal (rackStart.history moves) ["shop/data-0", "shop/data-1"] := by
  intro moves inventory
  obtain ⟨husages, hclaims⟩ := totals_exact_or_refused {} ⟨1700000000, 0⟩ 1 moves
  obtain ⟨keys, hkeys, -, hexact⟩ := husages "n1"
  have husage : inventory.nodeUsage? "n1" =
      .ok (some { instanceType := "", allocated := 1000 }) := by decide +kernel
  have hbytes : inventory.claimedBytes ["shop/data-0", "shop/data-1"] = .ok 21474836480 := by
    decide +kernel
  obtain ⟨pod, hpod⟩ : ∃ pod, present? .pod "shop/web-1" (rackStart.history moves) = some pod :=
    Option.isSome_iff_exists.mp (by decide +kernel)
  have hscheduled : pod.OnNode "n1" := by
    have hname : (present? .pod "shop/web-1" (rackStart.history moves)).map
        (fun pod => (PodRecord.ofResource pod).nodeName) = some (some "n1") := by decide +kernel
    rw [hpod] at hname
    exact Resource.onNode_iff.mpr (Option.some.inj hname)
  obtain ⟨hallocated, hshares⟩ := hexact _ husage
  have hkey : "shop/web-1" ∈ keys := (hkeys.mem_iff _).mpr ⟨pod, hpod, hscheduled⟩
  exact ⟨_, keys, pod, _, husage, hpod, hallocated, (hshares _ hkey pod hpod).2, hbytes,
    (hclaims _).2 _ hbytes⟩

end Traffic

end Chargeback
