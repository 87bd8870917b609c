import Chargeback.Inventory.Tracking
import Chargeback.Reconciler.Event

/-!
# The inventory mirrors a history

A history is a list of events in the order in which they were taken up. Under each key it
leaves the object of the last event about that key, unless this event was a deletion. The
inventory mirrors a history if it holds just these objects. Then it does not matter how the
events of different keys were mixed, and what is derived from the inventory can be told from
the history: who shares a node, and what a pod costs.

## Main definitions

* `present?`: the object that a history leaves under a key.
* `Inventory.Mirrors`: the inventory holds what a history leaves.
* `Inventory.Mirrors.track`: it goes on to do so with every event that is tracked.
* `Inventory.SharesNode`, `Inventory.PricesPod`: nodes and pods as the history tells.
-/

namespace Chargeback

/-! ## Histories -/

/-- The event carries an object of a kind, with a given key. -/
def ResourceEvent.isAbout (kind : ResourceKind) (key : String) (e : ResourceEvent) : Bool :=
  e.object.any fun object => object.kind = kind ∧ object.key = key

/-- The last event about a key. -/
def lastAbout? (kind : ResourceKind) (key : String) (history : List ResourceEvent) :
    Option ResourceEvent :=
  (history.filter (·.isAbout kind key)).getLast?

/-- The object that a history leaves under a key: that of the last event about it, unless
this was a deletion. -/
def present? (kind : ResourceKind) (key : String) (history : List ResourceEvent) :
    Option Resource :=
  (lastAbout? kind key history).bind fun e => if e.action = .delete then none else e.object

/-- Two histories with the same events about each key, in the same order. -/
def SameByKey (history history' : List ResourceEvent) : Prop :=
  ∀ kind key, history.filter (·.isAbout kind key) = history'.filter (·.isAbout kind key)

variable {history history' : List ResourceEvent} {e : ResourceEvent} {object : Resource}
  {kind : ResourceKind} {key : String} {i i' : Inventory}

theorem isAbout_of_object (he : e.object = some object) :
    e.isAbout kind key ↔ object.kind = kind ∧ object.key = key := by
  simp [ResourceEvent.isAbout, he]

/-- One more event counts for the keys that it is about. -/
theorem present?_append (he : e.object = some object) :
    present? kind key (history ++ [e]) =
      if object.kind = kind ∧ object.key = key then
        if e.action = .delete then none else some object
      else present? kind key history := by
  rw [present?, lastAbout?, List.filter_append]
  by_cases h : object.kind = kind ∧ object.key = key
  · rw [List.filter_cons_of_pos ((isAbout_of_object he).mpr h), if_pos h, List.filter_nil,
      List.getLast?_concat, Option.bind_some, he]
  · rw [List.filter_cons_of_neg (fun h' => h ((isAbout_of_object he).mp h')), if_neg h,
      List.filter_nil, List.append_nil]
    rfl

theorem SameByKey.present?_eq (h : SameByKey history history') :
    present? kind key history = present? kind key history' := by
  rw [present?, present?, lastAbout?, lastAbout?, h kind key]

/-- Events about different keys may come in any order. -/
theorem sameByKey_swap {a b : ResourceEvent}
    (hne : ∀ kind key, ¬(a.isAbout kind key ∧ b.isAbout kind key))
    (before after : List ResourceEvent) :
    SameByKey (before ++ a :: b :: after) (before ++ b :: a :: after) := by
  intro kind key
  simp only [List.filter_append, List.filter_cons]
  by_cases ha : a.isAbout kind key
  · have hb : ¬b.isAbout kind key := fun hb => hne kind key ⟨ha, hb⟩
    simp only [ha, hb, if_true, Bool.false_eq_true, if_false]
  · simp only [ha, Bool.false_eq_true, if_false]

/-! ## Mirrors -/

/-- The spec of a pod names the node that the pod is scheduled on. -/
def Resource.OnNode (r : Resource) (node : String) : Prop :=
  ∃ spec status, r.content = .pod (some spec) status ∧ spec.nodeName = some node

theorem Resource.onNode_iff {r : Resource} {node : String} :
    r.OnNode node ↔ (PodRecord.ofResource r).nodeName = some node := by
  constructor
  · rintro ⟨spec, status, hcontent, hnode⟩
    rw [PodRecord.ofResource, hcontent]
    exact hnode
  · obtain ⟨metadata, content⟩ := r
    intro hnode
    cases content with
    | pod spec status =>
      cases spec with
      | none => cases hnode
      | some spec => exact ⟨spec, status, rfl, hnode⟩
    | _ => cases hnode

/-- What is kept of a claim; other objects claim nothing. -/
def Resource.claimUsage (r : Resource) : ClaimUsage :=
  match r.content with
  | .persistentVolumeClaim spec status => Content.claimUsage spec status
  | _ => { storageClass := "", capacityBytes := 0 }

namespace Inventory

/-- The pods, nodes and claims are the objects that a history leaves, each with the record
of that object. -/
structure Mirrors (i : Inventory) (history : List ResourceEvent) : Prop where
  pods : ∀ key, i.pods.get? key = (present? .pod key history).map PodRecord.ofResource
  nodes : ∀ key, i.nodes.get? key = (present? .node key history).map NodeRecord.ofResource
  claims : ∀ key,
    i.claims.get? key = (present? .persistentVolumeClaim key history).map Resource.claimUsage

theorem mirrors_empty : Mirrors {} [] where
  pods _ := rfl
  nodes _ := rfl
  claims _ := rfl

theorem track_pods (i : Inventory) (a : Action) (r : Resource) (key : String) :
    (i.track a r).pods.get? key =
      if r.kind = .pod ∧ r.key = key then
        if a = .delete then none else some (PodRecord.ofResource r)
      else i.pods.get? key := by
  obtain ⟨metadata, content⟩ := r
  cases content with
  | pod spec status =>
    cases a <;>
      simp [track, observe, forget, upsertPod, removePod, KeyMap.get?_insert, KeyMap.get?_erase,
        Resource.kind, Content.kind]
  | _ => cases a <;> rfl

theorem track_nodes (i : Inventory) (a : Action) (r : Resource) (key : String) :
    (i.track a r).nodes.get? key =
      if r.kind = .node ∧ r.key = key then
        if a = .delete then none else some (NodeRecord.ofResource r)
      else i.nodes.get? key := by
  obtain ⟨metadata, content⟩ := r
  cases content with
  | node spec status =>
    cases a <;>
      simp [track, observe, forget, upsertNode, removeNode, KeyMap.get?_insert, KeyMap.get?_erase,
        Resource.kind, Content.kind]
  | _ => cases a <;> rfl

theorem track_claims (i : Inventory) (a : Action) (r : Resource) (key : String) :
    (i.track a r).claims.get? key =
      if r.kind = .persistentVolumeClaim ∧ r.key = key then
        if a = .delete then none else some r.claimUsage
      else i.claims.get? key := by
  obtain ⟨metadata, content⟩ := r
  cases content with
  | persistentVolumeClaim spec status =>
    cases a <;>
      simp [track, observe, forget, upsertClaim, removeClaim, KeyMap.get?_insert,
        KeyMap.get?_erase, Resource.kind, Content.kind, Resource.claimUsage]
  | _ => cases a <;> rfl

/-- What an event changes in the inventory is what it changes in the history. -/
theorem Mirrors.track (h : i.Mirrors history) (he : e.object = some object) :
    (i.track e.action object).Mirrors (history ++ [e]) where
  pods key := by
    rw [track_pods, present?_append he, h.pods key]
    split
    next => split <;> rfl
    next => rfl
  nodes key := by
    rw [track_nodes, present?_append he, h.nodes key]
    split
    next => split <;> rfl
    next => rfl
  claims key := by
    rw [track_claims, present?_append he, h.claims key]
    split
    next => split <;> rfl
    next => rfl

/-- How the events of different keys are mixed does not show in the inventory. -/
theorem Mirrors.eq_of_sameByKey (h : i.Mirrors history) (h' : i'.Mirrors history')
    (hsame : SameByKey history history') : i = i' := by
  have hpods : i.pods = i'.pods := by
    ext1 key
    rw [h.pods, h'.pods, hsame.present?_eq]
  have hnodes : i.nodes = i'.nodes := by
    ext1 key
    rw [h.nodes, h'.nodes, hsame.present?_eq]
  have hclaims : i.claims = i'.claims := by
    ext1 key
    rw [h.claims, h'.claims, hsame.present?_eq]
  obtain ⟨nodes, pods, claims⟩ := i
  obtain ⟨nodes', pods', claims'⟩ := i'
  cases hpods
  cases hnodes
  cases hclaims
  rfl

/-! ## Nodes -/

/-- The keys of the pods that are scheduled on a node, each once. -/
structure ScheduledOn (history : List ResourceEvent) (node : String) (keys : List String) :
    Prop where
  nodup : keys.Nodup
  mem_iff : ∀ key, key ∈ keys ↔
    ∃ pod, present? .pod key history = some pod ∧ pod.OnNode node

/-- The millicores that the pods under some keys request. -/
def requestedCpu (history : List ResourceEvent) (keys : List String) : Nat :=
  Amount.total <| keys.map fun key =>
    (present? .pod key history).elim 0 fun pod => pod.metric.cpuRequest

/-- The usage of a node is as the history tells: there is one exactly if the node is present,
and it says what the pods scheduled on the node request, if a word can hold this. -/
structure SharesNode (i : Inventory) (history : List ResourceEvent) (node : String) : Prop where
  none_iff : i.nodeUsage? node = .ok none ↔ present? .node node history = none
  some_of_present : ∃ keys, ScheduledOn history node keys ∧
    ∀ r, present? .node node history = some r → requestedCpu history keys < UInt64.size →
      ∃ usage, i.nodeUsage? node = .ok (some usage) ∧
        usage.instanceType = (NodeRecord.ofResource r).instanceType ∧
        usage.allocated.toNat = requestedCpu history keys

/-- The keys of the known pods that are scheduled on a node. -/
def keysOn (i : Inventory) (node : String) : List String :=
  (i.pods.entries.filter fun e => e.2.nodeName = some node).map Prod.fst

theorem Mirrors.scheduledOn (h : i.Mirrors history) (node : String) :
    ScheduledOn history node (i.keysOn node) where
  nodup := (List.filter_sublist.map Prod.fst).nodup i.pods.nodup_keys
  mem_iff key := by
    simp only [keysOn, List.mem_map, List.mem_filter, Prod.exists, exists_and_right,
      exists_eq_right, KeyMap.mem_entries_iff, h.pods key, Option.map_eq_some_iff,
      decide_eq_true_eq]
    constructor
    · rintro ⟨_, ⟨pod, hpod, rfl⟩, hnode⟩
      exact ⟨pod, hpod, Resource.onNode_iff.mpr hnode⟩
    · rintro ⟨pod, hpod, hnode⟩
      exact ⟨_, ⟨pod, hpod, rfl⟩, Resource.onNode_iff.mp hnode⟩

theorem Mirrors.total_podsOn (h : i.Mirrors history) (node : String) :
    Amount.total ((i.podsOn node).map fun p => p.metric.cpuRequest) =
      requestedCpu history (i.keysOn node) := by
  rw [requestedCpu, podsOn, KeyMap.values, keysOn, List.filter_map, List.map_map, List.map_map]
  congr 1
  refine List.map_congr_left fun e he => ?_
  have hmem : (e.1, e.2) ∈ i.pods.entries := (List.mem_filter.mp he).1
  have hget := (KeyMap.mem_entries_iff _ _ _).mp hmem
  rw [h.pods, Option.map_eq_some_iff] at hget
  obtain ⟨pod, hpod, hrecord⟩ := hget
  simp only [Function.comp_apply, hpod, Option.elim_some, ← hrecord]
  rfl

theorem exactSum_eq_ok_iff {l : List UInt64} {n : UInt64} :
    exactSum l = .ok n ↔ Amount.total l = n.toNat := by
  rw [← Amount.sum?_eq_some_iff, exactSum]
  cases Amount.sum? l with
  | none => simp
  | some m => simp

theorem nodeUsage?_of_node {node : String} {r : NodeRecord} (h : i.nodes.get? node = some r) :
    i.nodeUsage? node =
      (exactSum ((i.podsOn node).map fun p => p.metric.cpuRequest)).map fun allocated =>
        some { instanceType := r.instanceType, allocated } := by
  rw [nodeUsage?, h]
  rfl

theorem nodeUsage?_eq_none_iff {node : String} :
    i.nodeUsage? node = .ok none ↔ i.nodes.get? node = none := by
  cases hnode : i.nodes.get? node with
  | none =>
    rw [nodeUsage?, hnode]
    exact ⟨fun _ => rfl, fun _ => rfl⟩
  | some r =>
    rw [nodeUsage?_of_node hnode]
    cases exactSum ((i.podsOn node).map fun p => p.metric.cpuRequest) with
    | error overflow => simp [Except.map]
    | ok n => simp [Except.map]

theorem Mirrors.sharesNode (h : i.Mirrors history) (node : String) :
    i.SharesNode history node where
  none_iff := by rw [nodeUsage?_eq_none_iff, h.nodes, Option.map_eq_none_iff]
  some_of_present := by
    refine ⟨i.keysOn node, h.scheduledOn node, fun r hr hfits => ?_⟩
    have hnode : i.nodes.get? node = some (NodeRecord.ofResource r) := by rw [h.nodes, hr]; rfl
    have hword : (UInt64.ofNat (requestedCpu history (i.keysOn node))).toNat =
        requestedCpu history (i.keysOn node) := UInt64.toNat_ofNat_of_lt' hfits
    have hsum : exactSum ((i.podsOn node).map fun p => p.metric.cpuRequest) =
        .ok (UInt64.ofNat (requestedCpu history (i.keysOn node))) := by
      rw [exactSum_eq_ok_iff, hword, h.total_podsOn]
    refine ⟨{ instanceType := (NodeRecord.ofResource r).instanceType, allocated := _ }, ?_, rfl,
      hword⟩
    rw [nodeUsage?_of_node hnode, hsum]
    rfl

/-! ## Pods -/

/-- A pod is present, it is scheduled, and its node is present. -/
def RunsOn (history : List ResourceEvent) (key : String) (pod : Resource) (node : String) :
    Prop :=
  present? .pod key history = some pod ∧ pod.OnNode node ∧
    (present? .node node history).isSome

/-- The present claims among the given keys, in their order. -/
def presentClaims (history : List ResourceEvent) (keys : List String) : List ClaimUsage :=
  keys.filterMap fun key =>
    (present? .persistentVolumeClaim key history).map Resource.claimUsage

/-- The cost of a pod is as the history tells: there is one exactly if the pod runs on a
present node, and it is that of its share of the node and of the claims that are present. -/
structure PricesPod (i : Inventory) (history : List ResourceEvent) (engine : CostEngine)
    (key : String) (now : Instant) : Prop where
  none_iff : i.podCost? engine key now = .ok none ↔ ¬∃ pod node, RunsOn history key pod node
  some_of_runsOn : ∀ pod node usage, RunsOn history key pod node →
    i.nodeUsage? node = .ok (some usage) →
    i.podCost? engine key now =
      .ok (some (engine.podCost pod.metric usage (presentClaims history pod.claimKeys) now))

theorem podCost?_of_absent {engine : CostEngine} {now : Instant} (h : i.pods.get? key = none) :
    i.podCost? engine key now = .ok none := by
  rw [podCost?, h]
  rfl

theorem podCost?_of_unscheduled {engine : CostEngine} {now : Instant} {pod : PodRecord}
    (hpod : i.pods.get? key = some pod) (hnode : pod.nodeName = none) :
    i.podCost? engine key now = .ok none := by
  rw [podCost?, hpod]
  simp only [hnode]
  rfl

/-- The cost of a pod that is scheduled, from the usage of its node. -/
theorem podCost?_of_pod {engine : CostEngine} {now : Instant} {pod : PodRecord} {node : String}
    (hpod : i.pods.get? key = some pod) (hnode : pod.nodeName = some node) :
    i.podCost? engine key now =
      (i.nodeUsage? node).map fun usage =>
        usage.map fun usage => engine.podCost pod.metric usage (i.claimsOf pod.claims) now := by
  rw [podCost?, hpod]
  simp only [hnode]
  rcases i.nodeUsage? node with overflow | _ | usage
  · rfl
  · rfl
  · rfl

/-- A scheduled pod has no cost only if its node is not known. -/
theorem podCost?_eq_none_iff {engine : CostEngine} {now : Instant} {pod : PodRecord}
    {node : String} (hpod : i.pods.get? key = some pod) (hnode : pod.nodeName = some node) :
    i.podCost? engine key now = .ok none ↔ i.nodes.get? node = none := by
  rw [podCost?_of_pod hpod hnode, ← nodeUsage?_eq_none_iff]
  rcases i.nodeUsage? node with overflow | _ | usage
  · simp [Except.map]
  · simp [Except.map]
  · simp [Except.map]

theorem Mirrors.claimsOf (h : i.Mirrors history) (keys : List String) :
    i.claimsOf keys = presentClaims history keys := by
  rw [Inventory.claimsOf, presentClaims]
  congr 1
  funext key
  exact h.claims key

theorem Mirrors.pricesPod (h : i.Mirrors history) (engine : CostEngine) (key : String)
    (now : Instant) : i.PricesPod history engine key now where
  none_iff := by
    have hrecord := h.pods key
    cases hpod : present? .pod key history with
    | none =>
      rw [hpod] at hrecord
      simp [podCost?_of_absent hrecord, RunsOn, hpod]
    | some pod =>
      rw [hpod] at hrecord
      cases hname : (PodRecord.ofResource pod).nodeName with
      | none =>
        simp [podCost?_of_unscheduled hrecord hname, RunsOn, hpod, hname, Resource.onNode_iff]
      | some node =>
        simp [podCost?_eq_none_iff hrecord hname, h.nodes, RunsOn, hpod, hname,
          Resource.onNode_iff]
  some_of_runsOn := by
    rintro pod node usage ⟨hpod, hname, -⟩ husage
    have hrecord : i.pods.get? key = some (PodRecord.ofResource pod) := by rw [h.pods, hpod]; rfl
    rw [podCost?_of_pod hrecord (Resource.onNode_iff.mp hname), husage, h.claimsOf]
    rfl

end Inventory

end Chargeback
