import Chargeback.Inventory.Tracking
import Chargeback.Proofs.Reconciler.CurrentPods
import Mathlib.Data.List.Basic

/-!
# Interleavings of pods and claims

Pods and claims are watched one by one: their events come in an order for each object, but
those of different objects may come in any order. What is known of the size of a claim
depends on its own events only, and so does which event of a pod counts last. How much of
the claims was known when that event was handled does depend on the interleaving.

## Main definitions

* `ClaimSizes.after`, `claimSizes`: the claims after an event, and after a history.
* `Interleaved`: two histories with the same events of each pod and of each claim.
* `LastMoved`: the last event that moves a pod, and what came before it.
-/

namespace Chargeback

/-! ## Claims -/

/-- The size of a claim; other objects have none. -/
def Resource.claimBytes (r : Resource) : UInt64 :=
  match r.content with
  | .persistentVolumeClaim spec status => (Content.claimUsage spec status).capacityBytes
  | _ => 0

/-- The claim that an event is about, if it is about one. -/
def ResourceEvent.claim? (e : ResourceEvent) : Option Resource :=
  e.object.filter fun object => object.kind = .persistentVolumeClaim

/-- Sizes of claims by key. -/
abbrev ClaimSizes := String → Option UInt64

/-- The sizes of the claims that the inventory knows. -/
def Inventory.claimSizes (i : Inventory) : ClaimSizes := fun key =>
  (i.claims.get? key).map ClaimUsage.capacityBytes

namespace ClaimSizes

/-- The claims after an event: the last object counts, and what is deleted is forgotten. -/
def after (sizes : ClaimSizes) (e : ResourceEvent) : ClaimSizes :=
  match e.claim? with
  | none => sizes
  | some claim => fun key =>
    if claim.key = key then (if e.action = .delete then none else some claim.claimBytes)
    else sizes key

/-- The total over the known claims among the given keys. -/
def total (sizes : ClaimSizes) (keys : List String) : Nat := Amount.total (keys.filterMap sizes)

variable {sizes sizes' : ClaimSizes}

theorem total_congr {keys : List String} (h : ∀ key ∈ keys, sizes key = sizes' key) :
    sizes.total keys = sizes'.total keys := by
  rw [total, total, List.filterMap_congr h]

end ClaimSizes

/-- The claims after a history. -/
def claimSizes (sizes : ClaimSizes) (events : List ResourceEvent) : ClaimSizes :=
  events.foldl ClaimSizes.after sizes

namespace Inventory

theorem claimSizes_upsertClaim (i : Inventory) (key k : String) (c : ClaimUsage) :
    (i.upsertClaim key c).claimSizes k = if key = k then some c.capacityBytes else i.claimSizes k := by
  rw [claimSizes, upsertClaim, KeyMap.get?_insert]
  split
  next => rfl
  next => rfl

theorem claimSizes_removeClaim (i : Inventory) (key k : String) :
    (i.removeClaim key).claimSizes k = if key = k then none else i.claimSizes k := by
  rw [claimSizes, removeClaim, KeyMap.get?_erase]
  split
  next => rfl
  next => rfl

/-- The inventory keeps the claims as they were observed last. -/
theorem claimSizes_track (i : Inventory) {e : ResourceEvent} {object : Resource}
    (he : e.object = some object) :
    (i.track e.action object).claimSizes = i.claimSizes.after e := by
  funext key
  rw [ClaimSizes.after, ResourceEvent.claim?, he]
  obtain ⟨metadata, content⟩ := object
  cases content with
  | persistentVolumeClaim spec status =>
    cases e.action with
    | create => exact claimSizes_upsertClaim i ..
    | update => exact claimSizes_upsertClaim i ..
    | delete => exact claimSizes_removeClaim i ..
  | _ => cases e.action <;> rfl

/-- The bytes of some claims are the total of their sizes. -/
theorem toNat_claimedBytes {i : Inventory} {keys : List String} {bytes : UInt64}
    (h : i.claimedBytes keys = .ok bytes) : bytes.toNat = i.claimSizes.total keys := by
  have hsum : Amount.sum? ((i.claimsOf keys).map ClaimUsage.capacityBytes) = some bytes := by
    rw [claimedBytes, exactSum] at h
    split at h
    next n hn => rw [hn, Except.ok.inj h]
    next => cases h
  rw [ClaimSizes.total, ← (Amount.sum?_eq_some_iff _ bytes).mp hsum, claimsOf, List.map_filterMap]
  rfl

end Inventory

/-! ## Interleavings -/

namespace ResourceEvent

/-- The event is about a given claim. -/
def isOfClaim (key : String) (e : ResourceEvent) : Bool :=
  e.claim?.any fun claim => claim.key = key

/-- The event is about a given pod. -/
def isOfPod (ns name : String) (e : ResourceEvent) : Bool :=
  e.pod?.any fun pod =>
    (PodMember.ofResource pod).namespaceName = ns && (PodMember.ofResource pod).name = name

/-- The event makes a given pod join its groups, or leave them. -/
def moves (s : ReconcilerSettings) (ns name : String) (e : ResourceEvent) : Bool :=
  (e.applies s || e.purges s) && e.isOfPod ns name

end ResourceEvent

variable {events events' before : List ResourceEvent} {e : ResourceEvent} {key ns name : String}
  {sizes : ClaimSizes} {s : ReconcilerSettings} {pod : Resource}

theorem ClaimSizes.after_of_not_isOfClaim (h : ¬e.isOfClaim key) : sizes.after e key = sizes key := by
  cases hclaim : e.claim? with
  | none => simp only [after, hclaim]
  | some claim =>
    have hkey : claim.key ≠ key := by
      intro hkey
      refine h ?_
      rw [ResourceEvent.isOfClaim, hclaim]
      exact decide_eq_true hkey
    simp only [after, hclaim, hkey, if_false]

/-- An event about a pod is about no claim. -/
theorem ClaimSizes.after_of_pod (h : e.pod? = some pod) : sizes.after e = sizes := by
  obtain ⟨hobject, hkind, -⟩ := Reconciler.of_pod?_eq_some h
  have hclaim : e.claim? = none := by
    rw [ResourceEvent.claim?, hobject, Option.filter_some, hkind]
    rfl
  simp only [after, hclaim]

theorem ClaimSizes.after_congr {sizes' : ClaimSizes} (h : sizes key = sizes' key) :
    sizes.after e key = sizes'.after e key := by
  cases hclaim : e.claim? with
  | none => simp only [after, hclaim, h]
  | some claim => simp only [after, hclaim, h]

/-- By induction on the history: what is known of a claim depends on its own events only. -/
theorem claimSizes_own {sizes' : ClaimSizes} (h : sizes key = sizes' key) :
    claimSizes sizes events key = claimSizes sizes' (events.filter (·.isOfClaim key)) key := by
  induction events generalizing sizes sizes' with
  | nil => exact h
  | cons e events ih =>
    by_cases he : e.isOfClaim key
    · rw [List.filter_cons_of_pos he]
      exact ih (ClaimSizes.after_congr h)
    · rw [List.filter_cons_of_neg he]
      exact ih ((ClaimSizes.after_of_not_isOfClaim he).trans h)

/-- Two histories with the same events of each pod and of each claim, in the same order. -/
structure Interleaved (events events' : List ResourceEvent) : Prop where
  pods : ∀ ns name, events.filter (·.isOfPod ns name) = events'.filter (·.isOfPod ns name)
  claims : ∀ key, events.filter (·.isOfClaim key) = events'.filter (·.isOfClaim key)

theorem Interleaved.symm (h : Interleaved events events') : Interleaved events' events :=
  ⟨fun ns name => (h.pods ns name).symm, fun key => (h.claims key).symm⟩

/-- An event about no pod and one about no claim may come in any order. -/
theorem interleaved_swap {a b : ResourceEvent} (ha : a.pod? = none) (hb : b.claim? = none)
    (before after : List ResourceEvent) :
    Interleaved (before ++ a :: b :: after) (before ++ b :: a :: after) := by
  have hpod (ns name : String) : ¬a.isOfPod ns name := by simp [ResourceEvent.isOfPod, ha]
  have hclaim (key : String) : ¬b.isOfClaim key := by simp [ResourceEvent.isOfClaim, hb]
  refine ⟨fun ns name => ?_, fun key => ?_⟩
  · simp only [List.filter_append, List.filter_cons, hpod ns name]
    rfl
  · simp only [List.filter_append, List.filter_cons, hclaim key]
    rfl

theorem Interleaved.claimSizes_eq (h : Interleaved events events') (sizes : ClaimSizes) :
    claimSizes sizes events = claimSizes sizes events' := by
  funext key
  calc claimSizes sizes events key
    _ = claimSizes sizes (events.filter (·.isOfClaim key)) key := claimSizes_own rfl
    _ = claimSizes sizes (events'.filter (·.isOfClaim key)) key := by rw [h.claims]
    _ = claimSizes sizes events' key := (claimSizes_own rfl).symm

/-- The storage that a pod has in its groups after an event that moves it: the total of its
claims if it joins them, and none if it leaves them. -/
def broughtStorage (s : ReconcilerSettings) (sizes : ClaimSizes) (e : ResourceEvent)
    (pod : Resource) : Option Nat :=
  if e.applies s then some (sizes.total pod.claimKeys) else none

theorem broughtStorage_congr {sizes' : ClaimSizes}
    (h : ∀ key ∈ pod.claimKeys, sizes key = sizes' key) :
    broughtStorage s sizes e pod = broughtStorage s sizes' e pod := by
  rw [broughtStorage, broughtStorage, ClaimSizes.total_congr h]

/-- No event makes a pod join its groups or leave them. -/
def NoneMoves (s : ReconcilerSettings) (events : List ResourceEvent) (pod : Resource) : Prop :=
  ∀ e ∈ events, ¬e.moves s (PodMember.ofResource pod).namespaceName (PodMember.ofResource pod).name

/-- The last event that makes a pod join its groups or leave them, and what came before it. -/
structure LastMoved (s : ReconcilerSettings) (events before : List ResourceEvent)
    (e : ResourceEvent) (pod : Resource) : Prop where
  pod_eq : e.pod? = some pod
  counts : e.applies s = true ∨ e.purges s = true
  last : ∃ after, events = before ++ e :: after ∧ NoneMoves s after pod

theorem Interleaved.moves_eq (h : Interleaved events events') (s : ReconcilerSettings)
    (ns name : String) : events.filter (·.moves s ns name) = events'.filter (·.moves s ns name) := by
  simp only [ResourceEvent.moves, ← List.filter_filter, h.pods]

theorem NoneMoves.interleaved (h : NoneMoves s events pod) (hsame : Interleaved events events') :
    NoneMoves s events' pod := by
  have hmoves := hsame.moves_eq s (PodMember.ofResource pod).namespaceName
    (PodMember.ofResource pod).name
  rw [List.filter_eq_nil_iff.mpr h] at hmoves
  exact List.filter_eq_nil_iff.mp hmoves.symm

/-- The last event that moves a pod is the same one in all interleavings. -/
theorem LastMoved.interleaved (h : LastMoved s events before e pod)
    (hsame : Interleaved events events') : ∃ before', LastMoved s events' before' e pod := by
  obtain ⟨after, rfl, hafter⟩ := h.last
  have hmoves := hsame.moves_eq s (PodMember.ofResource pod).namespaceName
    (PodMember.ofResource pod).name
  have he : e.moves s (PodMember.ofResource pod).namespaceName (PodMember.ofResource pod).name := by
    simpa [ResourceEvent.moves, ResourceEvent.isOfPod, h.pod_eq] using h.counts
  rw [List.filter_append, List.filter_cons_of_pos he, List.filter_eq_nil_iff.mpr hafter] at hmoves
  obtain ⟨l, l', rfl, -, hl'⟩ := List.filter_eq_append_iff.mp hmoves.symm
  obtain ⟨m, after', rfl, -, -, hafter'⟩ := List.filter_eq_cons_iff.mp hl'
  refine ⟨l ++ m, h.pod_eq, h.counts, after', ?_, List.filter_eq_nil_iff.mp hafter'⟩
  rw [List.append_assoc]

end Chargeback
