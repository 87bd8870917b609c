import Chargeback.Proofs.Pipeline.Storage
import Chargeback.Proofs.Pipeline.Totals
import Mathlib.Algebra.BigOperators.Group.List.Lemmas

/-!
# Claims of a pod

A pod mounts a claim through a volume that refers to it, and several of its volumes may refer
to the same claim. Its claims are listed by volume. So both the bytes that a pod brings into its
groups and the claims that it is priced with count a known claim as often as volumes refer to
it, and once only if one volume does.

## Main definitions

* `Resource.references`: how many volumes of a pod refer to a claim.
* `Inventory.mounted`, `Inventory.mountedBytes`: the known claims of a pod, each once, with that
  number, and what they come to.
* `Inventory.CountsByVolume`: what an inventory says about the claims of a pod.
* `Pipeline.claims_counted_by_volume`: the same for the groups of the pod.
-/

namespace Chargeback

universe u

/-! ## Entries of a list by their number -/

section Multiplicity

variable {α β : Type u} [DecidableEq α]

/-- A list has each of its entries as often as it counts it. -/
theorem perm_flatMap_replicate_count (l : List α) :
    l.Perm (l.dedup.flatMap fun a => List.replicate (l.count a) a) := by
  rw [List.perm_iff_count]
  intro a
  rw [List.count_flatMap, List.sum_map_eq_nsmul_single a]
  · by_cases ha : a ∈ l
    · simp [List.count_dedup, ha]
    · simp [List.count_dedup, ha, List.count_eq_zero_of_not_mem ha]
  · intro b hb _
    simp [List.count_replicate, hb]

/-- So does a list of what is known of the entries. -/
theorem filterMap_perm_flatMap_replicate (f : α → Option β) (l : List α) :
    (l.filterMap f).Perm
      ((l.dedup.filterMap fun a => (f a).map fun b => (l.count a, b)).flatMap fun m =>
        List.replicate m.1 m.2) := by
  refine ((perm_flatMap_replicate_count l).filterMap f).trans (.of_eq ?_)
  rw [List.filterMap_flatMap, List.filterMap_eq_flatMap_toList, List.flatMap_assoc]
  refine List.flatMap_congr fun a _ => ?_
  rw [List.filterMap_replicate]
  cases f a with
  | none => rfl
  | some b => simp

end Multiplicity

namespace Amount

theorem total_eq_sum (l : List UInt64) : total l = (l.map UInt64.toNat).sum := by
  induction l with
  | nil => rfl
  | cons a l ih => rw [total, ih, List.map_cons, List.sum_cons]

theorem total_perm {l l' : List UInt64} (h : l.Perm l') : total l = total l' := by
  rw [total_eq_sum, total_eq_sum, (h.map UInt64.toNat).sum_nat]

end Amount

/-! ## References -/

namespace Resource

/-- How many volumes of a pod refer to the claim with a given key. -/
def references (r : Resource) (key : String) : Nat :=
  match r.content with
  | .pod (some spec) _ =>
    (spec.volumes.getD []).countP fun v => v.claim.any fun c => r.claimKey c = key
  | _ => 0

/-- The claims of a pod are listed by volume. -/
theorem count_claimKeys (r : Resource) (key : String) :
    r.claimKeys.count key = r.references key := by
  unfold references
  split
  next spec status hcontent =>
    rw [claimKeys, hcontent, List.count, List.countP_map, List.countP_filterMap]
    refine List.countP_congr fun v _ => ?_
    cases v.claim with
    | none => simp
    | some c => simp
  next hcontent =>
    rw [claimKeys]
    split
    next spec status h => exact absurd h (hcontent spec status)
    next => rfl

end Resource

namespace Inventory

/-- The known claims that a pod mounts, each once, with the number of volumes that refer to it. -/
def mounted (i : Inventory) (pod : Resource) : List (Nat × ClaimUsage) :=
  pod.claimKeys.dedup.filterMap fun key =>
    (i.claims.get? key).map fun c => (pod.references key, c)

/-- The bytes of the known claims that a pod mounts, counted by volume. -/
def mountedBytes (i : Inventory) (pod : Resource) : Nat :=
  ((i.mounted pod).map fun m => m.1 * m.2.capacityBytes.toNat).sum

/-- The known claims that a pod mounts, each once. -/
def distinctClaims (i : Inventory) (pod : Resource) : List ClaimUsage :=
  pod.claimKeys.dedup.filterMap i.claims.get?

variable {i : Inventory} {pod : Resource}

theorem claimsOf_perm (i : Inventory) (pod : Resource) :
    (i.claimsOf pod.claimKeys).Perm
      ((i.mounted pod).flatMap fun m => List.replicate m.1 m.2) := by
  have hperm := filterMap_perm_flatMap_replicate i.claims.get? pod.claimKeys
  simp only [Resource.count_claimKeys] at hperm
  exact hperm

theorem total_claimsOf (i : Inventory) (pod : Resource) :
    Amount.total ((i.claimsOf pod.claimKeys).map ClaimUsage.capacityBytes) =
      i.mountedBytes pod := by
  rw [Amount.total_perm ((claimsOf_perm i pod).map _), Amount.total_eq_sum, mountedBytes]
  induction i.mounted pod with
  | nil => rfl
  | cons m l ih => simp_all

/-- If no two volumes refer to the same claim, each claim is there once. -/
theorem mounted_eq_of_references_le (h : ∀ key, pod.references key ≤ 1) :
    i.mounted pod = (i.distinctClaims pod).map fun c => (1, c) := by
  rw [mounted, distinctClaims, List.map_filterMap]
  refine List.filterMap_congr fun key hkey => ?_
  have hmounts : 0 < pod.claimKeys.count key :=
    List.count_pos_iff.mpr (List.mem_dedup.mp hkey)
  rw [Resource.count_claimKeys] at hmounts
  have hone : pod.references key = 1 := Nat.le_antisymm (h key) hmounts
  rw [hone]

/-- What an inventory says about the claims that a pod mounts. Known claims are counted by
volume: in the bytes, which are refused if no word can hold them, and in the price of the pod.
So each of them is counted once if no two volumes refer to the same claim. -/
structure CountsByVolume (i : Inventory) (pod : Resource) : Prop where
  bytes : ∀ bytes, i.claimedBytes pod.claimKeys = .ok bytes ↔ i.mountedBytes pod = bytes.toNat
  refused : i.claimedBytes pod.claimKeys = .error .sumOverflow ↔ 2 ^ 64 ≤ i.mountedBytes pod
  priced : ∀ key engine now node usage, i.pods.get? key = some (.ofResource pod) →
    (PodRecord.ofResource pod).nodeName = some node → i.nodeUsage? node = .ok (some usage) →
    ∃ claims, i.podCost? engine key now = .ok (some (engine.podCost pod.metric usage claims now)) ∧
      claims.Perm ((i.mounted pod).flatMap fun m => List.replicate m.1 m.2)
  once : (∀ key, pod.references key ≤ 1) →
    ((i.mounted pod).flatMap fun m => List.replicate m.1 m.2) = i.distinctClaims pod ∧
      i.mountedBytes pod = Amount.total ((i.distinctClaims pod).map ClaimUsage.capacityBytes)

theorem countsByVolume (i : Inventory) (pod : Resource) : i.CountsByVolume pod where
  bytes bytes := by rw [claimedBytes, exactSum_eq_ok_iff, total_claimsOf]
  refused := by
    rw [claimedBytes, exactSum_eq_error_iff, total_claimsOf]
    rfl
  priced key engine now node usage hpod hnode husage := by
    refine ⟨i.claimsOf pod.claimKeys, ?_, claimsOf_perm i pod⟩
    rw [podCost?_of_pod hpod hnode, husage]
    rfl
  once h := by
    rw [mountedBytes, mounted_eq_of_references_le h, Amount.total_eq_sum]
    simp [List.flatMap_map, Function.comp_def]

end Inventory

namespace Pipeline

variable {p p' : Pipeline} {e : ResourceEvent} {events : List ResourceEvent} {pod : Resource}

/-- What a pod brings into its groups is kept there until it moves again. -/
theorem stores_mountedBytes (h : Orderly p) (hrecords : RecordsInStep p)
    (hok : (p.handle e).1.isOk) (hpod : e.pod? = some pod) (hplain : PlainNames (.ofResource pod))
    (happlies : e.applies p.settings.reconciler.policies = true)
    (hafter : Tracked (p.handle e).2 events p') (hevents : ∀ e' ∈ events, HasPlainNames e')
    (hstays : NoneMoves p.settings.reconciler.policies events pod) :
    ∃ bytes, Stores pod (some bytes) p' ∧ bytes.toNat = p.inventory.mountedBytes pod := by
  obtain ⟨stored, hstored, S⟩ := stores_handle h hrecords hok hpod hplain (.inl happlies)
  rw [broughtStorage, if_pos happlies] at hstored
  obtain ⟨bytes, rfl, hbytes⟩ := Option.map_eq_some_iff.mp hstored
  refine ⟨bytes, S.tracked hafter (handle_orderly h hok) hevents hplain ?_, ?_⟩
  · rw [handle_settings]
    exact hstays
  · rw [hbytes, ← Inventory.total_claimsOf, Inventory.claimsOf, List.map_filterMap]
    rfl

/-- The known claims of a pod are counted by volume, whatever its volumes are and whatever the
inventory knows: in the bytes of its claims, in its price, and in its groups from the event on
with which it has joined them until it moves again. -/
theorem claims_counted_by_volume (pod : Resource) :
    (∀ i : Inventory, i.CountsByVolume pod) ∧
    ∀ p e p' events, Orderly p → RecordsInStep p → (p.handle e).1.isOk → e.pod? = some pod →
      PlainNames (.ofResource pod) → e.applies p.settings.reconciler.policies = true →
      Tracked (p.handle e).2 events p' → (∀ e' ∈ events, HasPlainNames e') →
      NoneMoves p.settings.reconciler.policies events pod →
      ∃ bytes, Stores pod (some bytes) p' ∧ bytes.toNat = p.inventory.mountedBytes pod := by
  constructor
  · exact fun i => i.countsByVolume pod
  · intro p e p' events h hrecords hok hpod hplain happlies hafter hevents hstays
    exact stores_mountedBytes h hrecords hok hpod hplain happlies hafter hevents hstays

/-! ## A pod with a shared claim -/

/-- A pod of the shop. Two of its volumes refer to the same claim, one to a claim that is not
known, and one to a path. -/
def sharingPod : Resource :=
  { shopPod "web-0" "web" with
    content :=
      .pod
        (some
          { nodeName := some "n1"
            volumes := some
              [{ claim := some { claimName := "data" } }, { hostPath := some "/tmp" },
                { claim := some { claimName := "data" } },
                { claim := some { claimName := "lost" } }] })
        none }

/-- The pod is created. -/
def sharingObserved : ResourceEvent := .new .create sharingPod ⟨1700000000, 0⟩

/-- The shop, in which the claim and the node are known. -/
def stockedShop : Pipeline := ((shopStart.handle claimObserved).2.handle Traffic.nodeAdded).2

/-- The claim of ten gibibytes is there once, and it is counted twice: in the groups of the pod,
and among the claims that the pod is priced with. -/
theorem shared_claim_counted_twice :
    let p := (stockedShop.handle sharingObserved).2
    (stockedShop.handle sharingObserved).1.isOk ∧
      (p.inventory.distinctClaims sharingPod).map ClaimUsage.capacityBytes = [10737418240] ∧
      p.storage? "ns-shop" "web-0" = some 21474836480 ∧
      (p.inventory.claimsOf sharingPod.claimKeys).map ClaimUsage.capacityBytes =
        [10737418240, 10737418240] := by
  decide +kernel

/-- The pod is counted so, and stays so when another pod comes. -/
theorem claims_of_sharingPod :
    let p := (stockedShop.handle sharingObserved).2
    let p' := (p.handle otherObserved).2
    (Orderly stockedShop ∧ RecordsInStep stockedShop ∧
      (stockedShop.handle sharingObserved).1.isOk ∧ sharingObserved.pod? = some sharingPod ∧
      PlainNames (.ofResource sharingPod) ∧
      sharingObserved.applies stockedShop.settings.reconciler.policies = true ∧
      Tracked p [otherObserved] p' ∧ HasPlainNames otherObserved ∧
      NoneMoves stockedShop.settings.reconciler.policies [otherObserved] sharingPod) ∧
    (∃ bytes, Stores sharingPod (some bytes) p' ∧ bytes.toNat = 2 * 10737418240) ∧
    p'.inventory.claimedBytes sharingPod.claimKeys = .ok 21474836480 ∧
    ∀ engine now, ∃ usage claims,
      p'.inventory.podCost? engine "shop/web-0" now =
        .ok (some (engine.podCost sharingPod.metric usage claims now)) ∧ claims.length = 2 := by
  intro p p'
  obtain ⟨hinventory, hgroups⟩ := claims_counted_by_volume sharingPod
  have hclaim : (shopStart.handle claimObserved).1.isOk := by decide +kernel
  have hnode : ((shopStart.handle claimObserved).2.handle Traffic.nodeAdded).1.isOk := by
    decide +kernel
  have hok : (stockedShop.handle sharingObserved).1.isOk := by decide +kernel
  have hother : (p.handle otherObserved).1.isOk := by decide +kernel
  have hstore : shopStart.store.memory.Reachable := .answer _ (.answer _ (.empty []))
  have hstart : Orderly shopStart := ⟨hstore.sound, fun _ _ h => nomatch h⟩
  have hstocked : Tracked shopStart [claimObserved, Traffic.nodeAdded] stockedShop :=
    (Tracked.start.handle _ hclaim).handle _ hnode
  have horderly := hstocked.orderly hstart
  have hrecords := hstocked.recordsInStep hstart recordsInStep_shop
  have hafter : Tracked p [otherObserved] p' := Tracked.start.handle _ hother
  have hnames (e : ResourceEvent) (he : e ∈ [sharingObserved, otherObserved]) :
      HasPlainNames e := by
    have hplain : ∀ e ∈ [sharingObserved, otherObserved],
        ∀ m ∈ e.pod?.map PodMember.ofResource,
          ':' ∉ m.namespaceName.toList ∧ ':' ∉ m.name.toList := by
      decide +kernel
    intro pod hpod
    exact hplain e he _ (Option.mem_map_of_mem _ hpod)
  have hplain : PlainNames (.ofResource sharingPod) :=
    hnames sharingObserved (by simp) sharingPod rfl
  have happlies : sharingObserved.applies stockedShop.settings.reconciler.policies = true := by
    decide +kernel
  have hstays : NoneMoves stockedShop.settings.reconciler.policies [otherObserved] sharingPod := by
    rw [NoneMoves, List.forall_mem_singleton]
    decide +kernel
  obtain ⟨bytes, hstored, hbytes⟩ := hgroups stockedShop sharingObserved p' [otherObserved]
    horderly hrecords hok rfl hplain happlies hafter
    (List.forall_mem_singleton.mpr (hnames otherObserved (by simp))) hstays
  have htotal : stockedShop.inventory.mountedBytes sharingPod = 2 * 10737418240 := by
    decide +kernel
  have hpresent : p'.inventory.mountedBytes sharingPod = (21474836480 : UInt64).toNat := by
    decide +kernel
  obtain ⟨hsum, -, hpriced, -⟩ := hinventory p'.inventory
  refine ⟨⟨horderly, hrecords, hok, rfl, hplain, happlies, hafter, hnames otherObserved (by simp),
    hstays⟩, ⟨bytes, hstored, hbytes.trans htotal⟩, (hsum _).mpr hpresent, fun engine now => ?_⟩
  have hpod : p'.inventory.pods.get? "shop/web-0" = some (.ofResource sharingPod) := by
    decide +kernel
  have husage : p'.inventory.nodeUsage? "n1" =
      .ok (some { instanceType := "", allocated := 0 }) := by decide +kernel
  obtain ⟨claims, hcost, hclaims⟩ := hpriced "shop/web-0" engine now "n1" _ hpod rfl husage
  refine ⟨_, claims, hcost, ?_⟩
  rw [hclaims.length_eq]
  decide +kernel

end Pipeline

end Chargeback
