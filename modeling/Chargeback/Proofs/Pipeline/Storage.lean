import Chargeback.Proofs.Histories
import Chargeback.Proofs.Pipeline.History
import Chargeback.Proofs.Reconciler.Interleavings

/-!
# Storage of pods

A pod brings the bytes of its claims into its groups when it joins them, as the inventory
knows them then. Events about claims change the inventory and no group. So the storage of a
pod is that of its claims as they were observed last before its own last event that counts;
whichever events of other objects come before it or after it does not matter beyond that.
Claims that are observed later are not found in the groups until the pod joins them again.

## Main definitions

* `Pipeline.Tracked`: the pipelines after a history of events, with their inventory.
* `Pipeline.Stores`: a pod has a given storage in its groups.
* `Pipeline.storage_of_interleavings`: two interleavings of the same events.
-/

namespace Chargeback

namespace Pipeline

variable {p p' p₀ : Pipeline} {e : ResourceEvent} {events events' before after : List ResourceEvent}
  {pod : Resource} {bytes : Option UInt64}

/-! ## Histories and the inventory -/

/-- The pipelines after a history of events, each of which was handled well. Nobody else
changes the inventory. -/
inductive Tracked (p₀ : Pipeline) : List ResourceEvent → Pipeline → Prop where
  | start : Tracked p₀ [] p₀
  | between {events : List ResourceEvent} {p p' : Pipeline} (h : Tracked p₀ events p)
      (hb : Between p p') (hinventory : p'.inventory = p.inventory) : Tracked p₀ events p'
  | handle {events : List ResourceEvent} {p : Pipeline} (h : Tracked p₀ events p)
      (e : ResourceEvent) (hok : (p.handle e).1.isOk) : Tracked p₀ (events ++ [e]) (p.handle e).2

theorem Tracked.handled (h : Tracked p₀ events p) : Handled p₀ events p := by
  induction h with
  | start => exact .start
  | between _ hb _ ih => exact ih.between hb
  | handle _ e hok ih => exact ih.handle e hok

theorem handle_orderly (h : Orderly p) (hok : (p.handle e).1.isOk) : Orderly (p.handle e).2 := by
  obtain ⟨object, -, -, ⟨-, -, bytes, -, B⟩ | ⟨-, -, -, B⟩ | ⟨-, B⟩⟩ := handle_cases h hok
  · exact B.orderly
  · exact B.orderly
  · exact B.orderly

theorem Tracked.orderly (h : Tracked p₀ events p) (hstart : Orderly p₀) : Orderly p := by
  induction h with
  | start => exact hstart
  | between _ hb _ ih => exact hb.orderly ih
  | handle _ e hok ih => exact handle_orderly ih hok

/-- By induction on the history: the inventory knows the claims as they were observed last. -/
theorem Tracked.claimSizes_eq (h : Tracked p₀ events p) (hstart : Orderly p₀) :
    p.inventory.claimSizes = claimSizes p₀.inventory.claimSizes events := by
  induction h with
  | start => rfl
  | between _ _ hinventory ih => rw [hinventory, ih]
  | handle h e hok ih =>
    obtain ⟨object, he, hinventory, -⟩ := handle_cases (h.orderly hstart) hok
    rw [hinventory, Inventory.claimSizes_track _ he, ih, claimSizes, claimSizes, List.foldl_append]
    rfl

/-- The history up to an event, the event, and what comes after it. -/
theorem Tracked.split (h : Tracked p₀ (before ++ e :: after) p) :
    ∃ q, Tracked p₀ before q ∧ (q.handle e).1.isOk ∧ Tracked (q.handle e).2 after p := by
  generalize hevents : before ++ e :: after = events at h
  induction h generalizing after with
  | start => exact absurd hevents (by simp)
  | between _ hb hinventory ih =>
    obtain ⟨q, hq, hok, hafter⟩ := ih hevents
    exact ⟨q, hq, hok, hafter.between hb hinventory⟩
  | handle h e' hok ih =>
    rcases append_singleton_eq_append_cons_iff.mp hevents.symm with ⟨rfl, rfl, rfl⟩ | ⟨rest, hbefore, rfl⟩
    · exact ⟨_, h, hok, .start⟩
    · obtain ⟨q, hq, hqok, hafter⟩ := ih hbefore.symm
      exact ⟨q, hq, hqok, hafter.handle _ hok⟩

/-! ## Records in step -/

/-- In every record the members are those with open windows. -/
def RecordsInStep (p : Pipeline) : Prop := ∀ name s, p.spec? name = some s → s.InStep

theorem RecordsInStep.moved {group : String} {createAs : Option GroupType}
    {own f : GroupSpec → GroupSpec} (h : RecordsInStep p)
    (B : Became (Membership.moved group createAs own f) p p')
    (hown : ∀ s, s.InStep → (own s).InStep) (hf : ∀ s, s.InStep → (f s).InStep) :
    RecordsInStep p' := by
  intro name s' hs'
  rw [B.spec?_eq] at hs'
  exact Membership.of_moved (GroupSpec.inStep_new _) hown hf (h name) hs'

theorem RecordsInStep.handle (h : RecordsInStep p) (hp : Orderly p) (hok : (p.handle e).1.isOk) :
    RecordsInStep (p.handle e).2 := by
  obtain ⟨object, -, -, ⟨-, -, bytes, -, B⟩ | ⟨-, -, -, B⟩ | ⟨-, B⟩⟩ := handle_cases hp hok
  · refine h.moved B (fun _ hs => hs.upserted) fun _ hs => ?_
    split
    next => exact hs.settled
    next => exact hs
  · exact h.moved B (fun _ hs => hs.removed) fun _ hs => hs.released
  · intro name s hs
    rw [B.spec?_eq] at hs
    exact h name s hs

theorem Tracked.recordsInStep (h : Tracked p₀ events p) (hstart : Orderly p₀)
    (hrecords : RecordsInStep p₀) : RecordsInStep p := by
  induction h with
  | start => exact hrecords
  | between _ hb _ ih =>
    intro name s hs
    rw [hb.spec?_eq] at hs
    exact ih name s hs
  | handle h e hok ih => exact ih.handle (h.orderly hstart) hok

/-! ## Storage in the groups -/

/-- The storage of a member of a group. -/
def storage? (p : Pipeline) (name key : String) : Option UInt64 :=
  (p.spec? name).bind fun s => s.storage? key

/-- A pod has a given storage in the group of its namespace, or no open window there. If pods
join groups by their labels, it has the same in all those that select it, and no open window
in the others. -/
structure Stores (pod : Resource) (bytes : Option UInt64) (p : Pipeline) : Prop where
  own : p.storage? (PodMember.ofResource pod).namespaceGroup (PodMember.ofResource pod).name = bytes
  selecting : p.settings.reconciler.policies.labelGroups = true → ∀ name s,
    p.spec? name = some s → s.type ≠ .byNamespace →
      s.storage? (PodMember.ofResource pod).selectorKey =
        if s.selects (PodMember.ofResource pod).labels then bytes else none

theorem Stores.congr (S : Stores pod bytes p) (hspec : ∀ name, p'.spec? name = p.spec? name)
    (hsettings : p'.settings = p.settings) : Stores pod bytes p' := by
  refine ⟨?_, ?_⟩
  · rw [storage?, hspec]
    exact S.own
  · intro hlabels name s hs
    rw [hsettings] at hlabels
    rw [hspec] at hs
    exact S.selecting hlabels name s hs

/-- Neither the namespace of a pod nor its name has a colon. -/
def PlainNames (m : PodMember) : Prop := ':' ∉ m.namespaceName.toList ∧ ':' ∉ m.name.toList

/-- A key with a namespace in it is not a name. -/
theorem selectorKey_ne {m : PodMember} {name : String} (h : ':' ∉ name.toList) :
    m.selectorKey ≠ name := by
  intro heq
  refine h ?_
  rw [← heq, PodMember.selectorKey]
  simp

/-- A change of records that leaves their selectors, and the storage of all members but one. -/
structure Spares (f : GroupSpec → GroupSpec) (key : String) : Prop where
  selector : ∀ s, SameSelector s (f s)
  storage : ∀ s k, key ≠ k → (f s).storage? k = s.storage? k

section Spares

variable {m : PodMember} {key : String} {usage : MemberUsage} {observed ended now : Instant}

theorem spares_upserted : Spares (GroupSpec.upserted key usage now) key where
  selector := assigns_upserted.selector
  storage _ _ h := GroupSpec.storage?_upserted.trans (if_neg h)

theorem spares_removed : Spares (GroupSpec.removed key ended now) key where
  selector := assigns_removed.selector
  storage _ _ h := GroupSpec.storage?_removed.trans (if_neg h)

theorem spares_released : Spares (GroupSpec.released m ended now) m.selectorKey where
  selector := assigns_released.selector
  storage _ _ h := GroupSpec.storage?_released_of_ne h

theorem spares_settled {labelGroups : Bool} :
    Spares (if labelGroups then GroupSpec.settled m usage observed now else id) m.selectorKey := by
  split
  next => exact ⟨assigns_settled.selector, fun _ _ h => GroupSpec.storage?_settled_of_ne h⟩
  next => exact ⟨fun _ => ⟨rfl, rfl⟩, fun _ _ _ => rfl⟩

end Spares

variable {f own : GroupSpec → GroupSpec} {createAs : Option GroupType} {m : PodMember}

theorem Spares.inSelecting {key k : String} (h : Spares f key) (hk : key ≠ k) (s : GroupSpec) :
    (Membership.inSelecting f s).storage? k = s.storage? k := by
  rw [Membership.inSelecting]
  split
  next => rfl
  next => exact h.storage s k hk

/-- A change of one record only. -/
theorem Spares.only {key : String} (h : Spares f key) (name group : String) :
    Spares (fun s => if name = group then f s else s) key := by
  refine ⟨fun s => ?_, fun s k hk => ?_⟩
  · split
    next => exact h.selector s
    next => exact ⟨rfl, rfl⟩
  · split
    next => exact h.storage s k hk
    next => rfl

/-- In the group of a namespace, names keep their storage when another pod moves. -/
theorem Became.storage?_eq (B : Became (Membership.moved m.namespaceGroup createAs own f) p p')
    (hown : Spares own m.name) (hf : Spares f m.selectorKey) {ns k : String}
    (hk : ':' ∉ k.toList) (hother : m.namespaceName = ns → m.name ≠ k) :
    p'.storage? (namespaceGroupName ns) k = p.storage? (namespaceGroupName ns) k := by
  have hkeep (s : GroupSpec) := hf.inSelecting (selectorKey_ne hk) s
  rw [storage?, storage?, B.spec?_eq, Membership.moved]
  split
  next hgroup =>
    have hname := hother (namespaceGroupName_injective hgroup).symm
    cases p.spec? (namespaceGroupName ns) with
    | some s => exact (hkeep _).trans (hown.storage s k hname)
    | none =>
      cases createAs with
      | some type => exact (hkeep _).trans (hown.storage _ k hname)
      | none => rfl
  next =>
    cases p.spec? (namespaceGroupName ns) with
    | some s => exact hkeep s
    | none => rfl

/-- What a pod stores stays as it is when another pod moves. -/
theorem Stores.moved (S : Stores pod bytes p)
    (B : Became (Membership.moved m.namespaceGroup createAs own f) p p')
    (hsettings : p'.settings = p.settings) (hown : Spares own m.name) (hf : Spares f m.selectorKey)
    (hcreate : ∀ type, createAs = some type → type = .byNamespace) (hm : PlainNames m)
    (hpod : PlainNames (.ofResource pod))
    (hother : ¬(m.namespaceName = (PodMember.ofResource pod).namespaceName ∧
      m.name = (PodMember.ofResource pod).name)) : Stores pod bytes p' := by
  refine ⟨?_, ?_⟩
  · rw [← S.own]
    exact B.storage?_eq hown hf hpod.2 fun hns hname => hother ⟨hns, hname⟩
  · intro hlabels name s' hs' htype
    rw [hsettings] at hlabels
    obtain ⟨s, hs, rfl⟩ := B.selecting hown.selector hf.selector hcreate hs' htype
    have hkey : m.selectorKey ≠ (PodMember.ofResource pod).selectorKey :=
      fun h => hother (memberKey_inj hm.1 hpod.1 h)
    have hown := hown.only name m.namespaceGroup
    have hkeep := hown.storage s (PodMember.ofResource pod).selectorKey (selectorKey_ne hm.2).symm
    have hselector := (hown.selector s).trans (hf.selector _)
    rw [hf.storage _ _ hkey, hselector.selects_eq, hkeep]
    exact S.selecting hlabels name s hs fun h => htype (hselector.1.trans h)

/-- A pod that has joined its groups has its storage there. -/
theorem stores_joined {observed now : Instant} {usage : MemberUsage}
    (hrecords : RecordsInStep p) (hsettings : p'.settings = p.settings)
    (B : Became (Membership.joined p.settings.reconciler.policies.labelGroups (.ofResource pod)
      usage observed now) p p') (hpod : PlainNames (.ofResource pod)) :
    Stores pod (some usage.storageBytes) p' := by
  refine ⟨?_, ?_⟩
  · rw [storage?, B.spec?_eq, Membership.joined, Membership.moved, if_pos rfl]
    cases p.spec? (PodMember.ofResource pod).namespaceGroup with
    | some s =>
      exact (spares_settled.inSelecting (selectorKey_ne hpod.2) _).trans
        GroupSpec.storage?_upserted_self
    | none =>
      exact (spares_settled.inSelecting (selectorKey_ne hpod.2) _).trans
        GroupSpec.storage?_upserted_self
  · intro hlabels name s' hs' htype
    rw [hsettings] at hlabels
    rw [Membership.joined, hlabels, if_pos rfl] at B
    have hcreate : ∀ type, some GroupType.byNamespace = some type → type = .byNamespace :=
      fun type h => (Option.some_inj.mp h).symm
    obtain ⟨s, hs, rfl⟩ :=
      B.selecting assigns_upserted.selector assigns_settled.selector hcreate hs' htype
    have hstep : (if name = (PodMember.ofResource pod).namespaceGroup then
        s.upserted (PodMember.ofResource pod).name usage now else s).InStep := by
      split
      next => exact (hrecords name s hs).upserted
      next => exact hrecords name s hs
    exact hstep.storage?_settled.trans
      (by rw [(assigns_settled.selector _).selects_eq])

/-- A pod that has left its groups has no open window there. -/
theorem stores_left {ended now : Instant} (hrecords : RecordsInStep p)
    (B : Became (Membership.left (.ofResource pod) ended now) p p')
    (hpod : PlainNames (.ofResource pod)) : Stores pod none p' := by
  refine ⟨?_, ?_⟩
  · rw [storage?, B.spec?_eq, Membership.left, Membership.moved, if_pos rfl]
    cases p.spec? (PodMember.ofResource pod).namespaceGroup with
    | some s =>
      exact (spares_released.inSelecting (selectorKey_ne hpod.2) _).trans
        GroupSpec.storage?_removed_self
    | none => rfl
  · intro _ name s' hs' htype
    obtain ⟨s, hs, rfl⟩ :=
      B.selecting assigns_removed.selector assigns_released.selector
        (fun type h => absurd h.symm (Option.some_ne_none type)) hs' htype
    have hstep : (if name = (PodMember.ofResource pod).namespaceGroup then
        s.removed (PodMember.ofResource pod).name ended now else s).InStep := by
      split
      next => exact (hrecords name s hs).removed
      next => exact hrecords name s hs
    rw [ite_self]
    exact hstep.storage?_released

/-! ## The storage of a pod -/

/-- The pod that an event is about has plain names. -/
def HasPlainNames (e : ResourceEvent) : Prop :=
  ∀ pod, e.pod? = some pod → PlainNames (.ofResource pod)

/-- An event that does not move a pod leaves what it stores. -/
theorem Stores.handle (S : Stores pod bytes p) (h : Orderly p) (hok : (p.handle e).1.isOk)
    (he : HasPlainNames e) (hpod : PlainNames (.ofResource pod))
    (hstays : ¬e.moves p.settings.reconciler.policies (PodMember.ofResource pod).namespaceName
      (PodMember.ofResource pod).name) : Stores pod bytes (p.handle e).2 := by
  have hsettings := handle_settings p e
  have hother (object : Resource) (hobject : e.pod? = some object)
      (hmoves : e.applies p.settings.reconciler.policies ∨ e.purges p.settings.reconciler.policies) :
      ¬((PodMember.ofResource object).namespaceName = (PodMember.ofResource pod).namespaceName ∧
        (PodMember.ofResource object).name = (PodMember.ofResource pod).name) := by
    intro hsame
    refine hstays ?_
    simpa [ResourceEvent.moves, ResourceEvent.isOfPod, hobject, hsame] using hmoves
  obtain ⟨object, -, -, ⟨hobject, happlies, bytes', -, B⟩ | ⟨hobject, -, hpurges, B⟩ | ⟨-, B⟩⟩ :=
    handle_cases h hok
  · exact S.moved B hsettings spares_upserted spares_settled
      (fun type h => (Option.some_inj.mp h).symm) (he object hobject) hpod
      (hother object hobject (.inl happlies))
  · exact S.moved B hsettings spares_removed spares_released
      (fun type h => absurd h.symm (Option.some_ne_none type)) (he object hobject) hpod
      (hother object hobject (.inr hpurges))
  · exact S.congr B.spec?_eq hsettings

theorem Stores.tracked (S : Stores pod bytes p) (h : Tracked p events p') (hp : Orderly p)
    (hevents : ∀ e ∈ events, HasPlainNames e) (hpod : PlainNames (.ofResource pod))
    (hstays : NoneMoves p.settings.reconciler.policies events pod) : Stores pod bytes p' := by
  induction h with
  | start => exact S
  | between _ hb _ ih => exact (ih hevents hstays).congr hb.spec?_eq hb.settings
  | @handle events p' h e hok ih =>
    have S' := ih (fun e' he' => hevents e' (List.mem_append_left _ he'))
      (fun e' he' => hstays e' (List.mem_append_left _ he'))
    have he := List.mem_append_right events (List.mem_singleton_self e)
    refine S'.handle (h.orderly hp) hok (hevents e he) hpod ?_
    rw [h.handled.settings_eq]
    exact hstays e he

/-- What a pod stores after an event that moves it. -/
theorem stores_handle (h : Orderly p) (hrecords : RecordsInStep p) (hok : (p.handle e).1.isOk)
    (hpod : e.pod? = some pod) (hplain : PlainNames (.ofResource pod))
    (hmoves : e.applies p.settings.reconciler.policies = true ∨
      e.purges p.settings.reconciler.policies = true) :
    ∃ bytes, bytes.map UInt64.toNat =
        broughtStorage p.settings.reconciler.policies p.inventory.claimSizes e pod ∧
      Stores pod bytes (p.handle e).2 := by
  obtain ⟨object, he, -, ⟨hobject, happlies, bytes, hbytes, B⟩ | ⟨hobject, hnot, -, B⟩ |
    ⟨hnone | ⟨hnot, hnot'⟩, -⟩⟩ := handle_cases h hok
  · obtain rfl : pod = object := Option.some_inj.mp (hpod.symm.trans hobject)
    refine ⟨some bytes, ?_, stores_joined hrecords (handle_settings p e) B hplain⟩
    rw [broughtStorage, if_pos happlies, Option.map_some, Inventory.toNat_claimedBytes hbytes,
      Inventory.claimSizes_track _ he, ClaimSizes.after_of_pod hpod]
  · obtain rfl : pod = object := Option.some_inj.mp (hpod.symm.trans hobject)
    refine ⟨none, ?_, stores_left hrecords B hplain⟩
    rw [broughtStorage, hnot]
    rfl
  · rw [hpod] at hnone
    cases hnone
  · rcases hmoves with happlies | hpurges
    · rw [happlies] at hnot
      cases hnot
    · rw [hpurges] at hnot'
      cases hnot'

/-- A pod stores what its claims came to before the last event that moved it. -/
theorem Tracked.stores (h : Tracked p₀ events p) (hstart : Orderly p₀)
    (hrecords : RecordsInStep p₀) (hevents : ∀ e ∈ events, HasPlainNames e)
    (hlast : LastMoved p₀.settings.reconciler.policies events before e pod) :
    ∃ bytes, bytes.map UInt64.toNat = broughtStorage p₀.settings.reconciler.policies
        (claimSizes p₀.inventory.claimSizes before) e pod ∧
      Stores pod bytes p := by
  obtain ⟨after, rfl, hafter⟩ := hlast.last
  obtain ⟨q, hq, hok, hrest⟩ := h.split
  have hqorderly := hq.orderly hstart
  have hqsettings := hq.handled.settings_eq
  have hplain := hevents e (List.mem_append_right _ List.mem_cons_self) pod hlast.pod_eq
  obtain ⟨bytes, hbytes, S⟩ := stores_handle hqorderly (hq.recordsInStep hstart hrecords) hok
    hlast.pod_eq hplain (hqsettings ▸ hlast.counts)
  rw [hqsettings, hq.claimSizes_eq hstart] at hbytes
  refine ⟨bytes, hbytes, S.tracked hrest (handle_orderly hqorderly hok) ?_ hplain ?_⟩
  · exact fun e' he' => hevents e' (List.mem_append_right _ (List.mem_cons_of_mem e he'))
  · rw [handle_settings, hqsettings]
    exact hafter

/-- The pods of an interleaving have the names of those of the other one. -/
theorem hasPlainNames_interleaved (hsame : Interleaved events events')
    (hevents : ∀ e ∈ events, HasPlainNames e) : ∀ e ∈ events', HasPlainNames e := by
  intro e he pod hpod
  have hof : e.isOfPod (PodMember.ofResource pod).namespaceName (PodMember.ofResource pod).name := by
    simp [ResourceEvent.isOfPod, hpod]
  have hmem := List.mem_filter.mpr ⟨he, hof⟩
  rw [← hsame.pods] at hmem
  exact hevents e (List.mem_filter.mp hmem).1 pod hpod

/-- Two interleavings of the same events, from the same beginning, all handled well. If none
of them moves a pod, it keeps the storage that it had. Else the last one that moves it is the
same in both. If it has left its groups then, it has no open window at the end. If it has
joined them, its open windows hold, in each of the interleavings, the bytes of its claims as
they were observed last before that event; so they hold the same in both if the claims were
known with the same sizes by then. If they were known with their last sizes by then, these
are the bytes as observed last. -/
theorem storage_of_interleavings (h : Tracked p₀ events p) (h' : Tracked p₀ events' p')
    (hstore : p₀.store.memory.Reachable) (hscript : p₀.store.Honest) (hrecords : RecordsInStep p₀)
    (hevents : ∀ e ∈ events, HasPlainNames e) (hsame : Interleaved events events')
    (hpod : PlainNames (.ofResource pod)) :
    let policies := p₀.settings.reconciler.policies
    let observed := claimSizes p₀.inventory.claimSizes
    (∀ bytes, Stores pod bytes p₀ → NoneMoves policies events pod →
      Stores pod bytes p ∧ Stores pod bytes p') ∧
    ∀ before e, LastMoved policies events before e pod →
      (∃ before', LastMoved policies events' before' e pod) ∧
      ∀ before', LastMoved policies events' before' e pod → ∃ bytes bytes',
        (Stores pod bytes p ∧
          bytes.map UInt64.toNat = broughtStorage policies (observed before) e pod) ∧
        (Stores pod bytes' p' ∧
          bytes'.map UInt64.toNat = broughtStorage policies (observed before') e pod) ∧
        ((∀ key ∈ pod.claimKeys, observed before key = observed before' key) → bytes = bytes') ∧
        ((∀ key ∈ pod.claimKeys, observed before key = observed events key) →
          (∀ key ∈ pod.claimKeys, observed before' key = observed events' key) →
            bytes = bytes' ∧
              bytes.map UInt64.toNat = broughtStorage policies (observed events) e pod) := by
  intro policies observed
  have hstart : Orderly p₀ := ⟨hstore.sound, hscript⟩
  have hevents' := hasPlainNames_interleaved hsame hevents
  refine ⟨fun bytes S hnone => ⟨S.tracked h hstart hevents hpod hnone, ?_⟩,
    fun before e hlast => ⟨hlast.interleaved hsame, fun before' hlast' => ?_⟩⟩
  · exact S.tracked h' hstart hevents' hpod (hnone.interleaved hsame)
  obtain ⟨bytes, hbytes, S⟩ := h.stores hstart hrecords hevents hlast
  obtain ⟨bytes', hbytes', S'⟩ := h'.stores hstart hrecords hevents' hlast'
  have hequal (hknown : ∀ key ∈ pod.claimKeys, observed before key = observed before' key) :
      bytes = bytes' := by
    rw [← broughtStorage_congr hknown, ← hbytes] at hbytes'
    exact (Option.map_inj_right fun _ _ => UInt64.toNat_inj.mp).mp hbytes'.symm
  refine ⟨bytes, bytes', ⟨S, hbytes⟩, ⟨S', hbytes'⟩, hequal, ?_⟩
  intro hknown hknown'
  have hsizes : observed events = observed events' := hsame.claimSizes_eq _
  rw [← hsizes] at hknown'
  refine ⟨hequal fun key hkey => (hknown key hkey).trans (hknown' key hkey).symm, ?_⟩
  rw [hbytes, broughtStorage_congr hknown]

/-! ## A shop with a claim -/

/-- Handle events one after the other, as long as they are handled well. -/
def handleAll (p : Pipeline) : List ResourceEvent → Option Pipeline
  | [] => some p
  | e :: events => if (p.handle e).1.isOk then (p.handle e).2.handleAll events else none

theorem Tracked.handleAll (h : Tracked p₀ events p) (hall : p.handleAll events' = some p') :
    Tracked p₀ (events ++ events') p' := by
  induction events' generalizing events p with
  | nil =>
    cases hall
    rwa [List.append_nil]
  | cons e events' ih =>
    rw [Pipeline.handleAll] at hall
    split at hall
    next hok =>
      rw [← List.singleton_append, ← List.append_assoc]
      exact ih (h.handle e hok) hall
    next => cases hall

/-- A claim of the shop for ten gibibytes. -/
def shopClaim : Resource where
  metadata := { name := some "data", namespaceName := some "shop" }
  content :=
    .persistentVolumeClaim
      (some { resources := some { requests := some (.ofList [("storage", "10Gi")]) } }) none

/-- A pod that mounts it. -/
def mountingPod : Resource :=
  { shopPod "web-0" "web" with
    content := .pod (some { volumes := some [{ claim := some { claimName := "data" } }] }) none }

/-- The claim is observed. -/
def claimObserved : ResourceEvent := .new .create shopClaim ⟨1700000000, 0⟩

/-- The pod is created. -/
def podObserved : ResourceEvent := .new .create mountingPod ⟨1700000000, 0⟩

/-- Another pod is created. -/
def otherObserved : ResourceEvent := .new .create (shopPod "db-0" "db") ⟨1700000000, 0⟩

theorem exists_tracked_shop (events : List ResourceEvent)
    (hall : (shopStart.handleAll events).isSome) : ∃ p, Tracked shopStart events p := by
  obtain ⟨p, hp⟩ := Option.isSome_iff_exists.mp hall
  exact ⟨p, Tracked.start.handleAll hp⟩

theorem recordsInStep_shop : RecordsInStep shopStart := by
  have hentries : ∀ e ∈ shopStart.store.memory.groups.entries,
      e.2.spec.members = .empty ∧ e.2.spec.windows = .empty ∧ e.2.spec.total = .zero := by
    decide +kernel
  intro name s hs
  obtain ⟨g, hg, rfl⟩ := Option.map_eq_some_iff.mp hs
  obtain ⟨hmembers, hwindows, htotal⟩ :=
    hentries (name, g) ((KeyMap.mem_entries_iff _ name g).mpr hg)
  exact GroupSpec.inStep_of_empty hmembers hwindows htotal

/-- The claim is observed before the pod in both interleavings, and in both the pod brings
it into its groups. -/
theorem storage_of_shop :
    let events := [claimObserved, otherObserved, podObserved]
    let events' := [otherObserved, claimObserved, podObserved]
    ∃ p p' bytes, (Tracked shopStart events p ∧ Tracked shopStart events' p' ∧
        shopStart.store.memory.Reachable ∧ shopStart.store.Honest ∧ RecordsInStep shopStart ∧
        (∀ e ∈ events, HasPlainNames e) ∧ Interleaved events events' ∧
        PlainNames (.ofResource mountingPod) ∧
        LastMoved shopStart.settings.reconciler.policies events [claimObserved, otherObserved]
          podObserved mountingPod) ∧
      bytes.map UInt64.toNat = some 10737418240 ∧ p.storage? "ns-shop" "web-0" = bytes ∧
      p'.storage? "ns-shop" "web-0" = bytes ∧ Stores mountingPod bytes p' := by
  intro events events'
  obtain ⟨p, hp⟩ := exists_tracked_shop events (by decide +kernel)
  obtain ⟨p', hp'⟩ := exists_tracked_shop events' (by decide +kernel)
  have hstore : shopStart.store.memory.Reachable := .answer _ (.answer _ (.empty []))
  have hscript : shopStart.store.Honest := fun _ _ h => nomatch h
  have hevents : ∀ e ∈ events, HasPlainNames e := by
    have hnames : ∀ e ∈ events, ∀ m ∈ e.pod?.map PodMember.ofResource,
        ':' ∉ m.namespaceName.toList ∧ ':' ∉ m.name.toList := by
      decide +kernel
    intro e he pod hpod
    exact hnames e he _ (Option.mem_map_of_mem _ hpod)
  have hsame : Interleaved events events' := interleaved_swap rfl rfl [] [podObserved]
  have hplain : PlainNames (.ofResource mountingPod) :=
    hevents podObserved (by simp [events]) mountingPod rfl
  have hlast : LastMoved shopStart.settings.reconciler.policies events
      [claimObserved, otherObserved] podObserved mountingPod :=
    ⟨rfl, .inl rfl, [], rfl, fun _ h => absurd h List.not_mem_nil⟩
  have hlast' : LastMoved shopStart.settings.reconciler.policies events'
      [otherObserved, claimObserved] podObserved mountingPod :=
    ⟨rfl, .inl rfl, [], rfl, fun _ h => absurd h List.not_mem_nil⟩
  obtain ⟨bytes, bytes', ⟨S, hbytes⟩, ⟨S', -⟩, hequal, -⟩ :=
    ((storage_of_interleavings hp hp' hstore hscript recordsInStep_shop hevents hsame hplain).2
      _ _ hlast).2 _ hlast'
  obtain rfl := hequal (by decide +kernel)
  refine ⟨p, p', bytes, ⟨hp, hp', hstore, hscript, recordsInStep_shop, hevents, hsame, hplain,
    hlast⟩, ?_, S.own, S'.own, S'⟩
  rw [hbytes]
  decide +kernel

/-- The claim is observed before the pod is, or after it. The storage of the pod does not
follow the claim. -/
theorem storage_of_late_claim :
    Interleaved [podObserved, claimObserved] [claimObserved, podObserved] ∧
    ∃ p p', Tracked shopStart [podObserved, claimObserved] p ∧
      Tracked shopStart [claimObserved, podObserved] p' ∧
      p.storage? "ns-shop" "web-0" = some 0 ∧
      p'.storage? "ns-shop" "web-0" = some 10737418240 := by
  have hpod : (shopStart.handle podObserved).1.isOk := by decide +kernel
  have hclaim : ((shopStart.handle podObserved).2.handle claimObserved).1.isOk := by decide +kernel
  have hclaim' : (shopStart.handle claimObserved).1.isOk := by decide +kernel
  have hpod' : ((shopStart.handle claimObserved).2.handle podObserved).1.isOk := by decide +kernel
  refine ⟨(interleaved_swap rfl rfl [] []).symm, _, _, (Tracked.start.handle _ hpod).handle _ hclaim,
    (Tracked.start.handle _ hclaim').handle _ hpod', ?_, ?_⟩
  · decide +kernel
  · decide +kernel

end Pipeline

end Chargeback
