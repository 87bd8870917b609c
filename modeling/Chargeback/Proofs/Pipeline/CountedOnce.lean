import Chargeback.Proofs.Pipeline.Storage

/-!
# How often a pod is counted

A group counts a pod once for each key that stands for it. In the group of its namespace
that is its name, and in a group that selects it by its labels it is its namespace and
name. These are two groups, unless somebody has made a group that selects by labels and
has given it the name of the namespace's group: joining finds a record of that name, and
takes it for the group of the namespace whatever its type is. Such a group has the pod
under both keys and counts it twice; every other group counts it once at most.

## Main definitions

* `standsFor`, `GroupSpec.keysOf`: the keys of a pod in a group.
* `GroupSpec.SumsUp`: the total of a record is the sum over its keys.
* `Pipeline.Counted`, `Pipeline.CountsPods`: the members that a group has, for any records
  at the beginning.
-/

namespace Chargeback

/-- The key stands for a pod in a group: it names the pod and its namespace, or it names
the pod in the group of its namespace. -/
def standsFor (group ns name key : String) : Bool :=
  key = Pipeline.memberKey ns name || group = namespaceGroupName ns && key = name

namespace GroupSpec

/-- The members of a record that stand for a pod. -/
def keysOf (s : GroupSpec) (group ns name : String) : List String :=
  s.members.keys.filter (standsFor group ns name)

/-- The total is the sum over all members, once the record has had any. -/
def SumsUp (s : GroupSpec) : Prop := s.members = .empty ∨ s.total = Metric.sum s.members.values

variable {s : GroupSpec} {key : String} {usage : MemberUsage} {pod : PodMember}
  {observed ended now : Instant}

theorem sumsUp_new (name : String) (type : GroupType) : SumsUp (.new name type) := .inl rfl

theorem sumsUp_upserted : SumsUp (s.upserted key usage now) := .inr rfl

theorem sumsUp_removed : SumsUp (s.removed key ended now) := .inr rfl

theorem SumsUp.settled (h : SumsUp s) : SumsUp (s.settled pod usage observed now) := by
  rw [GroupSpec.settled]
  split
  · exact sumsUp_upserted
  · split
    · exact sumsUp_removed
    · exact h

theorem SumsUp.released (h : SumsUp s) : SumsUp (s.released pod ended now) := by
  rw [GroupSpec.released]
  split
  · exact sumsUp_removed
  · exact h

end GroupSpec

namespace Pipeline

variable {p p' p₀ : Pipeline} {e : ResourceEvent} {events : List ResourceEvent}
  {labelGroups : Bool} {pods : CurrentPods} {m : PodMember} {pod : Option Resource}
  {group key : String} {v : Metric} {s s' : GroupSpec}

/-- A current pod with its metric, under its name in the group of its namespace, or under
its namespace and name in a group that selects it, if pods join groups by their labels. -/
def Counted (labelGroups : Bool) (pods : CurrentPods) (group : String) (s : GroupSpec)
    (key : String) (v : Metric) : Prop :=
  ∃ ns name pod, pods ns name = some pod ∧ v = pod.metric ∧
    (group = namespaceGroupName ns ∧ key = name ∨
      labelGroups = true ∧ s.selects (PodMember.ofResource pod).labels ∧ key = memberKey ns name)

/-- Each group has exactly the pods as members that count in it. -/
structure CountsPods (labelGroups : Bool) (pods : CurrentPods) (p : Pipeline) : Prop where
  orderly : Orderly p
  members : ∀ group s, p.spec? group = some s →
    ∀ key v, s.members.get? key = some v ↔ Counted labelGroups pods group s key v
  present : ∀ ns name pod, pods ns name = some pod → ∃ s, p.spec? (namespaceGroupName ns) = some s
  sumsUp : ∀ group s, p.spec? group = some s → s.SumsUp
  plain : ∀ ns name pod, pods ns name = some pod → ':' ∉ ns.toList ∧ ':' ∉ name.toList

/-- A change of records that select by labels: it gives the key of a pod the metric of the
pod where it is selected, if pods join groups by their labels; and it adds nothing if they
do not. -/
structure Reselects (labelGroups : Bool) (m : PodMember) (pod : Option Resource)
    (f : GroupSpec → GroupSpec) : Prop where
  selector : ∀ s, SameSelector s (f s)
  others : ∀ s k, m.selectorKey ≠ k → (f s).members.get? k = s.members.get? k
  own : labelGroups = true → ∀ s, (f s).members.get? m.selectorKey = selectedMetric pod s
  adds_nothing : labelGroups = false → ∀ s, s.members.get? m.selectorKey = none →
    (f s).members.get? m.selectorKey = none

theorem memberKey_ne {ns name name' : String} (h : ':' ∉ name'.toList) :
    memberKey ns name ≠ name' := by
  rintro rfl
  simp [memberKey] at h

/-- What counts under another key, or in another group, does not change with a pod. -/
theorem counted_set_of_ne (hkey : m.selectorKey ≠ key)
    (hname : ¬(group = m.namespaceGroup ∧ m.name = key)) :
    Counted labelGroups (pods.set m pod) group s key v ↔
      Counted labelGroups pods group s key v := by
  have hset : ∀ ns name, (group = namespaceGroupName ns ∧ key = name ∨ key = memberKey ns name) →
      pods.set m pod ns name = pods ns name := by
    intro ns name hstands
    refine CurrentPods.set_of_ne ?_
    rintro ⟨rfl, rfl⟩
    rcases hstands with ⟨hgroup, rfl⟩ | rfl
    · exact hname ⟨hgroup, rfl⟩
    · exact hkey rfl
  constructor
  · rintro ⟨ns, name, pod', hpod, hv, hstands⟩
    rw [hset ns name (hstands.imp_right fun h => h.2.2)] at hpod
    exact ⟨ns, name, pod', hpod, hv, hstands⟩
  · rintro ⟨ns, name, pod', hpod, hv, hstands⟩
    rw [← hset ns name (hstands.imp_right fun h => h.2.2)] at hpod
    exact ⟨ns, name, pod', hpod, hv, hstands⟩

theorem counted_congr (h : SameSelector s s') :
    Counted labelGroups pods group s' key v ↔ Counted labelGroups pods group s key v := by
  simp only [Counted, h.selects_eq]

/-- A key with a namespace in it counts the pod of that namespace and name, if it is selected. -/
theorem counted_memberKey_iff
    (hpods : ∀ ns name pod, pods ns name = some pod → ':' ∉ ns.toList ∧ ':' ∉ name.toList)
    {ns name : String} (hns : ':' ∉ ns.toList) :
    Counted labelGroups pods group s (memberKey ns name) v ↔
      labelGroups = true ∧ selectedMetric (pods ns name) s = some v := by
  rw [selectedMetric_eq_some_iff]
  constructor
  · rintro ⟨ns', name', pod, hpod, hv, ⟨-, hkey⟩ | ⟨hlabels, hselects, hkey⟩⟩
    · exact absurd hkey (memberKey_ne (hpods ns' name' pod hpod).2)
    · obtain ⟨rfl, rfl⟩ := memberKey_inj hns (hpods ns' name' pod hpod).1 hkey
      exact ⟨hlabels, pod, hpod, hselects, hv⟩
  · rintro ⟨hlabels, pod, hpod, hselects, hv⟩
    exact ⟨ns, name, pod, hpod, hv, .inr ⟨hlabels, hselects, rfl⟩⟩

/-- In the group of a namespace, a name counts the pod of that name. -/
theorem counted_name_iff {ns name : String} (hname : ':' ∉ name.toList) :
    Counted labelGroups pods (namespaceGroupName ns) s name v ↔
      (pods ns name).map Resource.metric = some v := by
  rw [Option.map_eq_some_iff]
  constructor
  · rintro ⟨ns', name', pod, hpod, hv, ⟨hgroup, rfl⟩ | ⟨-, -, hkey⟩⟩
    · rw [namespaceGroupName_injective hgroup]
      exact ⟨pod, hpod, hv.symm⟩
    · exact absurd hkey.symm (memberKey_ne hname)
  · rintro ⟨pod, hpod, rfl⟩
    exact ⟨ns, name, pod, hpod, rfl, .inl ⟨rfl, rfl⟩⟩

/-- The group of a namespace selects nothing. -/
theorem selectedMetric_of_byNamespace (h : s.type = .byNamespace) :
    selectedMetric pod s = none := by
  simp [selectedMetric, GroupSpec.selects, h]

theorem plain_set (hm : PlainNames m)
    (hpods : ∀ ns name pod, pods ns name = some pod → ':' ∉ ns.toList ∧ ':' ∉ name.toList)
    (pod : Option Resource) :
    ∀ ns name pod', pods.set m pod ns name = some pod' → ':' ∉ ns.toList ∧ ':' ∉ name.toList := by
  intro ns name pod' hpod
  by_cases hsame : m.namespaceName = ns ∧ m.name = name
  · obtain ⟨rfl, rfl⟩ := hsame
    exact hm
  · rw [CurrentPods.set_of_ne hsame] at hpod
    exact hpods ns name pod' hpod

section Moved

variable {createAs : Option GroupType} {own f : GroupSpec → GroupSpec}

/-- In a group that a change is made in, and in any other one. -/
theorem Assigns.members_ite {metric : GroupSpec → Option Metric} (h : Assigns own key metric)
    (c : Prop) [Decidable c] (s : GroupSpec) (k : String) :
    (if c then own s else s).members.get? k =
      if c ∧ key = k then metric s else s.members.get? k := by
  by_cases hc : c
  · simp [hc, h.members s k]
  · simp [hc]

theorem Assigns.selector_ite {metric : GroupSpec → Option Metric} (h : Assigns own key metric)
    (c : Prop) [Decidable c] (s : GroupSpec) : SameSelector s (if c then own s else s) := by
  split
  · exact h.selector s
  · exact ⟨rfl, rfl⟩

/-- The record that a move starts from has the members that count so far. -/
theorem CountsPods.members_before (C : CountsPods labelGroups pods p)
    (hcreate : ∀ type, createAs = some type → type = .byNamespace)
    (hs : p.spec? group = some s ∨ p.spec? group = none ∧ group = m.namespaceGroup ∧
      createAs.map (.new m.namespaceGroup) = some s)
    (key : String) (v : Metric) :
    s.members.get? key = some v ↔ Counted labelGroups pods group s key v := by
  rcases hs with hs | ⟨hnone, -, hnew⟩
  · exact C.members group s hs key v
  · -- A new record is that of a namespace without current pods, and selects nothing.
    obtain ⟨type, htype, rfl⟩ := Option.map_eq_some_iff.mp hnew
    have hselects (labels : KeyMap String) :
        (GroupSpec.new m.namespaceGroup type).selects labels = false := by
      simp [GroupSpec.selects, GroupSpec.new, hcreate type htype]
    constructor
    · intro h
      cases h
    · rintro ⟨ns, name, pod, hpod, -, ⟨rfl, -⟩ | ⟨-, hsel, -⟩⟩
      · obtain ⟨s, hs⟩ := C.present ns name pod hpod
        rw [hs] at hnone
        cases hnone
      · rw [hselects] at hsel
        cases hsel

theorem Reselects.members_of_ne (h : Reselects labelGroups m pod f) (hkey : m.selectorKey ≠ key)
    (s : GroupSpec) : (Membership.inSelecting f s).members.get? key = s.members.get? key := by
  rw [Membership.inSelecting]
  split
  · rfl
  · exact h.others s key hkey

/-- Under the key of a pod, a record that counted the pod as it was counts it as it is. -/
theorem Reselects.members_selectorKey (h : Reselects labelGroups m pod f) {former : Option Resource}
    (hbefore : ∀ v, s.members.get? m.selectorKey = some v ↔
      labelGroups = true ∧ selectedMetric former s = some v) (v : Metric) :
    (Membership.inSelecting f s).members.get? m.selectorKey = some v ↔
      labelGroups = true ∧ selectedMetric pod s = some v := by
  by_cases htype : s.type = .byNamespace
  · have hnothing (pod : Option Resource) : selectedMetric pod s = none :=
      selectedMetric_of_byNamespace htype
    rw [Membership.inSelecting_of_byNamespace htype, hbefore, hnothing, hnothing]
  · rw [Membership.inSelecting_of_ne htype]
    cases labelGroups with
    | true => simp [h.own rfl s]
    | false =>
      have hnone : s.members.get? m.selectorKey = none :=
        Option.eq_none_iff_forall_ne_some.mpr fun v hv => by simpa using (hbefore v).mp hv
      simp [h.adds_nothing rfl s hnone]

/-- What counts in a group after a pod has moved. -/
theorem CountsPods.members_moved (C : CountsPods labelGroups pods p) (hm : PlainNames m)
    (hown : Assigns own m.name fun _ => pod.map Resource.metric)
    (hf : Reselects labelGroups m pod f)
    (hbefore : ∀ key v, s.members.get? key = some v ↔ Counted labelGroups pods group s key v)
    (key : String) (v : Metric) :
    (Membership.inSelecting f (if group = m.namespaceGroup then own s else s)).members.get? key =
        some v ↔
      Counted labelGroups (pods.set m pod) group
        (Membership.inSelecting f (if group = m.namespaceGroup then own s else s)) key v := by
  have hmembers := hown.members_ite (group = m.namespaceGroup) s
  have hselector := hown.selector_ite (group = m.namespaceGroup) s
  generalize (if group = m.namespaceGroup then own s else s) = mid at hmembers hselector ⊢
  have hsame : SameSelector mid (Membership.inSelecting f mid) := .inSelecting hf.selector mid
  rw [counted_congr hsame]
  -- A key with a namespace in it is no pod's name, so the two changes never meet in one key.
  by_cases hkey : m.selectorKey = key
  · subst hkey
    have hkept : mid.members.get? m.selectorKey = s.members.get? m.selectorKey := by
      rw [hmembers, if_neg fun h => selectorKey_ne hm.2 h.2.symm]
    have hcounts (v : Metric) : mid.members.get? m.selectorKey = some v ↔
        labelGroups = true ∧ selectedMetric (pods m.namespaceName m.name) mid = some v := by
      rw [hkept, hbefore, ← counted_congr hselector]
      exact counted_memberKey_iff C.plain hm.1
    rw [hf.members_selectorKey hcounts]
    change _ ↔ Counted _ _ _ _ (memberKey m.namespaceName m.name) v
    rw [counted_memberKey_iff (plain_set hm C.plain pod) hm.1, CurrentPods.set_self]
  · rw [hf.members_of_ne hkey, hmembers, counted_congr hselector]
    by_cases hname : group = m.namespaceGroup ∧ m.name = key
    · obtain ⟨rfl, rfl⟩ := hname
      rw [if_pos ⟨rfl, rfl⟩]
      change _ ↔ Counted _ _ (namespaceGroupName m.namespaceName) _ _ _
      rw [counted_name_iff hm.2, CurrentPods.set_self]
    · rw [if_neg hname, counted_set_of_ne hkey hname]
      exact hbefore key v

theorem CountsPods.moved (C : CountsPods labelGroups pods p) (hm : PlainNames m)
    (B : Became (Membership.moved m.namespaceGroup createAs own f) p p')
    (hown : Assigns own m.name fun _ => pod.map Resource.metric)
    (hf : Reselects labelGroups m pod f)
    (hcreate : createAs = some .byNamespace ∨ createAs = none ∧ pod = none)
    (hownSums : ∀ s, (own s).SumsUp) (hfSums : ∀ s, s.SumsUp → (f s).SumsUp) :
    CountsPods labelGroups (pods.set m pod) p' := by
  have htype : ∀ type, createAs = some type → type = .byNamespace := by
    rintro type rfl
    simpa using hcreate
  refine ⟨B.orderly, ?_, ?_, ?_, plain_set hm C.plain pod⟩
  · intro group s' hs' key v
    rw [B.spec?_eq] at hs'
    obtain ⟨s, hs, rfl⟩ := Membership.exists_of_moved hs'
    exact C.members_moved hm hown hf (C.members_before htype hs) key v
  · intro ns name pod' hpod
    by_cases hsame : m.namespaceName = ns ∧ m.name = name
    · obtain ⟨rfl, rfl⟩ := hsame
      rw [CurrentPods.set_self] at hpod
      rcases hcreate with rfl | ⟨-, hnone⟩
      · have hgroup : namespaceGroupName m.namespaceName = m.namespaceGroup := rfl
        rw [B.spec?_eq, Membership.moved, if_pos hgroup]
        cases p.spec? (namespaceGroupName m.namespaceName) with
        | some s => exact ⟨_, rfl⟩
        | none => exact ⟨_, rfl⟩
      · rw [hnone] at hpod
        cases hpod
    · rw [CurrentPods.set_of_ne hsame] at hpod
      obtain ⟨s, hs⟩ := C.present ns name pod' hpod
      obtain ⟨s', hs', -⟩ := B.selector hown.selector hf.selector hs
      exact ⟨s', hs'⟩
  · intro group s' hs'
    rw [B.spec?_eq] at hs'
    exact Membership.of_moved (GroupSpec.sumsUp_new _) (fun s _ => hownSums s) hfSums
      (C.sumsUp group) hs'

end Moved

theorem reselects_joined {object : Resource} {bytes : UInt64} {now : Instant} :
    Reselects labelGroups (.ofResource object) (some object)
      (if labelGroups then GroupSpec.settled (.ofResource object)
        (Reconciler.memberUsage e object bytes) e.observed now else id) := by
  cases labelGroups with
  | true =>
    refine ⟨assigns_settled.selector, fun s k hk => ?_, fun _ s => ?_, nofun⟩
    · exact (assigns_settled.members s k).trans (if_neg hk)
    · rw [selectedMetric_some]
      exact (assigns_settled.members s _).trans (if_pos rfl)
  | false => exact ⟨fun _ => ⟨rfl, rfl⟩, fun _ _ _ => rfl, nofun, fun _ _ h => h⟩

theorem reselects_left {ended now : Instant} :
    Reselects labelGroups m none (GroupSpec.released m ended now) := by
  have hgone (s : GroupSpec) : (s.released m ended now).members.get? m.selectorKey = none :=
    (assigns_released.members s _).trans (if_pos rfl)
  exact ⟨assigns_released.selector, fun s k hk => (assigns_released.members s k).trans (if_neg hk),
    fun _ s => hgone s, fun _ s _ => hgone s⟩

/-! ## Histories -/

/-- All that counts of the groups are their records. -/
theorem CountsPods.congr (C : CountsPods labelGroups pods p) (h : Orderly p')
    (hspec : ∀ name, p'.spec? name = p.spec? name) : CountsPods labelGroups pods p' where
  orderly := h
  members group s hs := C.members group s (hspec group ▸ hs)
  present ns name pod hpod := by
    rw [hspec]
    exact C.present ns name pod hpod
  sumsUp group s hs := C.sumsUp group s (hspec group ▸ hs)
  plain := C.plain

theorem CountsPods.handle {settings : ReconcilerSettings}
    (C : CountsPods settings.labelGroups pods p)
    (hsettings : p.settings.reconciler.policies = settings)
    (he : HasPlainNames e) (hok : (p.handle e).1.isOk) :
    CountsPods settings.labelGroups (pods.after settings e) (p.handle e).2 := by
  subst hsettings
  obtain ⟨object, -, -, ⟨hpod, happlies, bytes, -, B⟩ | ⟨hpod, happlies, hpurges, B⟩ |
    ⟨hstays, B⟩⟩ := handle_cases C.orderly hok
  · simp only [CurrentPods.after, hpod, happlies, if_true]
    refine C.moved (he object hpod) B assigns_upserted reselects_joined (.inl rfl)
      (fun _ => GroupSpec.sumsUp_upserted) fun s hs => ?_
    split
    · exact hs.settled
    · exact hs
  · simp only [CurrentPods.after, hpod, happlies, hpurges, if_true, Bool.false_eq_true, if_false]
    exact C.moved (he object hpod) B assigns_removed reselects_left (.inr ⟨rfl, rfl⟩)
      (fun _ => GroupSpec.sumsUp_removed) fun _ hs => hs.released
  · rw [CurrentPods.after_of_neither hstays]
    exact C.congr B.orderly B.spec?_eq

theorem countsPods_start (h : Orderly p₀) (hempty : NoMembers p₀) :
    CountsPods labelGroups .none p₀ where
  orderly := h
  members group s hs key v := by
    rw [hempty group s hs]
    constructor
    · intro hv
      cases hv
    · rintro ⟨_, _, _, hpod, _⟩
      cases hpod
  present _ _ _ hpod := nomatch hpod
  sumsUp group s hs := .inl (hempty group s hs)
  plain _ _ _ hpod := nomatch hpod

/-- By induction on the history. -/
theorem Handled.countsPods (h : Handled p₀ events p) (hstart : Orderly p₀) (hempty : NoMembers p₀)
    (hevents : ∀ e ∈ events, HasPlainNames e) :
    CountsPods p₀.settings.reconciler.policies.labelGroups
      (currentPods p₀.settings.reconciler.policies events) p := by
  induction h with
  | start => exact countsPods_start hstart hempty
  | between _ hb ih =>
    have C := ih hevents
    exact C.congr (hb.orderly C.orderly) hb.spec?_eq
  | @handle events p h e hok ih =>
    have C := ih fun e' he' => hevents e' (List.mem_append_left _ he')
    have hsettings : p.settings.reconciler.policies = p₀.settings.reconciler.policies := by
      rw [h.settings_eq]
    rw [currentPods_append]
    exact C.handle hsettings (hevents e (List.mem_append_right _ (List.mem_singleton_self e))) hok

/-! ## How often -/

theorem mem_keysOf_iff {ns name : String} :
    key ∈ s.keysOf group ns name ↔ (∃ v, s.members.get? key = some v) ∧
      (key = memberKey ns name ∨ group = namespaceGroupName ns ∧ key = name) := by
  rw [GroupSpec.keysOf, List.mem_filter, KeyMap.mem_keys_iff, Option.isSome_iff_exists]
  simp [standsFor]

/-- What the keys of a current pod are in a group. -/
def keysFor (labelGroups : Bool) (group : String) (s : GroupSpec) (ns name : String)
    (pod : Resource) : List String :=
  (if group = namespaceGroupName ns then [name] else []) ++
    if labelGroups = true ∧ s.selects (PodMember.ofResource pod).labels then [memberKey ns name]
    else []

theorem nodup_keysFor {ns name : String} {pod : Resource} (hname : ':' ∉ name.toList) :
    (keysFor labelGroups group s ns name pod).Nodup := by
  have hne : name ≠ memberKey ns name := (memberKey_ne hname).symm
  rw [keysFor]
  split <;> split <;> simp [hne]

theorem mem_keysFor_iff {ns name : String} {pod : Resource} :
    key ∈ keysFor labelGroups group s ns name pod ↔
      group = namespaceGroupName ns ∧ key = name ∨
        (labelGroups = true ∧ s.selects (PodMember.ofResource pod).labels) ∧
          key = memberKey ns name := by
  rw [keysFor, List.mem_append]
  refine or_congr ?_ ?_
  · split <;> simp_all
  · split <;> simp_all

section Current

variable {ns name : String} {pod : Resource}

/-- In the group of its namespace a current pod has its metric under its name. -/
theorem CountsPods.get?_name_iff (C : CountsPods labelGroups pods p) (hs : p.spec? group = some s)
    (hpod : pods ns name = some pod) (hgroup : group = namespaceGroupName ns) :
    s.members.get? name = some v ↔ v = pod.metric := by
  rw [C.members group s hs, hgroup, counted_name_iff (C.plain ns name pod hpod).2, hpod]
  exact ⟨fun h => (Option.some_inj.mp h).symm, fun h => congrArg some h.symm⟩

/-- In a group that selects a current pod, the pod has its metric under its namespace and
name. -/
theorem CountsPods.get?_memberKey_iff (C : CountsPods labelGroups pods p)
    (hs : p.spec? group = some s) (hpod : pods ns name = some pod) :
    s.members.get? (memberKey ns name) = some v ↔
      (labelGroups = true ∧ s.selects (PodMember.ofResource pod).labels) ∧ v = pod.metric := by
  rw [C.members group s hs, counted_memberKey_iff C.plain (C.plain ns name pod hpod).1, hpod,
    selectedMetric_some]
  by_cases hselects : s.selects (PodMember.ofResource pod).labels
  · simp only [hselects, if_true, Option.some_inj, and_true, @eq_comm Metric v]
  · simp only [hselects, Bool.false_eq_true, if_false, and_false, false_and, reduceCtorEq]

/-- A current pod has exactly its keys in a group, all of them with its metric. -/
theorem CountsPods.keysOf (C : CountsPods labelGroups pods p) (hs : p.spec? group = some s)
    (hpod : pods ns name = some pod) :
    (s.keysOf group ns name).Perm (keysFor labelGroups group s ns name pod) ∧
      ∀ key ∈ s.keysOf group ns name, s.members.get? key = some pod.metric := by
  have hnodup : (s.keysOf group ns name).Nodup := (KeyMap.nodup_keys s.members).filter _
  refine ⟨(List.perm_ext_iff_of_nodup hnodup
    (nodup_keysFor (C.plain ns name pod hpod).2)).mpr fun key => ?_, ?_⟩
  · rw [mem_keysOf_iff, mem_keysFor_iff]
    constructor
    · rintro ⟨⟨v, hv⟩, rfl | hname⟩
      · exact .inr ⟨((C.get?_memberKey_iff hs hpod).mp hv).1, rfl⟩
      · exact .inl hname
    · rintro (⟨hgroup, rfl⟩ | ⟨hselects, rfl⟩)
      · exact ⟨⟨_, (C.get?_name_iff hs hpod hgroup).mpr rfl⟩, .inr ⟨hgroup, rfl⟩⟩
      · exact ⟨⟨_, (C.get?_memberKey_iff hs hpod).mpr ⟨hselects, rfl⟩⟩, .inl rfl⟩
  · intro key hkey
    obtain ⟨⟨v, hv⟩, rfl | ⟨hgroup, rfl⟩⟩ := mem_keysOf_iff.mp hkey
    · rw [hv, ((C.get?_memberKey_iff hs hpod).mp hv).2]
    · rw [hv, (C.get?_name_iff hs hpod hgroup).mp hv]

end Current

/-- Two keys are those of a group that has the name of the namespace's group, and selects
the pod nevertheless. -/
theorem length_keysFor_le_one_iff {ns name : String} {pod : Resource} :
    (keysFor labelGroups group s ns name pod).length ≤ 1 ↔
      ¬(group = namespaceGroupName ns ∧
        labelGroups = true ∧ s.selects (PodMember.ofResource pod).labels) := by
  rw [keysFor]
  split <;> split <;> simp_all

/-- Whatever groups there are at the beginning: each member of a group stands for a current
pod and has its metric, and the total is the sum over the members. A pod has its name for a
key in the group of its namespace, its namespace and name in a group that selects it, and no
other key anywhere. So it is counted once at most, in every group but one that has the name
of its namespace's group and selects it by its labels; there it is counted twice. -/
theorem current_pods_counted (h : Handled p₀ events p) (hstore : p₀.store.memory.Reachable)
    (hscript : p₀.store.Honest) (hempty : NoMembers p₀) (hevents : ∀ e ∈ events, HasPlainNames e) :
    let settings := p₀.settings.reconciler.policies
    let pods := currentPods settings events
    ∀ group s, p.spec? group = some s →
      s.SumsUp ∧
      (∀ key v, s.members.get? key = some v →
        ∃ ns name pod, pods ns name = some pod ∧ key ∈ s.keysOf group ns name) ∧
      ∀ ns name pod, pods ns name = some pod →
        (s.keysOf group ns name).Perm (keysFor settings.labelGroups group s ns name pod) ∧
        (∀ key ∈ s.keysOf group ns name, s.members.get? key = some pod.metric) ∧
        ((s.keysOf group ns name).length ≤ 1 ↔
          ¬(group = namespaceGroupName ns ∧
            settings.labelGroups = true ∧ s.selects (PodMember.ofResource pod).labels)) := by
  intro settings pods group s hs
  have C : CountsPods settings.labelGroups pods p :=
    h.countsPods ⟨hstore.sound, hscript⟩ hempty hevents
  refine ⟨C.sumsUp group s hs, ?_, ?_⟩
  · intro key v hv
    obtain ⟨ns, name, pod, hpod, -, hstands⟩ := (C.members group s hs key v).mp hv
    refine ⟨ns, name, pod, hpod, mem_keysOf_iff.mpr ⟨⟨v, hv⟩, ?_⟩⟩
    rcases hstands with hname | ⟨-, -, hkey⟩
    · exact .inr hname
    · exact .inl hkey
  · intro ns name pod hpod
    obtain ⟨hkeys, hmetric⟩ := C.keysOf hs hpod
    refine ⟨hkeys, hmetric, ?_⟩
    rw [hkeys.length_eq]
    exact length_keysFor_le_one_iff

/-! ## Groups of a shop -/

theorem hasPlainNames_shop : ∀ e ∈ [shopCreated, shopRelabelled], HasPlainNames e := by
  have hnames : ∀ e ∈ [shopCreated, shopRelabelled],
      ∀ m ∈ e.pod?.map PodMember.ofResource, PlainNames m := by
    unfold PlainNames
    decide +kernel
  intro e he pod hpod
  exact hnames e he _ (Option.mem_map_of_mem _ hpod)

/-- The pod is counted once in the group of its new tier. -/
theorem shop_counted_once :
    let p := (shopMiddle.handle shopRelabelled).2
    (Handled shopStart [shopCreated, shopRelabelled] p ∧ shopStart.store.memory.Reachable ∧
      shopStart.store.Honest ∧ NoMembers shopStart ∧
      ∀ e ∈ [shopCreated, shopRelabelled], HasPlainNames e) ∧
    ∃ s, p.spec? "tier-db" = some s ∧ s.keysOf "tier-db" "shop" "web-0" = ["shop:web-0"] ∧
      s.members.get? "shop:web-0" = some .zero := by
  intro p
  have hstore : shopStart.store.memory.Reachable := .answer _ (.answer _ (.empty []))
  have hscript : shopStart.store.Honest := fun _ _ h => nomatch h
  refine ⟨⟨handled_shop, hstore, hscript, noMembers_shop, hasPlainNames_shop⟩, ?_⟩
  have hselects : (p.spec? "tier-db").map (GroupSpec.selects · (.ofList [("tier", "db")])) =
      some true := by decide +kernel
  obtain ⟨s, hs, hlabels⟩ := Option.map_eq_some_iff.mp hselects
  obtain ⟨-, -, hcounted⟩ := current_pods_counted handled_shop hstore hscript noMembers_shop
    hasPlainNames_shop "tier-db" s hs
  obtain ⟨hkeys, hmetric, -⟩ := hcounted "shop" "web-0" (shopPod "web-0" "db") rfl
  have hfor : keysFor true "tier-db" s "shop" "web-0" (shopPod "web-0" "db") = ["shop:web-0"] := by
    rw [keysFor, if_neg (by decide), if_pos ⟨rfl, hlabels⟩]
    rfl
  have hall : s.keysOf "tier-db" "shop" "web-0" = ["shop:web-0"] :=
    List.perm_singleton.mp (hfor ▸ hkeys)
  refine ⟨s, hs, hall, hmetric _ ?_⟩
  rw [hall]
  exact List.mem_singleton_self _

/-- A pipeline with a group that selects the pods of a tier, under the name of the group of
a namespace. -/
def misnamedStart : Pipeline :=
  let group : StoredGroup :=
    .new "ns-shop"
      { GroupSpec.new "ns-shop" .byLabel with labels := .ofList [("tier", "web")] }
  { Pipeline.new {} ⟨1700000000, 0⟩ with
    store.memory := (MemoryStore.answer (.create group) {}).2 }

/-- A pod of that namespace and of that tier is counted twice. -/
theorem misnamed_counts_twice :
    let p := (misnamedStart.handle shopCreated).2
    (Handled misnamedStart [shopCreated] p ∧ misnamedStart.store.memory.Reachable ∧
      misnamedStart.store.Honest ∧ NoMembers misnamedStart ∧
      ∀ e ∈ [shopCreated], HasPlainNames e) ∧
    currentPods misnamedStart.settings.reconciler.policies [shopCreated] "shop" "web-0" =
      some (shopPod "web-0" "web") ∧
    ∃ s, p.spec? "ns-shop" = some s ∧
      s.keysOf "ns-shop" "shop" "web-0" = ["shop:web-0", "web-0"] ∧
      s.members.get? "web-0" = some .zero ∧ s.members.get? "shop:web-0" = some .zero := by
  intro p
  have hok : (misnamedStart.handle shopCreated).1.isOk := by decide +kernel
  have hmembers : (p.spec? "ns-shop").map (fun s =>
      (s.keysOf "ns-shop" "shop" "web-0", s.members.get? "web-0", s.members.get? "shop:web-0")) =
        some (["shop:web-0", "web-0"], some .zero, some .zero) := by
    decide +kernel
  obtain ⟨s, hs, htwice⟩ := Option.map_eq_some_iff.mp hmembers
  simp only [Prod.mk.injEq] at htwice
  have hstore : misnamedStart.store.memory.Reachable := .answer _ (.empty [])
  have hscript : misnamedStart.store.Honest := fun _ _ h => nomatch h
  have hempty : NoMembers misnamedStart := noMembers_of_entries (by decide +kernel)
  refine ⟨⟨.handle .start _ hok, hstore, hscript, hempty, ?_⟩, rfl, s, hs, htwice⟩
  intro e he
  exact hasPlainNames_shop e (List.mem_cons.mpr (.inl (List.mem_singleton.mp he)))

end Pipeline

end Chargeback
