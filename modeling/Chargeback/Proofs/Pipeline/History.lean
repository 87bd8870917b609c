import Chargeback.Proofs.Pipeline.Membership
import Chargeback.Proofs.Reconciler.CurrentPods

/-!
# Members follow the history of events

While events are handled one after the other, the groups have exactly the pods as members
that are there after the events so far: the group of a namespace those of its namespace,
by name, and a group that selects by labels those that it selects, by namespace and name.
Each member has the metric of the object that counts for its pod.

A group that selects by labels is left out here if it has the name of a namespace's group:
pods of that namespace would get into it by their names alone.

## Main definitions

* `Pipeline.Handled`: the pipelines after a history of events that were handled well.
* `Pipeline.Follows`: the groups have exactly the given pods as members.
-/

namespace Chargeback

namespace Pipeline

variable {p p' p₀ : Pipeline} {e : ResourceEvent} {events : List ResourceEvent}

/-! ## The handling of an event -/

theorem answer_settings (r : ReconcilerRequest) (p : Pipeline) :
    (answer r p).2.settings = p.settings := by
  cases r with
  | track action object => rfl
  | countEvent kind action => rfl
  | claimedBytes keys => rfl
  | offer payload =>
    simp only [answer, enqueue, showBuffered]
    split <;> rfl
  | group r =>
    cases r with
    | store r => rfl
    | pause k => rfl
    | clock => rfl

theorem enqueue_store (p : Pipeline) (payload : Payload) :
    (p.enqueue payload).2.store = p.store := by
  simp only [enqueue, showBuffered]
  split <;> rfl

theorem handle_settings (p : Pipeline) (e : ResourceEvent) :
    (p.handle e).2.settings = p.settings :=
  Program.run_keeps (Q := fun s => s.settings = p.settings)
    (fun r s hs => (answer_settings r s).trans hs) _ rfl

/-- The result of an event that is not ignored is that of its change of the groups. -/
theorem bind_aggregate_run (program : ReconcilerProgram (Except ReconcileError Unit)) (m : Pipeline)
    (handler : Handler) :
    let rest : ReconcilerProgram (Except ReconcileError Handler) := program.bind fun
      | .ok () => .done (.ok handler)
      | .error failure => .done (.error failure)
    (rest.run answer m).2 = (program.run answer m).2 ∧
      ((rest.run answer m).1.isOk ↔ (program.run answer m).1 = .ok ()) := by
  intro rest
  simp only [rest, Program.run_bind]
  cases (program.run answer m).1 with
  | ok a => exact ⟨rfl, fun _ => rfl, fun _ => rfl⟩
  | error failure => exact ⟨rfl, nofun, nofun⟩

theorem enqueue_now (p : Pipeline) (payload : Payload) : (p.enqueue payload).2.now = p.now := by
  simp only [enqueue, showBuffered]
  split <;> rfl

theorem enqueue_inventory (p : Pipeline) (payload : Payload) :
    (p.enqueue payload).2.inventory = p.inventory := by
  simp only [enqueue, showBuffered]
  split <;> rfl

/-- What an event comes to in the groups: after it has been entered into the inventory, and
all has been done that does not concern the store, its change of the groups is made. -/
theorem handle_run (p : Pipeline) {object : Resource} (he : e.object = some object) :
    ∃ m : Pipeline, m.store = p.store ∧ m.now = p.now ∧
      m.inventory = p.inventory.track e.action object ∧
      (p.handle e).2 = ((p.settings.reconciler.aggregate e object).run answer m).2 ∧
      ((p.handle e).1.isOk ↔
        ((p.settings.reconciler.aggregate e object).run answer m).1 = .ok ()) := by
  generalize hc : p.settings.reconciler = c
  rw [handle, hc, Reconciler.handle, he]
  let counted := (answer (.countEvent e.kind e.action) (answer (.track e.action object) p).2).2
  let offered := (answer (.offer (c.payload e object)) counted).2
  have hstore : offered.store = p.store := enqueue_store counted _
  have hnow : offered.now = p.now := enqueue_now counted _
  have hinventory : offered.inventory = p.inventory.track e.action object :=
    enqueue_inventory counted _
  cases hhandler : c.handlerOf e with
  | ignore =>
    have hleaves : Reconciler.LeavesGroups (c.handlerOf e) := by
      rw [hhandler]
      exact ⟨nofun, nofun⟩
    rw [Reconciler.aggregate_of_leavesGroups hleaves]
    exact ⟨counted, rfl, rfl, rfl, rfl, fun _ => rfl, fun _ => rfl⟩
  | exportOnly =>
    exact ⟨offered, hstore, hnow, hinventory, bind_aggregate_run (c.aggregate e object) offered _⟩
  | exportAndUpsert =>
    exact ⟨offered, hstore, hnow, hinventory, bind_aggregate_run (c.aggregate e object) offered _⟩
  | exportAndPurge =>
    exact ⟨offered, hstore, hnow, hinventory, bind_aggregate_run (c.aggregate e object) offered _⟩

theorem answerGroup_inventory (r : AggregatorRequest) (p : Pipeline) :
    (answerGroup r p).2.inventory = p.inventory := by
  cases r <;> rfl

theorem onGroups_inventory {α : Type} (p : Pipeline) (program : GroupProgram α) :
    (p.onGroups program).2.inventory = p.inventory :=
  Program.run_keeps (Q := fun s => s.inventory = p.inventory)
    (fun r s hs => (answerGroup_inventory r s).trans hs) program rfl

/-- A change of the groups is made by the run of its program on groups. -/
theorem onGroups_run {m : Pipeline} {program : GroupProgram (Except AggregateError Unit)}
    (hok : ((Reconciler.onGroups program).run answer m).1 = .ok ()) :
    (m.onGroups program).1 = .ok () ∧
      ((Reconciler.onGroups program).run answer m).2 = (m.onGroups program).2 := by
  have hembed : (program.embed fun r => Reconciler.ask (.group r)).run answer m =
      program.run answerGroup m := Program.run_embed _ _ program m
  simp only [Reconciler.onGroups, Program.monad_bind_eq, Program.run_bind, hembed] at hok ⊢
  rw [onGroups]
  cases hresult : (program.run answerGroup m).1 with
  | ok a => exact ⟨rfl, rfl⟩
  | error failure => rw [hresult] at hok; cases hok

/-- An event that is about no pod changes nothing in the store. -/
theorem handle_store_of_no_pod (p : Pipeline) (hpod : e.pod? = none) :
    (p.handle e).2.store = p.store := by
  cases he : e.object with
  | none => rw [handle, Reconciler.handle, he]; rfl
  | some object =>
    obtain ⟨m, hstore, -, -, hend, -⟩ := handle_run p he
    rw [hend, Reconciler.aggregate_of_no_pod he hpod]
    exact hstore

/-! ## Groups that follow pods -/

/-- The key of a pod in the groups that select by labels. -/
def memberKey (ns name : String) : String := ns ++ ":" ++ name

/-- Two lists of characters are the same up to the first separator and behind it. -/
theorem append_separator_inj {sep : Char} {a b c d : List Char} (ha : sep ∉ a) (hb : sep ∉ b)
    (h : a ++ sep :: c = b ++ sep :: d) : a = b ∧ c = d := by
  induction a generalizing b with
  | nil =>
    cases b with
    | nil =>
      injection h with _ h
      exact ⟨rfl, h⟩
    | cons y b =>
      injection h with h _
      exact absurd (h ▸ List.mem_cons_self) hb
  | cons x a ih =>
    cases b with
    | nil =>
      injection h with h _
      exact absurd (h ▸ List.mem_cons_self) ha
    | cons y b =>
      injection h with hx h
      obtain ⟨rfl, rfl⟩ := ih (fun hmem => ha (List.mem_cons_of_mem x hmem))
        (fun hmem => hb (List.mem_cons_of_mem y hmem)) h
      exact ⟨by rw [hx], rfl⟩

/-- A key tells namespace and name apart, as namespaces have no colon. -/
theorem memberKey_inj {ns ns' name name' : String} (hns : ':' ∉ ns.toList)
    (hns' : ':' ∉ ns'.toList) (h : memberKey ns name = memberKey ns' name') :
    ns = ns' ∧ name = name' := by
  have hlist := congrArg String.toList h
  simp only [memberKey, String.toList_append, List.append_assoc] at hlist
  obtain ⟨hleft, hright⟩ := append_separator_inj hns hns' hlist
  exact ⟨String.toList_injective hleft, String.toList_injective hright⟩

/-- A pod that the record selects, with its key and its metric. -/
def Selected (pods : CurrentPods) (s : GroupSpec) (key : String) (metric : Metric) : Prop :=
  ∃ ns name pod, key = memberKey ns name ∧ pods ns name = some pod ∧
    s.selects (PodMember.ofResource pod).labels ∧ metric = pod.metric

/-- The groups have exactly the given pods as members. -/
structure Follows (p₀ : Pipeline) (pods : CurrentPods) (p : Pipeline) : Prop where
  orderly : Orderly p
  /-- The groups from the beginning are still there and select by the same labels. -/
  selector : ∀ name s₀, p₀.spec? name = some s₀ →
    ∃ s, p.spec? name = some s ∧ SameSelector s₀ s
  namespaces : ∀ ns, p₀.IsNamespaceGroup ns → p.IsNamespaceGroup ns ∧
    ∀ name, (p.members (namespaceGroupName ns)).get? name = (pods ns name).map Resource.metric
  selecting : ∀ name s, p.spec? name = some s → s.type ≠ .byNamespace →
    (∀ ns, name ≠ namespaceGroupName ns) →
      ∀ key metric, s.members.get? key = some metric ↔ Selected pods s key metric
  apart : ∀ ns name pod, pods ns name = some pod → ':' ∉ ns.toList

variable {pods : CurrentPods} {m : PodMember} {pod : Option Resource}

/-- All that counts of the groups are their records. -/
theorem Follows.congr (F : Follows p₀ pods p) (h : Orderly p')
    (hspec : ∀ name, p'.spec? name = p.spec? name) : Follows p₀ pods p' where
  orderly := h
  selector name s₀ hs₀ := by
    rw [hspec name]
    exact F.selector name s₀ hs₀
  namespaces ns hns := by
    obtain ⟨hplain, hmembers⟩ := F.namespaces ns hns
    rw [members, hspec]
    exact ⟨fun s hs => hplain s (hspec _ ▸ hs), hmembers⟩
  selecting name s hs := F.selecting name s (hspec name ▸ hs)
  apart := F.apart

/-- What is selected under another key than that of a pod does not change with the pod. -/
theorem selected_set_of_ne {s : GroupSpec} {key : String} {metric : Metric}
    (hkey : m.selectorKey ≠ key) :
    Selected (pods.set m pod) s key metric ↔ Selected pods s key metric := by
  have hset : ∀ ns name, key = memberKey ns name → pods.set m pod ns name = pods ns name := by
    rintro ns name rfl
    refine CurrentPods.set_of_ne ?_
    rintro ⟨rfl, rfl⟩
    exact hkey rfl
  constructor
  · rintro ⟨ns, name, pod', hk, hpod, hrest⟩
    exact ⟨ns, name, pod', hk, hset ns name hk ▸ hpod, hrest⟩
  · rintro ⟨ns, name, pod', hk, hpod, hrest⟩
    exact ⟨ns, name, pod', hk, (hset ns name hk).trans hpod, hrest⟩

/-- What is selected under the key of a pod is the pod, if the record selects it. -/
theorem selected_set_self {s : GroupSpec} {metric : Metric} (hm : ':' ∉ m.namespaceName.toList)
    (hpods : ∀ ns name pod, pods ns name = some pod → ':' ∉ ns.toList) :
    Selected (pods.set m pod) s m.selectorKey metric ↔
      ∃ pod', pod = some pod' ∧ s.selects (PodMember.ofResource pod').labels ∧
        metric = pod'.metric := by
  constructor
  · rintro ⟨ns, name, pod', hk, hpod, hrest⟩
    by_cases hsame : m.namespaceName = ns ∧ m.name = name
    · obtain ⟨rfl, rfl⟩ := hsame
      rw [CurrentPods.set_self] at hpod
      exact ⟨pod', hpod, hrest⟩
    · rw [CurrentPods.set_of_ne hsame] at hpod
      exact absurd (memberKey_inj hm (hpods ns name pod' hpod) hk) hsame
  · rintro ⟨pod', rfl, hrest⟩
    exact ⟨m.namespaceName, m.name, pod', rfl, CurrentPods.set_self, hrest⟩

/-- The metric of a pod in the groups that select it. -/
def selectedMetric (pod : Option Resource) (s : GroupSpec) : Option Metric :=
  (pod.filter fun r => s.selects (PodMember.ofResource r).labels).map Resource.metric

theorem selectedMetric_eq_some_iff {s : GroupSpec} {v : Metric} :
    selectedMetric pod s = some v ↔ ∃ pod', pod = some pod' ∧
      s.selects (PodMember.ofResource pod').labels ∧ v = pod'.metric := by
  simp only [selectedMetric, Option.map_eq_some_iff, Option.filter_eq_some_iff, and_assoc,
    @eq_comm Metric v]

theorem selectedMetric_some (r : Resource) (s : GroupSpec) :
    selectedMetric (some r) s =
      if s.selects (PodMember.ofResource r).labels then some r.metric else none := by
  rw [selectedMetric, Option.filter_some]
  split
  · rfl
  · rfl

/-- The groups follow a pod that has moved: joined them, or left them. -/
theorem Follows.moved (F : Follows p₀ pods p) (hm : ':' ∉ m.namespaceName.toList)
    (M : Moved m (pod.map Resource.metric) (selectedMetric pod) p p') :
    Follows p₀ (pods.set m pod) p' := by
  refine ⟨M.orderly, ?_, ?_, ?_, ?_⟩
  · intro name s₀ hs₀
    obtain ⟨s, hs, hsame⟩ := F.selector name s₀ hs₀
    obtain ⟨s', hs', hsame'⟩ := M.selector name s hs
    exact ⟨s', hs', hsame.trans hsame'⟩
  · intro ns hns
    obtain ⟨hplain, hmembers⟩ := F.namespaces ns hns
    obtain ⟨hplain', hmembers'⟩ := M.namespaces ns hplain
    refine ⟨hplain', fun name => ?_⟩
    rw [hmembers' name, hmembers name, CurrentPods.set]
    split
    · rfl
    · rfl
  · intro name s' hs' htype hname key v
    obtain ⟨s, hs, hsame, hmembers⟩ := M.selecting name s' hs' htype hname
    have hselects := hsame.selects_eq
    rw [hmembers key]
    by_cases hkey : m.selectorKey = key
    · subst hkey
      rw [if_pos rfl, selectedMetric_eq_some_iff, selected_set_self hm F.apart]
      simp only [hselects]
    · rw [if_neg hkey, selected_set_of_ne hkey,
        F.selecting name s hs (fun h => htype (hsame.1.trans h)) hname]
      simp only [Selected, hselects]
  · intro ns name pod' hpod
    by_cases hsame : m.namespaceName = ns ∧ m.name = name
    · exact hsame.1 ▸ hm
    · rw [CurrentPods.set_of_ne hsame] at hpod
      exact F.apart ns name pod' hpod

/-! ## Histories -/

/-- A pod joins its groups once the bytes that it claims are known. -/
theorem joinGroups_run {c : Reconciler} {object : Resource} (h : Orderly p)
    (hok : ((c.joinGroups e object).run answer p).1 = .ok ()) :
    ∃ bytes, p.inventory.claimedBytes object.claimKeys = .ok bytes ∧
      Became (Membership.joined c.policies.labelGroups (.ofResource object)
          (Reconciler.memberUsage e object bytes) e.observed p.now)
        p ((c.joinGroups e object).run answer p).2 ∧
      ((c.joinGroups e object).run answer p).2.inventory = p.inventory := by
  have hclaimed : (Reconciler.ask (.claimedBytes object.claimKeys)).run answer p =
      (p.inventory.claimedBytes object.claimKeys, p) := rfl
  simp only [Reconciler.joinGroups, Program.monad_bind_eq, Program.run_bind, hclaimed] at hok ⊢
  cases hbytes : p.inventory.claimedBytes object.claimKeys with
  | error overflow => rw [hbytes] at hok; cases hok
  | ok bytes =>
    rw [hbytes] at hok
    obtain ⟨hjoin, hend⟩ := onGroups_run hok
    simp only [hend]
    exact ⟨bytes, rfl, join_run h hjoin, onGroups_inventory p _⟩

theorem leaveGroups_run {c : Reconciler} {object : Resource} (h : Orderly p)
    (hok : ((c.leaveGroups e object).run answer p).1 = .ok ()) :
    Became (Membership.left (.ofResource object) (object.metadata.deleted.getD e.observed) p.now)
        p ((c.leaveGroups e object).run answer p).2 ∧
      ((c.leaveGroups e object).run answer p).2.inventory = p.inventory := by
  obtain ⟨hleave, hend⟩ := onGroups_run hok
  rw [Reconciler.leaveGroups, hend]
  exact ⟨leave_run h hleave, onGroups_inventory p _⟩

/-- What counts at the beginning are the records and the clock. -/
theorem Became.of_store_eq {f : String → Option GroupSpec → Option GroupSpec} {m : Pipeline}
    (B : Became f m p') (hstore : m.store = p.store) (hnow : m.now = p.now) : Became f p p' := by
  refine ⟨B.orderly, B.now_eq.trans hnow, fun name => ?_⟩
  rw [B.spec?_eq, spec?, spec?, group?, group?, hstore]

/-- What an event that was handled well comes to: it has been entered into the inventory; and
its pod has joined its groups, with the bytes of the claims that are known then; or it has
left them; or no record has changed. -/
theorem handle_cases (h : Orderly p) (hok : (p.handle e).1.isOk) :
    let s := p.settings.reconciler.policies
    ∃ object, e.object = some object ∧
      (p.handle e).2.inventory = p.inventory.track e.action object ∧
      ((e.pod? = some object ∧ e.applies s = true ∧ ∃ bytes,
          (p.inventory.track e.action object).claimedBytes object.claimKeys = .ok bytes ∧
          Became (Membership.joined s.labelGroups (.ofResource object)
            (Reconciler.memberUsage e object bytes) e.observed p.now) p (p.handle e).2) ∨
        (e.pod? = some object ∧ e.applies s = false ∧ e.purges s = true ∧
          Became (Membership.left (.ofResource object)
            (object.metadata.deleted.getD e.observed) p.now) p (p.handle e).2) ∨
        (e.pod? = none ∨ e.applies s = false ∧ e.purges s = false) ∧
          Became (fun _ r => r) p (p.handle e).2) := by
  intro s
  cases he : e.object with
  | none =>
    rw [handle, Reconciler.handle, he] at hok
    cases hok
  | some object =>
    obtain ⟨m, hstore, hnow, hinventory, hend, hresult⟩ := handle_run p he
    have hdone := hresult.mp hok
    have hm : Orderly m := ⟨hstore ▸ h.sound, hstore ▸ h.honest⟩
    have hsame : Became (fun _ r => r) p m :=
      Became.of_store_eq ⟨hm, rfl, fun _ => rfl⟩ hstore hnow
    refine ⟨object, rfl, ?_⟩
    rw [hend]
    cases hpod : e.pod? with
    | none =>
      rw [Reconciler.aggregate_of_no_pod he hpod]
      exact ⟨hinventory, .inr (.inr ⟨.inl rfl, hsame⟩)⟩
    | some pod =>
      obtain rfl : object = pod :=
        Option.some_inj.mp (he.symm.trans (Reconciler.of_pod?_eq_some hpod).1)
      cases happlies : e.applies s with
      | true =>
        rw [Reconciler.aggregate_of_applies hpod happlies] at hdone ⊢
        obtain ⟨bytes, hbytes, hjoined, hkept⟩ := joinGroups_run hm hdone
        rw [hinventory] at hbytes hkept
        rw [hnow] at hjoined
        exact ⟨hkept, .inl ⟨rfl, rfl, bytes, hbytes, hjoined.of_store_eq hstore hnow⟩⟩
      | false =>
        cases hpurges : e.purges s with
        | true =>
          rw [Reconciler.aggregate_of_purges hpod hpurges] at hdone ⊢
          obtain ⟨hleft, hkept⟩ := leaveGroups_run hm hdone
          rw [hinventory] at hkept
          rw [hnow] at hleft
          exact ⟨hkept, .inr (.inl ⟨rfl, rfl, rfl, hleft.of_store_eq hstore hnow⟩)⟩
        | false =>
          rw [Reconciler.aggregate_of_leavesGroups
            (Reconciler.leavesGroups_of_neither happlies hpurges)]
          exact ⟨hinventory, .inr (.inr ⟨.inr ⟨rfl, rfl⟩, hsame⟩)⟩

/-- A pod that joins its groups does so with its metric. -/
theorem moved_of_joined {labelGroups : Bool} {object : Resource} {bytes : UInt64} {now : Instant}
    (hlabels : labelGroups = true)
    (B : Became (Membership.joined labelGroups (.ofResource object)
      (Reconciler.memberUsage e object bytes) e.observed now) p p') :
    Moved (.ofResource object) (some object.metric) (selectedMetric (some object)) p p' := by
  rw [Membership.joined, hlabels] at B
  rw [funext (selectedMetric_some object)]
  exact B.moved assigns_upserted assigns_settled (.inl rfl)

theorem moved_of_left {object : Resource} {ended now : Instant}
    (B : Became (Membership.left (.ofResource object) ended now) p p') :
    Moved (.ofResource object) none (fun _ => none) p p' :=
  B.moved assigns_removed assigns_released (.inr ⟨rfl, rfl⟩)

/-- The namespace of a pod that an event is about has no colon. -/
def HasPlainNamespace (e : ResourceEvent) : Prop :=
  ∀ pod, e.pod? = some pod → ':' ∉ (PodMember.ofResource pod).namespaceName.toList

/-- The groups follow an event that was handled well. -/
theorem Follows.handle {pods : CurrentPods} (F : Follows p₀ pods p)
    (hlabels : p.settings.reconciler.policies.labelGroups) (he : HasPlainNamespace e)
    (hok : (p.handle e).1.isOk) :
    Follows p₀ (pods.after p.settings.reconciler.policies e) (p.handle e).2 := by
  obtain ⟨object, -, -, h | h | h⟩ := handle_cases F.orderly hok
  · obtain ⟨hpod, happlies, bytes, -, B⟩ := h
    simp only [CurrentPods.after, hpod, happlies, if_true]
    exact F.moved (he object hpod) (moved_of_joined hlabels B)
  · obtain ⟨hpod, happlies, hpurges, B⟩ := h
    simp only [CurrentPods.after, hpod, happlies, hpurges, if_true, Bool.false_eq_true, if_false]
    exact F.moved (he object hpod) (moved_of_left B)
  · obtain ⟨hstays, B⟩ := h
    rw [CurrentPods.after_of_neither hstays]
    exact F.congr B.orderly B.spec?_eq

/-- What may happen between two events: others may set the clock, order failures of the
store, or use the buffer. The settings and the groups stay. -/
structure Between (p p' : Pipeline) : Prop where
  settings : p'.settings = p.settings
  records : p.store.memory.SameRecords p'.store.memory
  honest : p'.store.Honest

theorem Between.spec?_eq (h : Between p p') (name : String) : p'.spec? name = p.spec? name := by
  rw [spec?, spec?, group?, group?, h.records.groups_eq]

theorem Between.orderly (h : Between p p') (hp : Orderly p) : Orderly p' :=
  ⟨hp.sound.sameRecords h.records, h.honest⟩

/-- The pipelines after a history of events, each of which was handled well. -/
inductive Handled (p₀ : Pipeline) : List ResourceEvent → Pipeline → Prop where
  | start : Handled p₀ [] p₀
  | between {events : List ResourceEvent} {p p' : Pipeline} (h : Handled p₀ events p)
      (hb : Between p p') : Handled p₀ events p'
  | handle {events : List ResourceEvent} {p : Pipeline} (h : Handled p₀ events p)
      (e : ResourceEvent) (hok : (p.handle e).1.isOk) : Handled p₀ (events ++ [e]) (p.handle e).2

theorem Handled.settings_eq (h : Handled p₀ events p) : p.settings = p₀.settings := by
  induction h with
  | start => rfl
  | between _ hb ih => exact hb.settings.trans ih
  | handle _ e hok ih => exact (handle_settings _ e).trans ih

/-- No group has a member. -/
def NoMembers (p : Pipeline) : Prop := ∀ name s, p.spec? name = some s → s.members = .empty

theorem noMembers_of_entries
    (h : ∀ e ∈ p.store.memory.groups.entries, e.2.spec.members = .empty) : NoMembers p := by
  intro name s hs
  obtain ⟨g, hg, rfl⟩ := Option.map_eq_some_iff.mp hs
  exact h (name, g) ((KeyMap.mem_entries_iff _ name g).mpr hg)

theorem follows_start (h : Orderly p₀) (hempty : NoMembers p₀) : Follows p₀ .none p₀ where
  orderly := h
  selector _ s₀ hs₀ := ⟨s₀, hs₀, rfl, rfl⟩
  namespaces ns hns := by
    refine ⟨hns, fun name => ?_⟩
    rw [members]
    cases hs : p₀.spec? (namespaceGroupName ns) with
    | none => rfl
    | some s =>
      rw [Option.map_some, hempty _ s hs]
      rfl
  selecting name s hs _ _ key metric := by
    rw [hempty name s hs]
    constructor
    · intro h
      cases h
    · rintro ⟨_, _, _, _, hpod, _⟩
      cases hpod
  apart _ _ _ hpod := nomatch hpod

/-- By induction on the history. -/
theorem Handled.follows (h : Handled p₀ events p) (hstart : Orderly p₀) (hempty : NoMembers p₀)
    (hlabels : p₀.settings.reconciler.policies.labelGroups)
    (hevents : ∀ e ∈ events, HasPlainNamespace e) :
    Follows p₀ (currentPods p₀.settings.reconciler.policies events) p := by
  induction h with
  | start => exact follows_start hstart hempty
  | between _ hb ih =>
    have F := ih hevents
    exact F.congr (hb.orderly F.orderly) hb.spec?_eq
  | @handle events p h e hok ih =>
    have F := ih fun e' he' => hevents e' (List.mem_append_left _ he')
    have hsettings := h.settings_eq
    rw [currentPods_append, ← hsettings]
    rw [← hsettings] at hlabels F
    exact F.handle hlabels (hevents e (List.mem_append_right _ (List.mem_singleton_self e))) hok

/-- Whatever the history and the policies are, and whichever calls of the store fail on the
way: the group of a namespace has exactly its current pods as members, by name; a group
that selects by labels has exactly the current pods that it selects, by namespace and name;
and each of them has the metric of the object that counts for its pod. The groups from the
beginning stay with their selectors, and events about other things than pods leave the
store as it is. -/
theorem members_follow_history (h : Handled p₀ events p) (hstore : p₀.store.memory.Reachable)
    (hscript : p₀.store.Honest) (hempty : NoMembers p₀)
    (hlabels : p₀.settings.reconciler.policies.labelGroups = true)
    (hevents : ∀ e ∈ events, HasPlainNamespace e) :
    let pods := currentPods p₀.settings.reconciler.policies events
    (∀ ns, p₀.IsNamespaceGroup ns → ∀ name,
        (p.members (namespaceGroupName ns)).get? name = (pods ns name).map Resource.metric) ∧
      (∀ name s, p.spec? name = some s → s.type ≠ .byNamespace →
        (∀ ns, name ≠ namespaceGroupName ns) →
          ∀ key metric, s.members.get? key = some metric ↔ Selected pods s key metric) ∧
      (∀ name s₀, p₀.spec? name = some s₀ → ∃ s, p.spec? name = some s ∧ SameSelector s₀ s) ∧
      ∀ e, e.pod? = none → (p.handle e).2.store = p.store := by
  intro pods
  have F : Follows p₀ pods p := h.follows ⟨hstore.sound, hscript⟩ hempty hlabels hevents
  refine ⟨?_, F.selecting, F.selector, fun e he => handle_store_of_no_pod p he⟩
  intro ns hns
  exact (F.namespaces ns hns).2

/-! ## A shop -/

/-- A pod of the namespace `shop`, labelled with its tier. -/
def shopPod (name tier : String) : Resource where
  metadata :=
    { name := some name, namespaceName := some "shop", labels := some (.ofList [("tier", tier)]) }
  content := .pod none none

/-- A group that selects the pods of a tier. -/
def tierGroup (tier : String) : StoredGroup :=
  .new ("tier-" ++ tier)
    { GroupSpec.new ("tier-" ++ tier) .byLabel with labels := .ofList [("tier", tier)] }

/-- A pipeline that recomputes updates, with groups for two tiers. -/
def shopStart : Pipeline :=
  { Pipeline.new { reconciler := { policies := { updatePolicy := .recompute } } } ⟨1700000000, 0⟩ with
    store.memory :=
      (MemoryStore.answer (.create (tierGroup "web"))
        (MemoryStore.answer (.create (tierGroup "db")) {}).2).2 }

/-- A pod is created. -/
def shopCreated : ResourceEvent := .new .create (shopPod "web-0" "web") ⟨1700000000, 0⟩

/-- The pod changes its tier. -/
def shopRelabelled : ResourceEvent := .new .update (shopPod "web-0" "db") ⟨1700000000, 0⟩

/-- A stored group with a member since the creation of the pod. -/
def withPod (g : StoredGroup) (key version : String) : StoredGroup where
  metadata := { g.metadata with resourceVersion := some version }
  spec :=
    g.spec.upsertMember key { metric := .zero, storageBytes := 0, started := ⟨1700000000, 0⟩ }

/-- The pipeline after the creation, when the next call of the store is to fail and the next
replacement is to conflict. -/
def shopMiddle : Pipeline :=
  let groups :=
    shopStart.store.memory.groups
      |>.insert "ns-shop" (withPod (.new "ns-shop" (.new "ns-shop" .byNamespace)) "web-0" "4")
      |>.insert "tier-web" (withPod (tierGroup "web") "shop:web-0" "5")
  { shopStart with
    store.memory := { groups, version := 5, writes := 5, pendingFailures := 1, pendingConflicts := 1 } }

theorem handled_shop :
    Handled shopStart [shopCreated, shopRelabelled] (shopMiddle.handle shopRelabelled).2 := by
  have hcreated : (shopStart.handle shopCreated).1.isOk := by decide +kernel
  have hbetween : Between (shopStart.handle shopCreated).2 shopMiddle := by
    refine ⟨(handle_settings shopStart shopCreated).symm, ⟨?_, ?_, ?_⟩, fun _ _ h => nomatch h⟩
    all_goals decide +kernel
  have hrelabelled : (shopMiddle.handle shopRelabelled).1.isOk := by decide +kernel
  exact ((Handled.start.handle _ hcreated).between hbetween).handle _ hrelabelled

theorem noMembers_shop : NoMembers shopStart := noMembers_of_entries (by decide +kernel)

theorem hasPlainNamespace_shop : ∀ e ∈ [shopCreated, shopRelabelled], HasPlainNamespace e := by
  have hnames : ∀ e ∈ [shopCreated, shopRelabelled],
      ∀ ns ∈ e.pod?.map fun pod => (PodMember.ofResource pod).namespaceName, ':' ∉ ns.toList := by
    decide +kernel
  intro e he pod hpod
  exact hnames e he _ (Option.mem_map_of_mem _ hpod)

theorem tier_ne_namespaceGroupName (tier ns : String) : "tier-" ++ tier ≠ namespaceGroupName ns := by
  intro h
  have hlist := congrArg String.toList h
  simp only [namespaceGroupName, String.toList_append] at hlist
  cases hlist

/-- There is one pod at the end, with its new tier. -/
theorem currentPods_shop {ns name : String} {pod : Resource}
    (hpod : currentPods shopStart.settings.reconciler.policies [shopCreated, shopRelabelled] ns name =
      some pod) : pod = shopPod "web-0" "db" := by
  change CurrentPods.set (CurrentPods.set .none _ _) _ (some (shopPod "web-0" "db")) ns name =
    some pod at hpod
  simp only [CurrentPods.set, CurrentPods.none] at hpod
  split at hpod
  next => exact (Option.some_inj.mp hpod).symm
  next hother =>
    split at hpod
    next hsame => exact absurd hsame hother
    next => cases hpod

theorem shop_follows_history :
    let p := (shopMiddle.handle shopRelabelled).2
    (Handled shopStart [shopCreated, shopRelabelled] p ∧ shopStart.store.memory.Reachable ∧
      shopStart.store.Honest ∧ NoMembers shopStart ∧
      ∀ e ∈ [shopCreated, shopRelabelled], HasPlainNamespace e) ∧
    (p.members "ns-shop").get? "web-0" = some .zero ∧
    (∃ s, p.spec? "tier-web" = some s ∧ s.members.get? "shop:web-0" = none) ∧
    ∃ s, p.spec? "tier-db" = some s ∧ s.members.get? "shop:web-0" = some .zero := by
  intro p
  have hstore : shopStart.store.memory.Reachable := .answer _ (.answer _ (.empty []))
  have hscript : shopStart.store.Honest := fun _ _ h => nomatch h
  obtain ⟨hnamespaces, hselecting, hselector, -⟩ := members_follow_history handled_shop hstore
    hscript noMembers_shop rfl hasPlainNamespace_shop
  have hmissing : shopStart.spec? (namespaceGroupName "shop") = none := by decide +kernel
  have hshop : shopStart.IsNamespaceGroup "shop" := by
    intro s hs
    rw [hmissing] at hs
    cases hs
  refine ⟨⟨handled_shop, hstore, hscript, noMembers_shop, hasPlainNamespace_shop⟩, ?_, ?_, ?_⟩
  · exact hnamespaces "shop" hshop "web-0"
  · obtain ⟨s, hs, hsame⟩ := hselector "tier-web" (tierGroup "web").spec (by decide +kernel)
    have htype : s.type ≠ .byNamespace := hsame.1 ▸ by decide
    refine ⟨s, hs, Option.eq_none_iff_forall_ne_some.mpr fun metric hmetric => ?_⟩
    obtain ⟨ns, name, pod, -, hpod, hselects, -⟩ :=
      (hselecting "tier-web" s hs htype (tier_ne_namespaceGroupName "web") _ metric).mp hmetric
    rw [currentPods_shop hpod, hsame.selects_eq] at hselects
    exact absurd hselects (by decide)
  · obtain ⟨s, hs, hsame⟩ := hselector "tier-db" (tierGroup "db").spec (by decide +kernel)
    have htype : s.type ≠ .byNamespace := hsame.1 ▸ by decide
    refine ⟨s, hs, (hselecting "tier-db" s hs htype (tier_ne_namespaceGroupName "db") _ _).mpr ?_⟩
    refine ⟨"shop", "web-0", shopPod "web-0" "db", rfl, rfl, ?_, rfl⟩
    rw [hsame.selects_eq]
    decide

end Pipeline

end Chargeback
