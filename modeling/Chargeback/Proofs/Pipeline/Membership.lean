import Chargeback.Proofs.Pipeline.Groups

/-!
# Pods join and leave their groups

What comes of it when a pod joins its groups or leaves them, in a pipeline that handles
one event at a time. The groups that select by labels are listed first and changed one
after the other. Each of them is changed once, so that its record is still the listed one
when its turn comes.

## Main definitions

* `Pipeline.Settled`: groups whose records have been changed one after the other.
* `Pipeline.Became`: what has become of all records.
* `Pipeline.join_run`, `Pipeline.leave_run`: what comes of joining and of leaving.
* `Pipeline.Moved`: what that means for the members.
-/

namespace Chargeback

namespace Pipeline

variable {p p' : Pipeline} {retry : RetryPolicy}

/-! ## The list of groups -/

/-- The pipelines store the same groups. -/
def SameGroups (p p' : Pipeline) : Prop := p'.store.memory.groups = p.store.memory.groups

/-- The groups that select by labels, as they are stored. -/
def selecting (p : Pipeline) : List StoredGroup :=
  p.store.memory.groups.values.filter fun g => g.spec.type ≠ .byNamespace

/-- All that is asked for is the list of groups, again and again; what it was is noted. -/
def listing : Protocol AggregatorInterface (Option (List StoredGroup)) where
  allows _
    | .store .list => True
    | .pause _ => True
    | _ => False
  after
    | _, .store .list, .ok gs => some gs
    | n, _, _ => n

theorem selectorGroups_obeys :
    (Aggregator.selectorGroups retry).Obeys listing
      (fun n a => ∀ gs, a = .ok gs →
        ∃ all, n = some all ∧ gs = all.filter fun g => g.spec.type ≠ .byNamespace) none := by
  have hallow : ∀ m, True → listing.allows m (.store .list) := fun _ _ => trivial
  have hfail : ∀ (m : Option (List StoredGroup)) (e : StoreError), True → True := fun _ _ h => h
  have hpause : ∀ (m : Option (List StoredGroup)) (k : Nat), True →
      listing.allows m (.pause k) ∧ True := fun _ _ h => ⟨trivial, h⟩
  refine (Aggregator.retryFrom_obeys (p := retry) hallow hfail hpause 1 retry.retries trivial).bind ?_
  rintro m (e | all) ⟨m₀, -, hm⟩
  · intro gs h
    cases h
  · intro gs h
    cases h
    exact ⟨all, hm, rfl⟩

/-- What is noted is the list of the groups that were stored at the beginning, which are
stored still. -/
structure Listed (p : Pipeline) (n : Option (List StoredGroup)) (p' : Pipeline) : Prop where
  orderly : Orderly p'
  now_eq : p'.now = p.now
  same : SameGroups p p'
  noted : ∀ all, n = some all → all = p.store.memory.groups.values

theorem listed_step (n : Option (List StoredGroup)) (r : AggregatorRequest) (p' : Pipeline)
    (hallowed : listing.allows n r) (H : Listed p n p') :
    Listed p (listing.after n r (answerGroup r p').1) (answerGroup r p').2 := by
  have horderly := H.orderly.answerGroup r
  cases r with
  | pause k => exact ⟨horderly, H.now_eq, H.same, H.noted⟩
  | clock => exact hallowed.elim
  | store r =>
    cases r with
    | get name => exact hallowed.elim
    | create g => exact hallowed.elim
    | replace g => exact hallowed.elim
    | list =>
      change Listed p (listing.after n (.store .list) (p'.store.answer .list).1) _
      obtain ⟨-, hcarried | ⟨e, herror, hs⟩⟩ := H.orderly.honest.answer_cases .list
      · generalize (p'.store.answer .list).1 = a at hcarried
        generalize hmemory : (p'.store.answer .list).2.memory = memory at hcarried
        cases hcarried with
        | list =>
          refine ⟨horderly, H.now_eq, (congrArg MemoryStore.groups hmemory).trans H.same, ?_⟩
          intro all hall
          rw [← Option.some_inj.mp hall, H.same]
      · rw [herror]
        exact ⟨horderly, H.now_eq, hs.groups_eq.trans H.same, H.noted⟩

/-- The list of groups is that of the stored ones, and is given without changing them. -/
theorem selectorGroups_run (h : Orderly p) {gs : List StoredGroup}
    (hok : (p.onGroups (Aggregator.selectorGroups retry)).1 = .ok gs) :
    gs = p.selecting ∧ Orderly (p.onGroups (Aggregator.selectorGroups retry)).2 ∧
      (p.onGroups (Aggregator.selectorGroups retry)).2.now = p.now ∧
      SameGroups p (p.onGroups (Aggregator.selectorGroups retry)).2 := by
  obtain ⟨m, hpost, H⟩ := selectorGroups_obeys.run listed_step (s := p) ⟨h, rfl, rfl, nofun⟩
  obtain ⟨all, hm, rfl⟩ := hpost gs hok
  rw [H.noted all hm]
  exact ⟨rfl, H.orderly, H.now_eq, H.same⟩

theorem mem_selecting_iff (h : Orderly p) {g : StoredGroup} :
    g ∈ p.selecting ↔ p.group? g.name = some g ∧ g.spec.type ≠ .byNamespace := by
  rw [selecting, List.mem_filter, decide_eq_true_eq, KeyMap.mem_values_iff]
  refine and_congr_left fun _ => ⟨?_, fun hg => ⟨g.name, hg⟩⟩
  rintro ⟨name, hg⟩
  have hname : g.name = name := h.sound.named hg
  rw [hname]
  exact hg

theorem nodup_selecting (h : Orderly p) : (p.selecting.map StoredGroup.name).Nodup := by
  have hkeys : p.store.memory.groups.values.map StoredGroup.name = p.store.memory.groups.keys := by
    rw [KeyMap.values, KeyMap.keys, List.map_map]
    refine List.map_congr_left fun e he => ?_
    exact h.sound.named ((KeyMap.mem_entries_iff _ e.1 e.2).mp he)
  refine List.Nodup.sublist (List.Sublist.map _ List.filter_sublist) ?_
  rw [hkeys]
  exact KeyMap.nodup_keys _

/-! ## One change after the other -/

theorem discard_run {α : Type} {change : GroupProgram (Except AggregateError α)}
    (hok : (p.onGroups (Membership.discard change)).1 = .ok ()) :
    ∃ a, (p.onGroups change).1 = .ok a ∧
      (p.onGroups (Membership.discard change)).2 = (p.onGroups change).2 := by
  simp only [onGroups, Membership.discard, Program.monad_bind_eq, Program.run_bind] at hok ⊢
  cases hchange : (change.run answerGroup p).1 with
  | ok a => exact ⟨a, rfl, rfl⟩
  | error e => rw [hchange] at hok; cases hok

theorem andThen_run {first second : GroupProgram (Except AggregateError Unit)}
    (hok : (p.onGroups (Membership.andThen first second)).1 = .ok ()) :
    (p.onGroups first).1 = .ok () ∧ ((p.onGroups first).2.onGroups second).1 = .ok () ∧
      (p.onGroups (Membership.andThen first second)).2 = ((p.onGroups first).2.onGroups second).2 := by
  simp only [onGroups, Membership.andThen, Program.monad_bind_eq, Program.run_bind] at hok ⊢
  cases hfirst : (first.run answerGroup p).1 with
  | ok a =>
    rw [hfirst] at hok
    exact ⟨rfl, hok, rfl⟩
  | error e => rw [hfirst] at hok; cases hok

/-- The record of a group has become another one, and nothing else has changed in the
store. -/
structure Wrote (name : String) (s : GroupSpec) (p p' : Pipeline) : Prop where
  orderly : Orderly p'
  now_eq : p'.now = p.now
  others : ∀ other, other ≠ name → p'.group? other = p.group? other
  spec?_eq : p'.spec? name = some s

/-- Groups whose records have been changed; all other groups are as they were. -/
structure Settled (f : GroupSpec → GroupSpec) (gs : List StoredGroup) (p p' : Pipeline) : Prop where
  orderly : Orderly p'
  now_eq : p'.now = p.now
  others : ∀ name, (∀ g ∈ gs, g.name ≠ name) → p'.group? name = p.group? name
  settled : ∀ g ∈ gs, p'.spec? g.name = some (f g.spec)

variable {f : GroupSpec → GroupSpec} {now : Instant}
  {change : StoredGroup → GroupProgram (Except AggregateError Unit)}

/-- By induction on the groups: a change leaves the groups behind its own as they were. -/
theorem inTurn_run (h : Orderly p) (hnow : p.now = now)
    (hchange : ∀ g p, Orderly p → p.now = now → p.group? g.name = some g →
      (p.onGroups (change g)).1 = .ok () → Wrote g.name (f g.spec) p (p.onGroups (change g)).2)
    {gs : List StoredGroup} (hstored : ∀ g ∈ gs, p.group? g.name = some g)
    (hnodup : (gs.map StoredGroup.name).Nodup)
    (hok : (p.onGroups (Membership.inTurn change gs)).1 = .ok ()) :
    Settled f gs p (p.onGroups (Membership.inTurn change gs)).2 := by
  induction gs generalizing p with
  | nil =>
    rw [Membership.inTurn]
    exact ⟨h, rfl, fun _ _ => rfl, fun g hg => nomatch hg⟩
  | cons g rest ih =>
    rw [Membership.inTurn] at hok ⊢
    obtain ⟨hfirst, hrest, hend⟩ := andThen_run hok
    have W := hchange g p h hnow (hstored g List.mem_cons_self) hfirst
    rw [List.map_cons, List.nodup_cons] at hnodup
    have hne : ∀ g' ∈ rest, g'.name ≠ g.name := by
      intro g' hg' heq
      exact hnodup.1 (heq ▸ List.mem_map_of_mem hg')
    have hstill : ∀ g' ∈ rest, (p.onGroups (change g)).2.group? g'.name = some g' := by
      intro g' hg'
      rw [W.others g'.name (hne g' hg')]
      exact hstored g' (List.mem_cons_of_mem g hg')
    have S := ih W.orderly (W.now_eq.trans hnow) hstill hnodup.2 hrest
    rw [hend]
    refine ⟨S.orderly, S.now_eq.trans W.now_eq, ?_, ?_⟩
    · intro name hname
      rw [S.others name fun g' hg' => hname g' (List.mem_cons_of_mem g hg')]
      exact W.others name (hname g List.mem_cons_self).symm
    · intro g' hg'
      rcases List.mem_cons.mp hg' with rfl | hg'
      · rw [spec?, S.others g'.name hne]
        exact W.spec?_eq
      · exact S.settled g' hg'

theorem inSelectorGroups_run (h : Orderly p) (hnow : p.now = now)
    (hchange : ∀ g p, Orderly p → p.now = now → p.group? g.name = some g →
      (p.onGroups (change g)).1 = .ok () → Wrote g.name (f g.spec) p (p.onGroups (change g)).2)
    (hok : (p.onGroups (Membership.inSelectorGroups retry change)).1 = .ok ()) :
    Settled f p.selecting p (p.onGroups (Membership.inSelectorGroups retry change)).2 := by
  simp only [onGroups, Membership.inSelectorGroups, Program.monad_bind_eq, Program.run_bind]
    at hok ⊢
  cases hlist : ((Aggregator.selectorGroups retry).run answerGroup p).1 with
  | error e => rw [hlist] at hok; cases hok
  | ok gs =>
    rw [hlist] at hok
    obtain ⟨rfl, horderly, hlisted, hsame⟩ := selectorGroups_run h hlist
    have hgroup (name : String) :
        (p.onGroups (Aggregator.selectorGroups retry)).2.group? name = p.group? name :=
      congrArg (KeyMap.get? · name) hsame
    have S := inTurn_run horderly (hlisted.trans hnow) hchange
      (fun g hg => (hgroup g.name).trans ((mem_selecting_iff h).mp hg).1) (nodup_selecting h) hok
    exact ⟨S.orderly, S.now_eq.trans hlisted,
      fun name hname => (S.others name hname).trans (hgroup name), S.settled⟩

/-! ## Joining and leaving -/

variable {pod : PodMember} {usage : MemberUsage} {observed ended : Instant} {g : StoredGroup}

theorem Rewritten.wrote {createAs : Option GroupType} (h : p.group? g.name = some g)
    (R : Rewritten g.name createAs f p p') :
    Wrote g.name ((f g.spec).pruneActivity (Month.start p.now)) p p' := by
  refine ⟨R.orderly, R.now_eq, R.others, ?_⟩
  rw [R.spec?_eq, spec?_of_group? h]
  rfl

/-- Nothing has to be done for a record that stays what it is. -/
theorem wrote_same (h : Orderly p) (hg : p.group? g.name = some g) : Wrote g.name g.spec p p :=
  ⟨h, rfl, fun _ _ => rfl, spec?_of_group? hg⟩

theorem settle_run (h : Orderly p) (hg : p.group? g.name = some g)
    (hok : (p.onGroups (Membership.settle retry pod usage observed g)).1 = .ok ()) :
    Wrote g.name (g.spec.settled pod usage observed p.now) p
      (p.onGroups (Membership.settle retry pod usage observed g)).2 := by
  rw [Membership.settle] at hok ⊢
  rw [GroupSpec.settled]
  by_cases hselects : g.spec.selects pod.labels
  · rw [if_pos hselects] at hok ⊢
    rw [if_pos hselects]
    obtain ⟨a, hupsert, hend⟩ := discard_run hok
    rw [hend]
    exact (upsert_run h hupsert).wrote hg
  · rw [if_neg hselects] at hok ⊢
    rw [if_neg hselects]
    by_cases hmember : g.spec.hasMember pod.selectorKey
    · rw [if_pos hmember] at hok ⊢
      rw [if_pos hmember]
      obtain ⟨a, hremove, hend⟩ := discard_run hok
      rw [hend]
      exact (remove_run h hremove).wrote hg
    · rw [if_neg hmember, if_neg hmember]
      exact wrote_same h hg

theorem release_run (h : Orderly p) (hg : p.group? g.name = some g)
    (hok : (p.onGroups (Membership.release retry pod ended g)).1 = .ok ()) :
    Wrote g.name (g.spec.released pod ended p.now) p
      (p.onGroups (Membership.release retry pod ended g)).2 := by
  rw [Membership.release] at hok ⊢
  rw [GroupSpec.released]
  by_cases hmember : g.spec.hasMember pod.selectorKey
  · rw [if_pos hmember] at hok ⊢
    rw [if_pos hmember]
    obtain ⟨a, hremove, hend⟩ := discard_run hok
    rw [hend]
    exact (remove_run h hremove).wrote hg
  · rw [if_neg hmember, if_neg hmember]
    exact wrote_same h hg

/-- What has become of the records, each of them by itself. -/
structure Became (f : String → Option GroupSpec → Option GroupSpec) (p p' : Pipeline) : Prop where
  orderly : Orderly p'
  now_eq : p'.now = p.now
  spec?_eq : ∀ name, p'.spec? name = f name (p.spec? name)

theorem spec?_congr {name : String} (h : p'.group? name = p.group? name) :
    p'.spec? name = p.spec? name := by
  rw [spec?, spec?, h]

/-- All records that select by labels have been changed, and no others. -/
theorem Settled.spec?_eq (h : Orderly p) (S : Settled f p.selecting p p') (name : String) :
    p'.spec? name = (p.spec? name).map (Membership.inSelecting f) := by
  cases hg : p.group? name with
  | none =>
    have hother : p'.group? name = p.group? name := by
      refine S.others name fun g hgs heq => ?_
      rw [← heq, ((mem_selecting_iff h).mp hgs).1] at hg
      cases hg
    rw [spec?_congr hother, spec?, hg]
    rfl
  | some g =>
    have hname : g.name = name := h.sound.named hg
    rw [spec?_of_group? hg, Option.map_some, Membership.inSelecting]
    split
    next htype =>
      have hother : p'.group? name = p.group? name := by
        refine S.others name fun g' hgs heq => ?_
        obtain ⟨hg', htype'⟩ := (mem_selecting_iff h).mp hgs
        rw [heq, hg] at hg'
        cases hg'
        exact htype' htype
      rw [spec?_congr hother, spec?_of_group? hg]
    next htype =>
      have hmem : g ∈ p.selecting := (mem_selecting_iff h).mpr ⟨hname ▸ hg, htype⟩
      rw [← hname]
      exact S.settled g hmem

/-- First the record of a namespace has been rewritten, and then all that select by labels
have been changed. -/
theorem became_moved {group : String} {createAs : Option GroupType}
    {change : GroupSpec → GroupSpec} {m : Pipeline} (R : Rewritten group createAs change p m)
    (S : Settled f m.selecting m p') :
    Became (Membership.moved group createAs
      (fun s => (change s).pruneActivity (Month.start p.now)) f) p p' := by
  refine ⟨S.orderly, S.now_eq.trans R.now_eq, fun name => ?_⟩
  rw [S.spec?_eq R.orderly, Membership.moved]
  split
  next heq => rw [heq, R.spec?_eq]
  next hne => rw [spec?_congr (R.others name hne)]

/-- A pod that joins its groups. -/
theorem join_run (h : Orderly p) {labelGroups : Bool}
    (hok : (p.onGroups (Membership.join retry labelGroups pod usage observed)).1 = .ok ()) :
    Became (Membership.joined labelGroups pod usage observed p.now) p
      (p.onGroups (Membership.join retry labelGroups pod usage observed)).2 := by
  rw [Membership.join] at hok ⊢
  obtain ⟨hfirst, hrest, hend⟩ := andThen_run hok
  obtain ⟨a, hupsert, hmiddle⟩ := discard_run hfirst
  have R := upsert_run h hupsert
  rw [← hmiddle] at R
  rw [hend]
  refine became_moved R ?_
  cases labelGroups with
  | true =>
    simp only [if_true] at hrest ⊢
    refine inSelectorGroups_run R.orderly R.now_eq ?_ hrest
    intro g p' hp' hnow hg hstep
    rw [← hnow]
    exact settle_run hp' hg hstep
  | false =>
    refine ⟨R.orderly, rfl, fun _ _ => rfl, fun g hg => ?_⟩
    exact spec?_of_group? ((mem_selecting_iff R.orderly).mp hg).1

/-- A pod that leaves its groups. -/
theorem leave_run (h : Orderly p)
    (hok : (p.onGroups (Membership.leave retry pod ended)).1 = .ok ()) :
    Became (Membership.left pod ended p.now) p
      (p.onGroups (Membership.leave retry pod ended)).2 := by
  rw [Membership.leave] at hok ⊢
  obtain ⟨hfirst, hrest, hend⟩ := andThen_run hok
  obtain ⟨a, hremove, hmiddle⟩ := discard_run hfirst
  have R := remove_run h hremove
  rw [← hmiddle] at R
  rw [hend]
  refine became_moved R (inSelectorGroups_run R.orderly R.now_eq ?_ hrest)
  intro g p' hp' hnow hg hstep
  rw [← hnow]
  exact release_run hp' hg hstep

/-! ## Members -/

/-- The record selects by the same labels. -/
def SameSelector (s s' : GroupSpec) : Prop := s'.type = s.type ∧ s'.labels = s.labels

theorem SameSelector.selects_eq {s s' : GroupSpec} (h : SameSelector s s') (labels : KeyMap String) :
    s'.selects labels = s.selects labels := by
  rw [GroupSpec.selects, GroupSpec.selects, h.1, h.2]

theorem SameSelector.trans {s s' s'' : GroupSpec} (h : SameSelector s s') (h' : SameSelector s' s'') :
    SameSelector s s'' :=
  ⟨h'.1.trans h.1, h'.2.trans h.2⟩

/-- The group of a namespace, if there is one, does not select by labels. -/
def IsNamespaceGroup (p : Pipeline) (ns : String) : Prop :=
  ∀ s, p.spec? (namespaceGroupName ns) = some s → s.type = .byNamespace

/-- What comes of joining the groups, or of leaving them: in the group of the pod's
namespace its name has been given a metric, or has been taken out; and then its key in the
groups that select by labels. -/
structure Moved (pod : PodMember) (own : Option Metric) (metric : GroupSpec → Option Metric)
    (p p' : Pipeline) : Prop where
  orderly : Orderly p'
  selector : ∀ name s, p.spec? name = some s → ∃ s', p'.spec? name = some s' ∧ SameSelector s s'
  namespaces : ∀ ns, p.IsNamespaceGroup ns → p'.IsNamespaceGroup ns ∧
    ∀ name, (p'.members (namespaceGroupName ns)).get? name =
      if pod.namespaceName = ns ∧ pod.name = name then own
      else (p.members (namespaceGroupName ns)).get? name
  selecting : ∀ name s', p'.spec? name = some s' → s'.type ≠ .byNamespace →
    (∀ ns, name ≠ namespaceGroupName ns) →
      ∃ s, p.spec? name = some s ∧ SameSelector s s' ∧
        ∀ k, s'.members.get? k = if pod.selectorKey = k then metric s else s.members.get? k

theorem namespaceGroupName_injective {a b : String}
    (h : namespaceGroupName a = namespaceGroupName b) : a = b :=
  (String.append_right_inj "ns-").mp h

/-- The change gives one key a metric, or takes it out, and leaves the selector. -/
structure Assigns (f : GroupSpec → GroupSpec) (key : String) (metric : GroupSpec → Option Metric) :
    Prop where
  members : ∀ s k, (f s).members.get? k = if key = k then metric s else s.members.get? k
  selector : ∀ s, SameSelector s (f s)

theorem assigns_upserted {key : String} :
    Assigns (GroupSpec.upserted key usage now) key fun _ => some usage.metric where
  members _ _ := GroupSpec.get?_members_upserted
  selector _ := ⟨rfl, rfl⟩

theorem assigns_removed {key : String} :
    Assigns (GroupSpec.removed key ended now) key fun _ => none where
  members _ _ := GroupSpec.get?_members_removed
  selector _ := ⟨rfl, rfl⟩

theorem assigns_settled :
    Assigns (GroupSpec.settled pod usage observed now) pod.selectorKey
      fun s => if s.selects pod.labels then some usage.metric else none where
  members _ _ := GroupSpec.get?_members_settled
  selector s := by
    rw [GroupSpec.settled]
    split
    next => exact ⟨rfl, rfl⟩
    next => split <;> exact ⟨rfl, rfl⟩

theorem assigns_released :
    Assigns (GroupSpec.released pod ended now) pod.selectorKey fun _ => none where
  members _ _ := GroupSpec.get?_members_released
  selector s := by
    rw [GroupSpec.released]
    split <;> exact ⟨rfl, rfl⟩

section Moved

variable {own : GroupSpec → GroupSpec} {createAs : Option GroupType} {ownMetric : Option Metric}
  {metric : GroupSpec → Option Metric} {name : String}

theorem SameSelector.inSelecting (hf : ∀ s, SameSelector s (f s)) (s : GroupSpec) :
    SameSelector s (Membership.inSelecting f s) := by
  rw [Membership.inSelecting]
  split
  next => exact ⟨rfl, rfl⟩
  next => exact hf s

/-- A record that was there keeps its selector. -/
theorem Became.selector (B : Became (Membership.moved pod.namespaceGroup createAs own f) p p')
    (hown : ∀ s, SameSelector s (own s)) (hf : ∀ s, SameSelector s (f s)) {s : GroupSpec}
    (hs : p.spec? name = some s) : ∃ s', p'.spec? name = some s' ∧ SameSelector s s' := by
  rw [B.spec?_eq, Membership.moved, hs]
  split
  next => exact ⟨_, rfl, (hown s).trans (.inSelecting hf _)⟩
  next => exact ⟨_, rfl, .inSelecting hf s⟩

/-- A record that selects by labels was there before, and has been changed as such records
are; if it has the name of the namespace's group, it has been changed as that before. -/
theorem Became.selecting (B : Became (Membership.moved pod.namespaceGroup createAs own f) p p')
    (hown : ∀ s, SameSelector s (own s)) (hf : ∀ s, SameSelector s (f s))
    (hcreate : ∀ type, createAs = some type → type = .byNamespace) {s' : GroupSpec}
    (hs' : p'.spec? name = some s') (htype : s'.type ≠ .byNamespace) :
    ∃ s, p.spec? name = some s ∧ s' = f (if name = pod.namespaceGroup then own s else s) := by
  rw [B.spec?_eq, Membership.moved] at hs'
  obtain ⟨m, hm, rfl⟩ := Option.map_eq_some_iff.mp hs'
  have hmtype : m.type ≠ .byNamespace := by
    intro h
    exact htype ((SameSelector.inSelecting hf m).1.trans h)
  rw [Membership.inSelecting, if_neg hmtype]
  split at hm
  next hname =>
    obtain ⟨b, hb, rfl⟩ := Option.map_eq_some_iff.mp hm
    cases hs : p.spec? name with
    | some s =>
      rw [hs] at hb
      cases hb
      exact ⟨b, rfl, by rw [if_pos hname]⟩
    | none =>
      -- a record that has just been created is that of a namespace
      rw [hs] at hb
      obtain ⟨type, htype', rfl⟩ := Option.map_eq_some_iff.mp hb
      exact absurd ((hown _).1.trans (hcreate type htype')) hmtype
  next hname => exact ⟨m, hm, by rw [if_neg hname]⟩

/-- The record of a namespace does not select by labels, nor after its own change. -/
theorem Became.namespaceGroup
    (B : Became (Membership.moved pod.namespaceGroup createAs own f) p p')
    (hown : ∀ s, SameSelector s (own s))
    (hcreate : ∀ type, createAs = some type → type = .byNamespace) {ns : String}
    (hns : p.IsNamespaceGroup ns) :
    p'.IsNamespaceGroup ns ∧ p'.spec? (namespaceGroupName ns) =
      if pod.namespaceName = ns then
        (GroupSpec.basis pod.namespaceGroup createAs (p.spec? (namespaceGroupName ns))).map own
      else p.spec? (namespaceGroupName ns) := by
  have hspec := B.spec?_eq (namespaceGroupName ns)
  have hgroup : namespaceGroupName ns = pod.namespaceGroup ↔ pod.namespaceName = ns :=
    ⟨fun h => (namespaceGroupName_injective h).symm, fun h => h ▸ rfl⟩
  simp only [Membership.moved, hgroup] at hspec
  generalize hafter : (if pod.namespaceName = ns then
      (GroupSpec.basis pod.namespaceGroup createAs (p.spec? (namespaceGroupName ns))).map own
    else p.spec? (namespaceGroupName ns)) = after at hspec ⊢
  have hplain : ∀ s, after = some s → s.type = .byNamespace := by
    intro s hs
    rw [← hafter] at hs
    split at hs
    next =>
      obtain ⟨b, hb, rfl⟩ := Option.map_eq_some_iff.mp hs
      refine (hown b).1.trans ?_
      cases hbefore : p.spec? (namespaceGroupName ns) with
      | some s₀ =>
        rw [hbefore] at hb
        cases hb
        exact hns _ hbefore
      | none =>
        rw [hbefore] at hb
        obtain ⟨type, htype, rfl⟩ := Option.map_eq_some_iff.mp hb
        exact hcreate type htype
    next => exact hns s hs
  have hkept : p'.spec? (namespaceGroupName ns) = after := by
    rw [hspec]
    cases after with
    | none => rfl
    | some s => rw [Option.map_some, Membership.inSelecting, if_pos (hplain s rfl)]
  exact ⟨fun s hs => hplain s (hkept ▸ hs), hkept⟩

/-- What has become of the records, seen by their members. -/
theorem Became.moved (B : Became (Membership.moved pod.namespaceGroup createAs own f) p p')
    (hown : Assigns own pod.name fun _ => ownMetric) (hf : Assigns f pod.selectorKey metric)
    (hcreate : createAs = some .byNamespace ∨ createAs = none ∧ ownMetric = none) :
    Moved pod ownMetric metric p p' := by
  have hplain : ∀ type, createAs = some type → type = .byNamespace := by
    intro type htype
    rcases hcreate with h | ⟨h, -⟩
    · rw [h] at htype
      cases htype
      rfl
    · rw [h] at htype
      cases htype
  refine ⟨B.orderly, fun name s hs => B.selector hown.selector hf.selector hs, ?_, ?_⟩
  · intro ns hns
    obtain ⟨hkept, hspec⟩ := B.namespaceGroup hown.selector hplain hns
    refine ⟨hkept, fun name => ?_⟩
    rw [members, members, hspec]
    by_cases hsame : pod.namespaceName = ns
    · simp only [hsame, if_true, true_and]
      cases p.spec? (namespaceGroupName ns) with
      | some s => exact hown.members s name
      | none =>
        rcases hcreate with rfl | ⟨rfl, rfl⟩
        · exact hown.members _ name
        · exact (ite_self none).symm
    · simp only [hsame, if_false, false_and]
  · intro name s' hs' htype hname
    obtain ⟨s, hs, rfl⟩ := B.selecting hown.selector hf.selector hplain hs' htype
    have hother : name ≠ pod.namespaceGroup := hname pod.namespaceName
    rw [if_neg hother]
    exact ⟨s, hs, hf.selector s, hf.members s⟩

end Moved

end Pipeline

end Chargeback
