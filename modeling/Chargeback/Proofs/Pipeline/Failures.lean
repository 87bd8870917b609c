import Chargeback.Proofs.Pipeline.Reads

/-!
# What failed changes leave behind

A change of a group that fails may have created its record, and even changed it: nobody knows.
A pod that joins its groups, or leaves them, changes one group after the other, and the first
failure ends it: some groups have been changed then, and the others have not. But what has been
changed is on the way to where the whole leads. Made again from there, it would lead to the same
records.

## Main definitions

* `Pipeline.Tried`: a change that may have failed.
* `Pipeline.HalfSettled`: some groups out of a list have been changed.
* `Pipeline.Toward`: the records are still on the way to where they are to get.
* `Pipeline.join_toward`, `Pipeline.leave_toward`: joining and leaving, however they end.
-/

namespace Chargeback

namespace Pipeline

open GroupSpec (basis)

variable {p p' m : Pipeline} {retry : RetryPolicy} {name group : String}
  {createAs : Option GroupType} {change f : GroupSpec → GroupSpec} {n : ChangeNote}

/-! ## Changes that may have failed -/

/-- What a change leaves behind, whether it has succeeded or not: the record is what it was,
or has been created, or has been changed. -/
structure Tried (name : String) (createAs : Option GroupType) (change : GroupSpec → GroupSpec)
    (p p' : Pipeline) : Prop where
  orderly : Orderly p'
  now_eq : p'.now = p.now
  others : ∀ other, other ≠ name → p'.group? other = p.group? other
  spec?_cases : p'.spec? name = p.spec? name ∨
    p'.spec? name = basis name createAs (p.spec? name) ∨
    p'.spec? name = (basis name createAs (p.spec? name)).map
      fun s => (change s).pruneActivity (Month.start p.now)

theorem Alone.tried (H : Alone name createAs change p n p') : Tried name createAs change p p' := by
  refine ⟨H.orderly, H.now_eq, H.others, ?_⟩
  by_cases hn : n.written = 0
  · rcases H.unwritten hn with h | h
    · exact .inl h
    · exact .inr (.inl h)
  · obtain ⟨s, hbasis, hs⟩ := H.written hn
    rw [hbasis]
    exact .inr (.inr hs)

theorem upsert_tried (h : Orderly p) {type : GroupType} {key : String} {usage : MemberUsage} :
    Tried name (some type) (·.upsertMember key usage) p
      (p.onGroups (Aggregator.upsert retry name type key usage)).2 := by
  obtain ⟨n, -, H⟩ := alone_run h (Aggregator.upsert_obeys (p := retry) (n := {}) rfl)
  exact H.tried

theorem remove_tried (h : Orderly p) {key : String} {ended : Instant} :
    Tried name none (·.removeMember key ended) p
      (p.onGroups (Aggregator.remove retry name key ended)).2 := by
  obtain ⟨n, -, H⟩ := alone_run h (Aggregator.remove_obeys (p := retry) (n := {}) rfl)
  exact H.tried

/-- Groups some of whose records may have been changed; all other groups are as they were. -/
structure HalfSettled (f : GroupSpec → GroupSpec) (gs : List StoredGroup) (p p' : Pipeline) :
    Prop where
  orderly : Orderly p'
  now_eq : p'.now = p.now
  others : ∀ name, (∀ g ∈ gs, g.name ≠ name) → p'.group? name = p.group? name
  settled : ∀ g ∈ gs, p'.spec? g.name = some g.spec ∨ p'.spec? g.name = some (f g.spec)

/-- Nothing has been written. -/
theorem Looked.halfSettled (h : Looked p p') {gs : List StoredGroup}
    (hstored : ∀ g ∈ gs, p.group? g.name = some g) : HalfSettled f gs p p' where
  orderly := h.orderly
  now_eq := h.now_eq
  others name _ := h.group?_eq name
  settled g hg := .inl (spec?_of_group? ((h.group?_eq g.name).trans (hstored g hg)))

variable {g : StoredGroup} {step : StoredGroup → GroupProgram (Except AggregateError Unit)}

/-- One group at a time. -/
theorem HalfSettled.cons {rest : List StoredGroup} (H : HalfSettled f [g] p m)
    (H' : HalfSettled f rest m p') (hne : ∀ g' ∈ rest, g'.name ≠ g.name) :
    HalfSettled f (g :: rest) p p' := by
  refine ⟨H'.orderly, H'.now_eq.trans H.now_eq, fun name hname => ?_, fun g' hg' => ?_⟩
  · rw [H'.others name fun g' hg' => hname g' (List.mem_cons_of_mem g hg')]
    exact H.others name fun g' hg' => hname g' (List.mem_singleton.mp hg' ▸ List.mem_cons_self)
  · rcases List.mem_cons.mp hg' with rfl | hg'
    · rw [spec?_congr (H'.others g'.name hne)]
      exact H.settled g' (List.mem_singleton_self g')
    · exact H'.settled g' hg'

theorem Tried.halfSettled (T : Tried g.name createAs change p p') (hg : p.group? g.name = some g)
    (hf : f g.spec = (change g.spec).pruneActivity (Month.start p.now)) :
    HalfSettled f [g] p p' := by
  refine ⟨T.orderly, T.now_eq, fun name hname => T.others name (hname g (.head _)).symm, ?_⟩
  intro g' hg'
  obtain rfl := List.mem_singleton.mp hg'
  have hspec := T.spec?_cases
  rw [spec?_of_group? hg] at hspec
  rw [hf]
  rcases hspec with h | h | h
  · exact .inl h
  · exact .inl h
  · exact .inr h

/-- By induction on the groups. A failure leaves the groups behind its own as they were. -/
theorem inTurn_halfSettled {now : Instant} (h : Orderly p) (hnow : p.now = now)
    (hstep : ∀ g p, Orderly p → p.now = now → p.group? g.name = some g →
      HalfSettled f [g] p (p.onGroups (step g)).2)
    {gs : List StoredGroup} (hstored : ∀ g ∈ gs, p.group? g.name = some g)
    (hnodup : (gs.map StoredGroup.name).Nodup) :
    HalfSettled f gs p (p.onGroups (Membership.inTurn step gs)).2 := by
  induction gs generalizing p with
  | nil => exact (Looked.refl h).halfSettled hstored
  | cons g rest ih =>
    rw [Membership.inTurn]
    have H := hstep g p h hnow (hstored g List.mem_cons_self)
    rw [List.map_cons, List.nodup_cons] at hnodup
    have hne : ∀ g' ∈ rest, g'.name ≠ g.name := by
      intro g' hg' heq
      exact hnodup.1 (heq ▸ List.mem_map_of_mem hg')
    have hstill : ∀ g' ∈ rest, (p.onGroups (step g)).2.group? g'.name = some g' := by
      intro g' hg'
      rw [H.others g'.name fun g'' hg'' heq => hne g' hg' (List.mem_singleton.mp hg'' ▸ heq.symm)]
      exact hstored g' (List.mem_cons_of_mem g hg')
    refine H.cons ?_ hne
    rcases andThen_cases p (step g) (Membership.inTurn step rest) with hend | ⟨-, hend⟩
    · rw [hend]
      exact (Looked.refl H.orderly).halfSettled hstill
    · rw [hend]
      exact ih H.orderly (H.now_eq.trans hnow) hstill hnodup.2

theorem inSelectorGroups_halfSettled (h : Orderly p)
    (hstep : ∀ g q, Orderly q → q.now = p.now → q.group? g.name = some g →
      HalfSettled f [g] q (q.onGroups (step g)).2) :
    HalfSettled f p.selecting p (p.onGroups (Membership.inSelectorGroups retry step)).2 := by
  have F := selectorGroups_finds retry h
  have hstored : ∀ g ∈ p.selecting, p.group? g.name = some g :=
    fun g hg => ((mem_selecting_iff h).mp hg).1
  rw [Membership.inSelectorGroups, Program.monad_bind_eq, onGroups_bind]
  generalize p.onGroups (Aggregator.selectorGroups retry) = run at F ⊢
  obtain ⟨e | gs, p₁⟩ := run
  · exact F.looked.halfSettled hstored
  · obtain rfl := F.eq_of_ok gs rfl
    have hgroup := F.looked.group?_eq
    have H := inTurn_halfSettled F.looked.orderly F.looked.now_eq hstep
      (fun g hg => (hgroup g.name).trans (hstored g hg)) (nodup_selecting h)
    exact ⟨H.orderly, H.now_eq.trans F.looked.now_eq,
      fun name hname => (H.others name hname).trans (hgroup name), H.settled⟩

/-- Every record that selects by labels may have been changed, and no other one. -/
theorem HalfSettled.spec?_cases (h : Orderly p) (H : HalfSettled f p.selecting p p')
    (name : String) : p'.spec? name = p.spec? name ∨
      p'.spec? name = (p.spec? name).map (Membership.inSelecting f) := by
  by_cases hmem : ∃ g ∈ p.selecting, g.name = name
  · obtain ⟨g, hg, rfl⟩ := hmem
    obtain ⟨hstored, htype⟩ := (mem_selecting_iff h).mp hg
    rw [spec?_of_group? hstored, Option.map_some, Membership.inSelecting_of_ne htype]
    exact H.settled g hg
  · exact .inl (spec?_congr (H.others name fun g hg heq => hmem ⟨g, hg, heq⟩))

variable {pod : PodMember} {usage : MemberUsage} {observed ended : Instant}

theorem settle_halfSettled (h : Orderly p) (hg : p.group? g.name = some g) :
    HalfSettled (GroupSpec.settled pod usage observed p.now) [g] p
      (p.onGroups (Membership.settle retry pod usage observed g)).2 := by
  rw [Membership.settle]
  by_cases hselects : g.spec.selects pod.labels
  · rw [if_pos hselects, onGroups_discard]
    refine (upsert_tried h).halfSettled hg ?_
    rw [GroupSpec.settled, if_pos hselects]
    rfl
  · rw [if_neg hselects]
    by_cases hmember : g.spec.hasMember pod.selectorKey
    · rw [if_pos hmember, onGroups_discard]
      refine (remove_tried h).halfSettled hg ?_
      rw [GroupSpec.settled, if_neg hselects, if_pos hmember]
      rfl
    · rw [if_neg hmember]
      exact (Looked.refl h).halfSettled fun g' hg' => List.mem_singleton.mp hg' ▸ hg

theorem release_halfSettled (h : Orderly p) (hg : p.group? g.name = some g) :
    HalfSettled (GroupSpec.released pod ended p.now) [g] p
      (p.onGroups (Membership.release retry pod ended g)).2 := by
  rw [Membership.release]
  by_cases hmember : g.spec.hasMember pod.selectorKey
  · rw [if_pos hmember, onGroups_discard]
    refine (remove_tried h).halfSettled hg ?_
    rw [GroupSpec.released, if_pos hmember]
    rfl
  · rw [if_neg hmember]
    exact (Looked.refl h).halfSettled fun g' hg' => List.mem_singleton.mp hg' ▸ hg

/-! ## On the way -/

/-- The records are still on the way to where they are to get. -/
structure Toward (goal : String → Option GroupSpec → Option GroupSpec) (p p' : Pipeline) :
    Prop where
  orderly : Orderly p'
  now_eq : p'.now = p.now
  goal_eq : ∀ name, goal name (p'.spec? name) = goal name (p.spec? name)

theorem Looked.toward (h : Looked p p') (goal : String → Option GroupSpec → Option GroupSpec) :
    Toward goal p p' :=
  ⟨h.orderly, h.now_eq, fun name => by rw [spec?_congr (h.group?_eq name)]⟩

/-- After the change of the namespace's record, whatever came of it. -/
theorem Tried.toward (R : Membership.Repeatable
      (fun s => (change s).pruneActivity (Month.start p.now)) (Membership.inSelecting f))
    (T : Tried group createAs change p p') :
    Toward (Membership.moved group createAs
      (fun s => (change s).pruneActivity (Month.start p.now)) f) p p' := by
  refine ⟨T.orderly, T.now_eq, fun name => ?_⟩
  by_cases hname : name = group
  · subst hname
    rcases T.spec?_cases with h | h | h
    · rw [h]
    · rw [h, Membership.moved_basis]
    · rw [h, ← Membership.entered_self, R.moved_entered]
  · rw [spec?_congr (T.others name hname)]

/-- After the namespace's record has been changed, and some of those that select by labels. -/
theorem Rewritten.toward (R : Membership.Repeatable
      (fun s => (change s).pruneActivity (Month.start p.now)) (Membership.inSelecting f))
    (W : Rewritten group createAs change p m) (H : HalfSettled f m.selecting m p') :
    Toward (Membership.moved group createAs
      (fun s => (change s).pruneActivity (Month.start p.now)) f) p p' := by
  refine ⟨H.orderly, H.now_eq.trans W.now_eq, fun name => ?_⟩
  have hentered : m.spec? name = Membership.entered group createAs
      (fun s => (change s).pruneActivity (Month.start p.now)) name (p.spec? name) := by
    by_cases hname : name = group
    · subst hname
      rw [Membership.entered_self]
      exact W.spec?_eq
    · rw [Membership.entered_of_ne hname, spec?_congr (W.others name hname)]
  rcases H.spec?_cases W.orderly name with h | h
  · rw [h, hentered, R.moved_entered]
  · rw [h, hentered, ← Membership.moved_eq, R.moved_moved]

theorem join_toward (h : Orderly p) {labelGroups : Bool} :
    Toward (Membership.joined labelGroups pod usage observed p.now) p
      (p.onGroups (Membership.join retry labelGroups pod usage observed)).2 := by
  rw [Membership.join]
  rcases andThen_cases p (Membership.discard (Aggregator.upsert retry pod.namespaceGroup .byNamespace
    pod.name usage)) (if labelGroups then Membership.inSelectorGroups retry
      (Membership.settle retry pod usage observed) else pure (.ok ())) with hend | ⟨hok, hend⟩
  · rw [hend, onGroups_discard]
    exact (upsert_tried h).toward Membership.repeatable_joined
  · obtain ⟨a, hupsert, hmiddle⟩ := discard_run hok
    have W := upsert_run h hupsert
    rw [← hmiddle] at W
    rw [hend]
    refine W.toward Membership.repeatable_joined ?_
    cases labelGroups with
    | true =>
      refine inSelectorGroups_halfSettled W.orderly fun g q hq hnow hg => ?_
      rw [if_pos rfl, ← W.now_eq, ← hnow]
      exact settle_halfSettled hq hg
    | false =>
      exact (Looked.refl W.orderly).halfSettled fun g hg => ((mem_selecting_iff W.orderly).mp hg).1

theorem leave_toward (h : Orderly p) :
    Toward (Membership.left pod ended p.now) p
      (p.onGroups (Membership.leave retry pod ended)).2 := by
  rw [Membership.leave]
  rcases andThen_cases p (Membership.discard (Aggregator.remove retry pod.namespaceGroup pod.name
    ended)) (Membership.inSelectorGroups retry (Membership.release retry pod ended))
    with hend | ⟨hok, hend⟩
  · rw [hend, onGroups_discard]
    exact (remove_tried h).toward Membership.repeatable_left
  · obtain ⟨a, hremove, hmiddle⟩ := discard_run hok
    have W := remove_run h hremove
    rw [← hmiddle] at W
    rw [hend]
    refine W.toward Membership.repeatable_left ?_
    refine inSelectorGroups_halfSettled W.orderly fun g q hq hnow hg => ?_
    rw [← W.now_eq, ← hnow]
    exact release_halfSettled hq hg

end Pipeline

end Chargeback
