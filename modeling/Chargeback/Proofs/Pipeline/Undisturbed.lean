import Chargeback.Proofs.Pipeline.Reads

/-!
# Changes that nothing disturbs

As long as no call of the store is made to fail, and nobody else writes, a change of a group
succeeds with its first attempt: what it has read is still stored when it writes. So a pod
joins its groups, or leaves them, whatever is stored.

## Main definitions

* `Pipeline.Succeeds`: a program on groups that only fails if something disturbs it.
* `Pipeline.succeeds_join`, `Pipeline.succeeds_leave`: joining and leaving the groups.
-/

namespace Chargeback

namespace Pipeline

variable {p : Pipeline} {retry : RetryPolicy} {name : String} {createAs : Option GroupType}
  {change : GroupSpec → GroupSpec}

theorem onGroups_orderly {α : Type} (h : Orderly p) (program : GroupProgram α) :
    Orderly (p.onGroups program).2 :=
  Program.run_keeps (fun r _ hs => hs.answerGroup r) program h

/-- A program on groups does not make calls fail. -/
theorem onGroups_calm {α : Type} (h : p.store.Calm) (program : GroupProgram α) :
    (p.onGroups program).2.store.Calm := by
  refine Program.run_keeps (Q := fun q : Pipeline => q.store.Calm) (fun r q hq => ?_) program h
  cases r with
  | store r => exact (hq.answer r).2.2
  | pause k => exact hq
  | clock => exact hq

/-- A call that succeeds is not repeated. -/
theorem retrying_of_ok {r : StoreRequest} {a : r.Value}
    (h : (p.onGroups (Aggregator.store r)).1 = .ok a) :
    p.onGroups (Aggregator.retrying retry r) = (.ok a, (p.onGroups (Aggregator.store r)).2) := by
  rw [Aggregator.retrying]
  cases retry.retries with
  | zero => exact Prod.ext h rfl
  | succ left =>
    rw [Aggregator.retryFrom, Program.monad_bind_eq, onGroups_bind, h]
    rfl

/-- A group that is missing is created. -/
theorem create_of_calm (h : p.store.Calm) {g : StoredGroup} (habsent : p.group? g.name = none) :
    (p.onGroups (Aggregator.store (.create g))).1 = .ok (p.store.memory.write g).1 ∧
      (p.onGroups (Aggregator.store (.create g))).2.group? g.name =
        some (p.store.memory.write g).1 := by
  obtain ⟨hanswer, hmemory, -⟩ := h.answer (.create g)
  rw [MemoryStore.answer, h.memory.create_eq habsent] at hanswer hmemory
  refine ⟨hanswer, ?_⟩
  change (p.store.answer (.create g)).2.memory.groups.get? g.name = _
  rw [hmemory]
  exact p.store.memory.get?_write_self rfl

/-- A record that is still stored as it was read is replaced. -/
theorem replace_of_calm (h : p.store.Calm) {g current : StoredGroup}
    (hcurrent : p.group? g.name = some current) (hversion : current.version = g.version) :
    (p.onGroups (Aggregator.store (.replace g))).1 = .ok (p.store.memory.write g).1 := by
  have hanswer := (h.answer (.replace g)).1
  rw [MemoryStore.answer, h.memory.replace_eq hcurrent hversion] at hanswer
  exact hanswer

theorem getOrCreate_of_calm (retry : RetryPolicy) (h : Orderly p) (hcalm : p.store.Calm)
    (name : String) (type : GroupType) :
    ∃ g, (p.onGroups (Aggregator.getOrCreate retry name type)).1 = .ok g ∧
      (p.onGroups (Aggregator.getOrCreate retry name type)).2.group? name = some g := by
  have F := get_finds retry h name
  have hget := F.of_calm hcalm
  have hgroup := F.looked.group?_eq name
  have hcalm' := F.looked.calm hcalm
  rw [Aggregator.getOrCreate, Program.monad_bind_eq, onGroups_bind, hget]
  generalize (p.onGroups (Aggregator.get retry name)).2 = p₁ at hgroup hcalm'
  cases hstored : p.group? name with
  | some g => exact ⟨g, rfl, hgroup.trans hstored⟩
  | none =>
    obtain ⟨hcreate, hcreated⟩ := create_of_calm (g := .new name (.new name type)) hcalm'
      (hgroup.trans hstored)
    dsimp only
    rw [Program.monad_bind_eq, onGroups_bind, retrying_of_ok hcreate]
    exact ⟨_, rfl, hcreated⟩

/-- What a change starts from is what is stored then. -/
theorem current_of_calm (retry : RetryPolicy) (h : Orderly p) (hcalm : p.store.Calm)
    (name : String) (createAs : Option GroupType) :
    ∃ r, (p.onGroups (Aggregator.current retry name createAs)).1 = .ok r ∧
      (p.onGroups (Aggregator.current retry name createAs)).2.group? name = r ∧
      (createAs.isSome → r.isSome) := by
  cases createAs with
  | none =>
    have F := get_finds retry h name
    exact ⟨p.group? name, F.of_calm hcalm, F.looked.group?_eq name, nofun⟩
  | some type =>
    obtain ⟨g, hok, hgroup⟩ := getOrCreate_of_calm retry h hcalm name type
    rw [Aggregator.current, Program.monad_bind_eq, onGroups_bind, hok]
    exact ⟨some g, rfl, hgroup, fun _ => rfl⟩

/-- The first attempt at a change succeeds. -/
theorem attemptOnce_of_calm (retry : RetryPolicy) (h : Orderly p) (hcalm : p.store.Calm)
    (name : String) (createAs : Option GroupType) (change : GroupSpec → GroupSpec) :
    ∃ r, (p.onGroups (Aggregator.attemptOnce retry name createAs change)).1 =
      .finished (.ok r) ∧ (createAs.isSome → r.isSome) := by
  obtain ⟨r, hok, hgroup, hfound⟩ := current_of_calm retry h hcalm name createAs
  have horderly := onGroups_orderly h (Aggregator.current retry name createAs)
  have hcalm' := onGroups_calm hcalm (Aggregator.current retry name createAs)
  rw [Aggregator.attemptOnce, Program.monad_bind_eq, onGroups_bind, hok]
  generalize (p.onGroups (Aggregator.current retry name createAs)).2 = p₁
    at hgroup horderly hcalm'
  cases r with
  | none => exact ⟨none, rfl, hfound⟩
  | some g =>
    dsimp only
    rw [Program.monad_bind_eq, onGroups_clock]
    by_cases hsame : (change g.spec).pruneActivity (Month.start p₁.now) = g.spec
    · rw [if_pos hsame]
      exact ⟨some g, rfl, hfound⟩
    · have hname : g.name = name := horderly.sound.named hgroup
      have hcurrent : p₁.group? g.name = some g := (congrArg p₁.group? hname).trans hgroup
      have hreplace := replace_of_calm hcalm'
        (g := { g with spec := (change g.spec).pruneActivity (Month.start p₁.now) }) hcurrent rfl
      rw [if_neg hsame, Program.monad_bind_eq, onGroups_bind, hreplace]
      exact ⟨_, rfl, fun _ => rfl⟩

theorem modify_of_calm (retry : RetryPolicy) (h : Orderly p) (hcalm : p.store.Calm)
    (name : String) (createAs : Option GroupType) (change : GroupSpec → GroupSpec) :
    ∃ r, (p.onGroups (Aggregator.modify retry name createAs change)).1 = .ok r ∧
      (createAs.isSome → r.isSome) := by
  obtain ⟨r, hfinished, hfound⟩ := attemptOnce_of_calm retry h hcalm name createAs change
  refine ⟨r, ?_, hfound⟩
  rw [Aggregator.modify]
  cases retry.retries with
  | zero =>
    rw [Aggregator.modifyFrom, Program.monad_bind_eq, onGroups_bind, hfinished]
    rfl
  | succ left =>
    rw [Aggregator.modifyFrom, Program.monad_bind_eq, onGroups_bind, hfinished]
    rfl

/-! ## Programs that succeed -/

/-- The program only fails if something disturbs the store. -/
def Succeeds {ε α : Type} (program : GroupProgram (Except ε α)) : Prop :=
  ∀ p, Orderly p → p.store.Calm → (p.onGroups program).1.isOk

theorem succeeds_done {ε α : Type} (a : α) :
    Succeeds (.done (.ok a) : GroupProgram (Except ε α)) := fun _ _ _ => rfl

theorem succeeds_upsert {type : GroupType} {key : String} {usage : MemberUsage} :
    Succeeds (Aggregator.upsert retry name type key usage) := by
  intro p h hcalm
  obtain ⟨r, hok, hfound⟩ := modify_of_calm retry h hcalm name (some type)
    (·.upsertMember key usage)
  obtain ⟨g, rfl⟩ := Option.isSome_iff_exists.mp (hfound rfl)
  rw [Aggregator.upsert, Program.monad_bind_eq, onGroups_bind, hok]
  rfl

theorem succeeds_remove {key : String} {ended : Instant} :
    Succeeds (Aggregator.remove retry name key ended) := by
  intro p h hcalm
  obtain ⟨r, hok, -⟩ := modify_of_calm retry h hcalm name none (·.removeMember key ended)
  rw [Aggregator.remove, hok]
  rfl

theorem Succeeds.discard {α : Type} {program : GroupProgram (Except AggregateError α)}
    (h : Succeeds program) : Succeeds (Membership.discard program) := by
  intro p hp hcalm
  have hok := h p hp hcalm
  rw [Membership.discard, Program.monad_bind_eq, onGroups_bind]
  generalize p.onGroups program = run at hok ⊢
  obtain ⟨e | a, p₁⟩ := run
  · cases hok
  · rfl

theorem Succeeds.andThen {first second : GroupProgram (Except AggregateError Unit)}
    (h : Succeeds first) (h' : Succeeds second) : Succeeds (Membership.andThen first second) := by
  intro p hp hcalm
  have hok := h p hp hcalm
  have horderly := onGroups_orderly hp first
  have hcalm' := onGroups_calm hcalm first
  rw [Membership.andThen, Program.monad_bind_eq, onGroups_bind]
  generalize p.onGroups first = run at hok horderly hcalm' ⊢
  obtain ⟨e | a, p₁⟩ := run
  · cases hok
  · exact h' p₁ horderly hcalm'

variable {step : StoredGroup → GroupProgram (Except AggregateError Unit)}

theorem succeeds_inTurn (hstep : ∀ g, Succeeds (step g)) (gs : List StoredGroup) :
    Succeeds (Membership.inTurn step gs) := by
  induction gs with
  | nil => exact succeeds_done ()
  | cons g rest ih => exact (hstep g).andThen ih

theorem succeeds_inSelectorGroups (hstep : ∀ g, Succeeds (step g)) :
    Succeeds (Membership.inSelectorGroups retry step) := by
  intro p hp hcalm
  have F := selectorGroups_finds retry hp
  rw [Membership.inSelectorGroups, Program.monad_bind_eq, onGroups_bind, F.of_calm hcalm]
  exact succeeds_inTurn hstep p.selecting _ F.looked.orderly (F.looked.calm hcalm)

variable {pod : PodMember} {usage : MemberUsage} {observed ended : Instant}

theorem succeeds_settle (g : StoredGroup) :
    Succeeds (Membership.settle retry pod usage observed g) := by
  rw [Membership.settle]
  split
  next => exact succeeds_upsert.discard
  next =>
    split
    next => exact succeeds_remove.discard
    next => exact succeeds_done ()

theorem succeeds_release (g : StoredGroup) : Succeeds (Membership.release retry pod ended g) := by
  rw [Membership.release]
  split
  next => exact succeeds_remove.discard
  next => exact succeeds_done ()

theorem succeeds_join (labelGroups : Bool) :
    Succeeds (Membership.join retry labelGroups pod usage observed) := by
  refine succeeds_upsert.discard.andThen ?_
  split
  next => exact succeeds_inSelectorGroups succeeds_settle
  next => exact succeeds_done ()

theorem succeeds_leave : Succeeds (Membership.leave retry pod ended) :=
  succeeds_remove.discard.andThen (succeeds_inSelectorGroups succeeds_release)

end Pipeline

end Chargeback
