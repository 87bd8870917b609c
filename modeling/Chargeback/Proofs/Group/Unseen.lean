import Chargeback.Proofs.Group.Repeats
import Chargeback.Proofs.Group.Writers
import Chargeback.Proofs.Pipeline.Undisturbed

/-!
# Writes whose success is not seen

A store may carry out a write and still answer with a passing failure, as a server does
that takes too long. A change of a group that meets such an answer reads again. If it was the
creation that has succeeded unseen, the change goes on from the group that it has created. If
it was the replacement, the record that is read has been changed already, and a change that is
made again in the same month leaves it as it is. So in the end the record is changed once, or
not at all if the change fails before.

## Main definitions

* `MemoryStore.Unsure`: what may come of a call when the success of writes may not be seen.
* `UnsureStore`: a store of which each call is such a call.
* `HidingStore`: a store in memory that hides the success of writes as it is told.
* `GroupChange.Underway`: a change on the way, with nobody else at work.
* `GroupChange.run_unsure`: what a change comes to, beside a change without failures.
-/

namespace Chargeback

/-! ## Stores -/

namespace MemoryStore

variable {m m' : MemoryStore} {name : String}

/-- The stored record of a name. -/
def spec? (m : MemoryStore) (name : String) : Option GroupSpec :=
  (m.groups.get? name).map StoredGroup.spec

/-- The store without failures to come. -/
def calmed (m : MemoryStore) : MemoryStore := { m with pendingFailures := 0, pendingConflicts := 0 }

/-- What may come of a call: it does what it is meant to do, or it fails and changes no record,
or it writes and its success is not seen. -/
inductive Unsure (m : MemoryStore) : (r : StoreRequest) → r.Answer → MemoryStore → Prop where
  | carried {r : StoreRequest} {a : r.Answer} {m' : MemoryStore} (h : Carried m r a m') :
    Unsure m r a m'
  | failed (r : StoreRequest) (e : StoreError) {m' : MemoryStore} (h : SameRecords m m') :
    Unsure m r (.error e) m'
  | unseenCreate {g : StoredGroup} {a : StoreRequest.Answer (.create g)} {m' : MemoryStore}
    (text : String) (h : Carried m (.create g) a m') : Unsure m (.create g) (.error (.transient text)) m'
  | unseenReplace {g : StoredGroup} {a : StoreRequest.Answer (.replace g)} {m' : MemoryStore}
    (text : String) (h : Carried m (.replace g) a m') :
    Unsure m (.replace g) (.error (.transient text)) m'

theorem spec?_eq_none_iff : m.spec? name = none ↔ m.groups.get? name = none :=
  Option.map_eq_none_iff

theorem spec?_of_get? {g : StoredGroup} (h : m.groups.get? name = some g) :
    m.spec? name = some g.spec := by
  rw [spec?, h]
  rfl

theorem SameRecords.spec?_eq (h : SameRecords m m') (name : String) : m'.spec? name = m.spec? name := by
  rw [spec?, spec?, h.groups_eq]

theorem spec?_write_self (m : MemoryStore) {g : StoredGroup} (h : g.name = name) :
    (m.write g).2.spec? name = some g.spec := by
  rw [spec?_of_get? (m.get?_write_self h), write_fst_spec]

end MemoryStore

/-- A store in memory among other things, of which the success of writes may not be seen.
Pauses and looks at the clock leave it alone. -/
structure UnsureStore {σ : Type} (memory : σ → MemoryStore)
    (answer : (r : AggregatorRequest) → σ → AggregatorInterface.Answer r × σ) : Prop where
  store : ∀ r s, (memory s).Unsure r (answer (.store r) s).1 (memory (answer (.store r) s).2)
  pause : ∀ k s, memory (answer (.pause k) s).2 = memory s
  clock : ∀ s, memory (answer .clock s).2 = memory s

/-- A store in memory that hides the success of writes. -/
structure HidingStore where
  memory : MemoryStore
  /-- For each of the next calls, whether its success is to be hidden if it writes. -/
  hides : List Bool := []

namespace HidingStore

/-- The answer to a write that has succeeded, as if it had taken too long. -/
def hidden : (r : StoreRequest) → r.Answer → r.Answer
  | .create _, .ok _ => .error (.transient "request timed out")
  | .replace _, .ok _ => .error (.transient "request timed out")
  | _, a => a

/-- The answer to a request, while the clock shows the given time. -/
def answer (now : Instant) :
    (r : AggregatorRequest) → HidingStore → AggregatorInterface.Answer r × HidingStore
  | .store r, h =>
    let (a, memory) := h.memory.answer r
    (if h.hides.head? = some true then hidden r a else a, { memory, hides := h.hides.tail })
  | .pause _, h => ((), h)
  | .clock, h => (now, h)

theorem unsure_hidden {m m' : MemoryStore} {r : StoreRequest} {a : r.Answer}
    (h : m.Carried r a m') : m.Unsure r (hidden r a) m' := by
  cases h with
  | get name => exact .carried (.get name)
  | list => exact .carried .list
  | create habsent => exact .unseenCreate _ (.create habsent)
  | replace hcurrent hversion => exact .unseenReplace _ (.replace hcurrent hversion)

theorem unsureStore (now : Instant) : UnsureStore HidingStore.memory (answer now) where
  store r h := by
    rw [answer]
    rcases h.memory.answer_cases r with hcarried | ⟨e, herror, hs⟩
    · by_cases hhides : h.hides.head? = some true
      · simp only [hhides, if_true]
        exact unsure_hidden hcarried
      · simp only [hhides, if_false]
        exact .carried hcarried
    · have hanswer : (if h.hides.head? = some true then hidden r (.error e) else .error e) =
          (.error e : r.Answer) := by
        cases r <;> exact ite_self _
      simp only [herror, hanswer]
      exact .failed r e hs
  pause _ _ := rfl
  clock _ := rfl

end HidingStore

namespace GroupChange

open GroupSpec (basis)

variable {c : GroupChange} {now t : Instant} {m₀ m m' : MemoryStore} {n : ChangeNote}
  {g : StoredGroup}

/-! ## One change of a record -/

/-- The record as the change writes it. -/
def rewrite (c : GroupChange) (now : Instant) (s : GroupSpec) : GroupSpec :=
  (c.apply s).pruneActivity (Month.start now)

theorem rewrite_rewrite (c : GroupChange) (now : Instant) (s : GroupSpec) :
    c.rewrite now (c.rewrite now s) = c.rewrite now s := by
  cases c with
  | upsert name type key usage => exact GroupSpec.upserted_upserted
  | remove name key ended => exact GroupSpec.removed_removed

/-- What is written depends on the month of the clock only. -/
theorem changed_spec (h : Month.start t = Month.start now) (g : StoredGroup) :
    (Aggregator.changed c.apply t g).spec = c.rewrite now g.spec := by
  rw [Aggregator.changed, h]
  rfl

theorem missing_of_basis {name : String} {createAs : Option GroupType} {s : Option GroupSpec}
    (h : basis name createAs s = none) : s = none := by
  cases s with
  | none => rfl
  | some s => cases h

/-- The record that a change is to leave behind. -/
def goal (c : GroupChange) (now : Instant) (m : MemoryStore) : Option GroupSpec :=
  (basis c.name c.createAs (m.spec? c.name)).map (c.rewrite now)

theorem goal_sameRecords (h : m.SameRecords m') : c.goal now m' = c.goal now m := by
  rw [goal, goal, h.spec?_eq]

/-! ## A change on the way -/

/-- A change of a group on the way, with nobody else at work. The record is the one from the
beginning, or the one that the change starts from, or the changed one. What was read last was
stored at that time, and if it was the changed record, this one still is. -/
structure Underway (c : GroupChange) (now : Instant) (m₀ : MemoryStore) (n : ChangeNote)
    (m : MemoryStore) : Prop where
  sound : m.Sound
  others : ∀ other, other ≠ c.name → m.groups.get? other = m₀.groups.get? other
  stored : m.spec? c.name = m₀.spec? c.name ∨
    m.spec? c.name = basis c.name c.createAs (m₀.spec? c.name) ∨ m.spec? c.name = c.goal now m₀
  time : ∀ t, n.time = some t → Month.start t = Month.start now
  absent : n.read = some none → m₀.spec? c.name = none
  remembers : ∀ g, n.read = some (some g) → m.Remembers c.name g
  read : ∀ g, n.read = some (some g) → ∃ s, basis c.name c.createAs (m₀.spec? c.name) = some s ∧
    (g.spec = s ∧ m.spec? c.name = some s ∨ m.spec? c.name = some (c.rewrite now s))
  written : n.written ≠ 0 → m.spec? c.name = c.goal now m₀

theorem underway_start (h : m.Sound) : Underway c now m {} m where
  sound := h
  others _ _ := rfl
  stored := .inl rfl
  time _ ht := nomatch ht
  absent h := nomatch h
  remembers _ hg := nomatch hg
  read _ hg := nomatch hg
  written h := absurd rfl h

variable (H : Underway c now m₀ n m)
include H

/-- A group that is missing on the way was missing at the beginning. -/
theorem Underway.missing (h : m.groups.get? c.name = none) : m₀.spec? c.name = none := by
  have hspec := MemoryStore.spec?_eq_none_iff.mpr h
  rcases H.stored with hs | hs | hs
  · rw [← hs, hspec]
  · rw [hspec] at hs
    exact missing_of_basis hs.symm
  · rw [hspec, goal] at hs
    exact missing_of_basis (Option.map_eq_none_iff.mp hs.symm)

/-- A group that is there is the one that the change starts from, or it has been changed. -/
theorem Underway.found (h : m.groups.get? c.name = some g) :
    ∃ s, basis c.name c.createAs (m₀.spec? c.name) = some s ∧
      (g.spec = s ∧ m.spec? c.name = some s ∨ m.spec? c.name = some (c.rewrite now s)) := by
  have hspec := MemoryStore.spec?_of_get? h
  rcases H.stored with hs | hs | hs
  · rw [hspec] at hs
    refine ⟨g.spec, ?_, .inl ⟨rfl, hspec⟩⟩
    rw [← hs]
    rfl
  · exact ⟨g.spec, hs.symm.trans hspec, .inl ⟨rfl, hspec⟩⟩
  · rw [hspec, goal] at hs
    obtain ⟨s, hbasis, hrewrite⟩ := Option.map_eq_some_iff.mp hs.symm
    exact ⟨s, hbasis, .inr (hspec.trans (congrArg some hrewrite.symm))⟩

theorem Underway.sameRecords (hs : m.SameRecords m') : Underway c now m₀ n m' where
  sound := H.sound.sameRecords hs
  others other hother := by rw [hs.groups_eq, H.others other hother]
  stored := by rw [hs.spec?_eq]; exact H.stored
  time := H.time
  absent := H.absent
  remembers g hg := (H.remembers g hg).sameRecords hs
  read g hg := by rw [hs.spec?_eq]; exact H.read g hg
  written h := by rw [hs.spec?_eq]; exact H.written h

/-- The change looks at the clock. -/
theorem Underway.tick (ht : Month.start t = Month.start now) :
    Underway c now m₀ { n with time := some t } m :=
  { H with time := fun _ ht' => Option.some_inj.mp ht' ▸ ht }

/-- The change reads what is stored. -/
theorem Underway.look : Underway c now m₀ { n with read := some (m.groups.get? c.name) } m :=
  { H with
    absent := fun h => H.missing (Option.some_inj.mp h)
    remembers := fun _ hg => H.sound.remembers (Option.some_inj.mp hg)
    read := fun _ hg => H.found (Option.some_inj.mp hg) }

/-- The group is created, whether the change sees this or not. -/
theorem Underway.create {type : GroupType} (htype : c.createAs = some type)
    (habsent : m.groups.get? c.name = none) :
    Underway c now m₀ n (m.write (.new c.name (.new c.name type))).2 := by
  have hspec : (m.write (.new c.name (.new c.name type))).2.spec? c.name =
      some (.new c.name type) := m.spec?_write_self rfl
  have hbasis : basis c.name c.createAs (m₀.spec? c.name) = some (.new c.name type) := by
    rw [H.missing habsent, htype]
    rfl
  -- nothing that was read is stored, so that nothing has been read yet
  have hunread (g : StoredGroup) : n.read ≠ some (some g) := by
    intro hg
    obtain ⟨s, -, ⟨-, hs⟩ | hs⟩ := H.read g hg <;>
      rw [MemoryStore.spec?_eq_none_iff.mpr habsent] at hs <;> cases hs
  refine ⟨H.sound.write _, ?_, .inr (.inl (hspec.trans hbasis.symm)), H.time, H.absent, ?_, ?_, ?_⟩
  · intro other hother
    rw [← H.others other hother]
    exact m.get?_write_of_ne hother.symm
  · exact fun g hg => absurd hg (hunread g)
  · exact fun g hg => absurd hg (hunread g)
  · intro h
    have hgoal := H.written h
    rw [MemoryStore.spec?_eq_none_iff.mpr habsent, goal, hbasis] at hgoal
    cases hgoal

/-- The record that was read is replaced, whether the change sees this or not. If it had been
replaced before, it stays the same. -/
theorem Underway.replace (hg : n.read = some (some g)) (ht : n.time = some t)
    {current : StoredGroup} (hcurrent : m.groups.get? g.name = some current)
    (hversion : current.version = g.version) :
    Underway c now m₀ n (m.write (Aggregator.changed c.apply t g)).2 ∧
      (m.write (Aggregator.changed c.apply t g)).2.spec? c.name = c.goal now m₀ := by
  have hremembers := H.remembers g hg
  have hname : g.name = c.name := hremembers.name_eq
  rw [hname] at hcurrent
  obtain rfl : current = g := hremembers.eq_of_version hcurrent hversion
  obtain ⟨s, hbasis, hs⟩ := H.read current hg
  have hstored := MemoryStore.spec?_of_get? hcurrent
  have hrewrite : (Aggregator.changed c.apply t current).spec = c.rewrite now s := by
    rw [changed_spec (H.time t ht)]
    rcases hs with ⟨hsame, -⟩ | hdone
    · rw [hsame]
    · rw [hstored] at hdone
      rw [Option.some_inj.mp hdone, rewrite_rewrite]
  have hspec : (m.write (Aggregator.changed c.apply t current)).2.spec? c.name =
      some (c.rewrite now s) := by
    rw [← hrewrite]
    exact m.spec?_write_self hname
  have hgoal : c.goal now m₀ = some (c.rewrite now s) := by
    rw [goal, hbasis, Option.map_some]
  refine ⟨⟨H.sound.write _, ?_, .inr (.inr (hspec.trans hgoal.symm)), H.time, H.absent, ?_, ?_, ?_⟩,
    hspec.trans hgoal.symm⟩
  · intro other hother
    rw [← H.others other hother]
    exact m.get?_write_of_ne (hname ▸ hother.symm)
  · exact fun g' hg' => (H.remembers g' hg').write _
  · intro g' hg'
    exact ⟨s, hbasis, .inr hspec⟩
  · exact fun _ => hspec.trans hgoal.symm

omit H

/-- What the protocol of a change allows keeps it on its way. -/
theorem underway_step {σ : Type} {memory : σ → MemoryStore}
    {answer : (r : AggregatorRequest) → σ → AggregatorInterface.Answer r × σ}
    (hstore : UnsureStore memory answer)
    (hmonth : ∀ s, Month.start (answer .clock s).1 = Month.start now)
    (n : ChangeNote) (r : AggregatorRequest) (s : σ) (hallowed : c.protocol.allows n r)
    (H : Underway c now m₀ n (memory s)) :
    Underway c now m₀ (c.protocol.after n r (answer r s).1) (memory (answer r s).2) := by
  obtain ⟨-, hallowed⟩ := hallowed
  cases r with
  | pause k => exact (hstore.pause k s).symm ▸ H
  | clock => exact (hstore.clock s).symm ▸ H.tick (hmonth s)
  | store r =>
    change Underway c now m₀ (n.after (.store r) (answer (.store r) s).1) _
    have hcall := hstore.store r s
    generalize (answer (.store r) s).1 = a at hcall
    generalize memory (answer (.store r) s).2 = m' at hcall
    cases hcall with
    | failed r e hs =>
      rw [n.after_error]
      exact H.sameRecords hs
    | carried hcarried =>
      cases hcarried with
      | list => exact hallowed.elim
      | get name =>
        obtain rfl : name = c.name := hallowed
        exact H.look
      | create habsent =>
        obtain ⟨type, htype, rfl⟩ := hallowed
        have hlook := (H.create htype habsent).look
        have hread : ((memory s).write (.new c.name (.new c.name type))).2.groups.get? c.name =
            some _ := (memory s).get?_write_self rfl
        rw [hread] at hlook
        exact hlook
      | replace hcurrent hversion =>
        obtain ⟨g, t, hg, ht, rfl⟩ := hallowed
        obtain ⟨hnext, hgoal⟩ := H.replace hg ht hcurrent hversion
        exact { hnext with written := fun _ => hgoal }
    | unseenCreate text hcarried =>
      cases hcarried with
      | create habsent =>
        obtain ⟨type, htype, rfl⟩ := hallowed
        exact H.create htype habsent
    | unseenReplace text hcarried =>
      cases hcarried with
      | replace hcurrent hversion =>
        obtain ⟨g, t, hg, ht, rfl⟩ := hallowed
        exact (H.replace hg ht hcurrent hversion).1

/-! ## The end of a change -/

/-- A change keeps to its protocol, and only a removal ends well without a group. -/
theorem program_obeys_found (p : RetryPolicy) (c : GroupChange) :
    (c.program p).Obeys c.protocol
      (fun m a => c.Ended m a ∧ ∀ r, a = .ok r → r.isSome ∨ c.createAs = none) {} := by
  cases c with
  | remove name key ended =>
    exact (Aggregator.remove_obeys rfl).mono fun m a h => ⟨h, fun _ _ => .inr rfl⟩
  | upsert name type key usage =>
    refine (Aggregator.upsert_obeys rfl).bind ?_
    rintro m (e | g) h
    · exact ⟨h, fun _ hr => nomatch hr⟩
    · refine ⟨h, fun r hr => .inl ?_⟩
      cases hr
      rfl

/-- A change that has ended well has left the changed record behind. -/
theorem Underway.ended (H : Underway c now m₀ n m) {r : Option StoredGroup}
    (hended : c.Ended n (.ok r)) (hr : r.isSome ∨ c.createAs = none) :
    m.spec? c.name = c.goal now m₀ := by
  rcases hended with ⟨hwritten, -⟩ | ⟨-, hread, hsame⟩
  · exact H.written (by omega)
  · cases r with
    | none =>
      have hcreate : c.createAs = none := hr.resolve_left (by decide)
      have hmissing := H.absent hread
      have hstored := H.stored
      simp only [goal, hmissing, hcreate] at hstored ⊢
      rcases hstored with h | h | h <;> exact h
    | some g =>
      obtain ⟨t, ht, hchanged⟩ := hsame g rfl
      obtain ⟨s, hbasis, hs⟩ := H.read g hread
      rw [goal, hbasis, Option.map_some]
      rcases hs with ⟨rfl, hstored⟩ | hstored
      · rw [hstored, ← changed_spec (H.time t ht), hchanged]
      · exact hstored

/-- What has become of the record when a change ends: it has been changed if the change ends
well, and else it has been changed or not, or is the empty one that the change starts from. -/
theorem run_cases {σ : Type} {memory : σ → MemoryStore}
    {answer : (r : AggregatorRequest) → σ → AggregatorInterface.Answer r × σ}
    (hstore : UnsureStore memory answer)
    (hmonth : ∀ s, Month.start (answer .clock s).1 = Month.start now) (p : RetryPolicy)
    (c : GroupChange) {s : σ} (hsound : (memory s).Sound) :
    ∃ n, Underway c now (memory s) n (memory ((c.program p).run answer s).2) ∧
      (((c.program p).run answer s).1.isOk →
        (memory ((c.program p).run answer s).2).spec? c.name = c.goal now (memory s)) := by
  obtain ⟨n, ⟨hended, hfound⟩, H⟩ := (program_obeys_found p c).run
    (R := fun n t => Underway c now (memory s) n (memory t)) (underway_step hstore hmonth)
    (underway_start hsound)
  refine ⟨n, H, fun hok => ?_⟩
  cases hresult : ((c.program p).run answer s).1 with
  | error e =>
    rw [hresult] at hok
    cases hok
  | ok r =>
    rw [hresult] at hended
    exact H.ended hended (hfound r hresult)

/-! ## A change without failures -/

/-- A store in memory is one of which all is seen. -/
theorem unsureStore_memory (now : Instant) : UnsureStore id (Writers.answer now) where
  store r m := by
    rcases m.answer_cases r with hcarried | ⟨e, herror, hs⟩
    · exact .carried hcarried
    · have hfailed := MemoryStore.Unsure.failed r e hs
      rw [← herror] at hfailed
      exact hfailed
  pause _ _ := rfl
  clock _ := rfl

/-- A change that nothing disturbs succeeds. -/
theorem succeeds_program (p : RetryPolicy) (c : GroupChange) : Pipeline.Succeeds (c.program p) := by
  cases c with
  | remove name key ended => exact Pipeline.succeeds_remove
  | upsert name type key usage =>
    intro q hq hcalm
    have hok : (q.onGroups (Aggregator.upsert p name type key usage)).1.isOk :=
      Pipeline.succeeds_upsert q hq hcalm
    rw [program, Program.monad_bind_eq, Pipeline.onGroups_bind]
    generalize q.onGroups (Aggregator.upsert p name type key usage) = run at hok ⊢
    obtain ⟨e | g, q₁⟩ := run
    · cases hok
    · rfl

/-- A pipeline that nothing disturbs, and its store in memory alone, answer alike. -/
theorem answerGroup_agrees (r : AggregatorRequest) (q : Pipeline) (m : MemoryStore)
    (h : q.store.Calm ∧ q.store.memory = m ∧ q.now = now) :
    (Pipeline.answerGroup r q).1 = (Writers.answer now r m).1 ∧
      (Pipeline.answerGroup r q).2.store.Calm ∧
      (Pipeline.answerGroup r q).2.store.memory = (Writers.answer now r m).2 ∧
      (Pipeline.answerGroup r q).2.now = now := by
  obtain ⟨hcalm, rfl, rfl⟩ := h
  cases r with
  | store r =>
    obtain ⟨hanswer, hmemory, hnext⟩ := hcalm.answer r
    exact ⟨hanswer, hnext, hmemory, rfl⟩
  | pause k => exact ⟨rfl, hcalm, rfl, rfl⟩
  | clock => exact ⟨rfl, hcalm, rfl, rfl⟩

theorem isOk_of_calm (p : RetryPolicy) (c : GroupChange) (now : Instant) (hsound : m.Sound)
    (hcalm : m.Calm) : ((c.program p).run (Writers.answer now) m).1.isOk := by
  let q : Pipeline := { Pipeline.new {} now with store := { memory := m } }
  have hq : q.store.Calm := ⟨nofun, hcalm⟩
  have hok := succeeds_program p c q ⟨hsound, hq.honest⟩ hq
  have hagrees := Program.run_agrees answerGroup_agrees (c.program p) (s := q) (t := m)
    ⟨hq, rfl, rfl⟩
  exact hagrees.1 ▸ hok

theorem calm_calmed (m : MemoryStore) : m.calmed.Calm := ⟨rfl, rfl⟩

theorem sameRecords_calmed (m : MemoryStore) : m.SameRecords m.calmed := ⟨rfl, rfl, rfl⟩

/-- A change of a group by a single writer, over a store that may not show the success of a
write, while the clock stays within a month. If it succeeds, the record is the one that a change
without failures leaves behind, and that one does succeed. If it fails, the record is this one,
or it is the one from the beginning, or the group has been created without members. No other
group is touched. -/
theorem run_unsure {σ : Type} {memory : σ → MemoryStore}
    {answer : (r : AggregatorRequest) → σ → AggregatorInterface.Answer r × σ}
    (hstore : UnsureStore memory answer)
    (hmonth : ∀ s, Month.start (answer .clock s).1 = Month.start now) (p : RetryPolicy)
    (c : GroupChange) {s : σ} (hsound : (memory s).Sound) :
    let run := (c.program p).run answer s
    let calm := (c.program p).run (Writers.answer now) (memory s).calmed
    calm.1.isOk ∧
      (run.1.isOk → (memory run.2).spec? c.name = calm.2.spec? c.name) ∧
      (¬run.1.isOk → (memory run.2).spec? c.name = (memory s).spec? c.name ∨
        ((memory s).spec? c.name = none ∧ ∃ type, c.createAs = some type ∧
          (memory run.2).spec? c.name = some (.new c.name type)) ∨
        (memory run.2).spec? c.name = calm.2.spec? c.name) ∧
      ∀ other, other ≠ c.name →
        (memory run.2).groups.get? other = (memory s).groups.get? other := by
  intro run calm
  have hsame := sameRecords_calmed (memory s)
  have hcalmSound := hsound.sameRecords hsame
  have hcalmOk : calm.1.isOk := isOk_of_calm p c now hcalmSound (calm_calmed _)
  obtain ⟨n, H, hdone⟩ := run_cases hstore hmonth p c hsound
  have hgoal : calm.2.spec? c.name = c.goal now (memory s) := by
    obtain ⟨-, -, hcalmDone⟩ := run_cases (unsureStore_memory now) (fun _ => rfl) p c hcalmSound
    exact (hcalmDone hcalmOk).trans (goal_sameRecords hsame)
  refine ⟨hcalmOk, fun hok => (hdone hok).trans hgoal.symm, fun _ => ?_, H.others⟩
  rcases H.stored with hstored | hstored | hstored
  · exact .inl hstored
  · cases hs : (memory s).spec? c.name with
    | some s₀ => exact .inl (hstored.trans (by rw [hs]; rfl))
    | none =>
      rw [hs] at hstored
      cases hcreate : c.createAs with
      | none => exact .inl (hstored.trans (by rw [hcreate]; rfl))
      | some type => exact .inr (.inl ⟨rfl, type, rfl, hstored.trans (by rw [hcreate]; rfl)⟩)
  · exact .inr (.inr (hstored.trans hgoal.symm))

/-- A pod comes into a group. -/
def slowUpsert : GroupChange :=
  .upsert "ns-shop" .byNamespace "web-0"
    { metric := { cpuRequest := 100 }, storageBytes := 7, started := ⟨1710000000, 0⟩ }

/-- There are no groups. The success of the creation and of the first replacement will be
hidden. -/
def slowStart : HidingStore := { memory := {}, hides := [false, true, false, false, true] }

theorem run_unsure_of_slowStart :
    let answer := HidingStore.answer ⟨1710000000, 0⟩
    let run := (slowUpsert.program {}).run answer slowStart
    let calm := (slowUpsert.program {}).run (Writers.answer ⟨1710000000, 0⟩) slowStart.memory.calmed
    ((∀ h, Month.start (answer .clock h).1 = Month.start ⟨1710000000, 0⟩) ∧
        slowStart.memory.Sound) ∧
      run.1.isOk ∧ run.2.hides = [] ∧
      run.2.memory.spec? slowUpsert.name = calm.2.spec? slowUpsert.name := by
  have hmonth (h : HidingStore) : Month.start (HidingStore.answer ⟨1710000000, 0⟩ .clock h).1 =
      Month.start ⟨1710000000, 0⟩ := rfl
  have hsound : slowStart.memory.Sound := (MemoryStore.Reachable.empty []).sound
  have hok : ((slowUpsert.program {}).run (HidingStore.answer ⟨1710000000, 0⟩) slowStart).1.isOk := by
    decide +kernel
  have h := run_unsure (HidingStore.unsureStore _) hmonth {} slowUpsert (s := slowStart) hsound
  exact ⟨⟨hmonth, hsound⟩, hok, by decide +kernel, h.2.1 hok⟩

end GroupChange

end Chargeback
