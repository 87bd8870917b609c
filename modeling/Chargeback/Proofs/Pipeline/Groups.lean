import Chargeback.Pipeline.Basic
import Chargeback.Proofs.Group.Change
import Chargeback.Proofs.Group.Moves
import Chargeback.Proofs.Store.Script

/-!
# Changes of groups one after the other

A pipeline that handles one event at a time is the only one that writes its groups. A
change that succeeds there has changed the record of its group, or the empty record if
there was none and the change creates it; it has left all other groups as they were.
Its failed attempts leave no trace but that empty record.

## Main definitions

* `Pipeline.group?`, `Pipeline.members`: the groups of a pipeline.
* `Pipeline.Orderly`: the store only lets calls fail.
* `Pipeline.Alone`: a change on the way, with nobody else at work.
* `Pipeline.Rewritten`: a record that has been changed, and nothing else has.
* `Pipeline.upsert_run`, `Pipeline.remove_run`: what the two changes come to.
-/

namespace Chargeback

namespace Pipeline

open GroupSpec (basis)

variable {p p' p₀ : Pipeline} {name : String} {createAs : Option GroupType}
  {change : GroupSpec → GroupSpec} {n n' : ChangeNote}

/-- The stored group of a name. -/
def group? (p : Pipeline) (name : String) : Option StoredGroup := p.store.memory.groups.get? name

/-- The stored record of a name. -/
def spec? (p : Pipeline) (name : String) : Option GroupSpec := (p.group? name).map StoredGroup.spec

/-- The members of a group; a missing one has none. -/
def members (p : Pipeline) (name : String) : KeyMap Metric :=
  ((p.spec? name).map GroupSpec.members).getD .empty

theorem spec?_of_group? {g : StoredGroup} (h : p.group? name = some g) :
    p.spec? name = some g.spec := by
  rw [spec?, h]
  rfl

/-- The records of the store are sound, and its script only lets calls fail. -/
structure Orderly (p : Pipeline) : Prop where
  sound : p.store.memory.Sound
  honest : p.store.Honest

theorem Orderly.answerGroup (h : Orderly p) (r : AggregatorRequest) :
    Orderly (answerGroup r p).2 := by
  cases r with
  | pause k => exact ⟨h.sound, h.honest⟩
  | clock => exact h
  | store r =>
    obtain ⟨hhonest, hcarried | ⟨e, -, hs⟩⟩ := h.honest.answer_cases r
    · exact ⟨h.sound.carried hcarried, hhonest⟩
    · exact ⟨h.sound.sameRecords hs, hhonest⟩

/-! ## A change on the way -/

/-- A change of a group on the way, with nobody else at work. Before it writes, the record
is the one from the beginning or the one that the change starts from, and what was read
last is what is stored. -/
structure Alone (name : String) (createAs : Option GroupType) (change : GroupSpec → GroupSpec)
    (p₀ : Pipeline) (n : ChangeNote) (p : Pipeline) : Prop where
  orderly : Orderly p
  now_eq : p.now = p₀.now
  others : ∀ other, other ≠ name → p.group? other = p₀.group? other
  time : ∀ t, n.time = some t → t = p₀.now
  read : n.written = 0 → ∀ g, n.read = some g → g = p.group? name
  unwritten : n.written = 0 →
    p.spec? name = p₀.spec? name ∨ p.spec? name = basis name createAs (p₀.spec? name)
  written : n.written ≠ 0 → ∃ s, basis name createAs (p₀.spec? name) = some s ∧
    p.spec? name = some ((change s).pruneActivity (Month.start p₀.now))

theorem alone_start (h : Orderly p₀) : Alone name createAs change p₀ {} p₀ where
  orderly := h
  now_eq := rfl
  others _ _ := rfl
  time _ ht := nomatch ht
  read _ _ hg := nomatch hg
  unwritten _ := .inl rfl
  written h := absurd rfl h

/-- A step that writes nothing only has to show that what was read is what is stored, and
that the time that was read is that of the clock. -/
theorem Alone.keep (H : Alone name createAs change p₀ n p) (horderly : Orderly p')
    (hgroups : p'.store.memory.groups = p.store.memory.groups) (hnow : p'.now = p.now)
    (hwritten : n'.written = n.written) (htime : ∀ t, n'.time = some t → t = p₀.now)
    (hread : n.written = 0 → ∀ g, n'.read = some g → g = p.group? name) :
    Alone name createAs change p₀ n' p' := by
  have hgroup (other : String) : p'.group? other = p.group? other := by
    rw [group?, group?, hgroups]
  have hspec : p'.spec? name = p.spec? name := by rw [spec?, spec?, hgroup]
  refine ⟨horderly, hnow.trans H.now_eq, ?_, htime, ?_, ?_, ?_⟩
  · intro other hother
    rw [hgroup]
    exact H.others other hother
  · rw [hwritten, hgroup]
    exact hread
  · rw [hwritten, hspec]
    exact H.unwritten
  · rw [hwritten, hspec]
    exact H.written

/-- The record that is stored before the change writes is the one that it starts from. -/
theorem Alone.basis_eq (H : Alone name createAs change p₀ n p) (hn : n.written = 0)
    {s : GroupSpec} (hs : p.spec? name = some s) :
    basis name createAs (p₀.spec? name) = some s := by
  rcases H.unwritten hn with h | h
  · rw [← h, hs]
    rfl
  · rw [← h, hs]

/-- A created record is the empty one that the change starts from. -/
theorem Alone.create (H : Alone name createAs change p₀ n p) (hn : n.written = 0)
    {g : StoredGroup} {type : GroupType} (htype : createAs = some type)
    (hg : g = .new name (.new name type)) (habsent : p.group? name = none)
    (horderly : Orderly p') (hmemory : p'.store.memory = (p.store.memory.write g).2)
    (hnow : p'.now = p.now) (hwritten : n'.written = n.written) (htime : n'.time = n.time)
    (hread : n'.read = some (some (p.store.memory.write g).1)) :
    Alone name createAs change p₀ n' p' := by
  have hname : g.name = name := by rw [hg]; rfl
  have hstored : p'.group? name = some (p.store.memory.write g).1 := by
    rw [group?, hmemory]
    exact p.store.memory.get?_write_self hname
  have habsent' : p.spec? name = none := by rw [spec?, habsent]; rfl
  have hbasis : basis name createAs (p₀.spec? name) = some (.new name type) := by
    rcases H.unwritten hn with h | h
    · rw [← h, habsent', htype]
      rfl
    · rw [habsent', htype] at h
      cases hs : p₀.spec? name with
      | none => rw [hs] at h; cases h
      | some s => rw [hs] at h; cases h
  refine ⟨horderly, hnow.trans H.now_eq, ?_, htime ▸ H.time, ?_, ?_, ?_⟩
  · intro other hother
    rw [← H.others other hother, group?, hmemory]
    exact p.store.memory.get?_write_of_ne (hname ▸ hother.symm)
  · intro _ g' hg'
    rw [hread] at hg'
    cases hg'
    exact hstored.symm
  · intro _
    refine .inr ?_
    rw [hbasis, spec?_of_group? hstored, MemoryStore.write_fst_spec, hg]
    rfl
  · intro h
    exact absurd (hwritten.trans hn) h

/-- A replacement changes the record that the change starts from. -/
theorem Alone.replace (H : Alone name createAs change p₀ n p) (hn : n.written = 0)
    {g : StoredGroup} (hg : n.read = some (some g)) {t : Instant} (ht : n.time = some t)
    (horderly : Orderly p')
    (hmemory : p'.store.memory = (p.store.memory.write (Aggregator.changed change t g)).2)
    (hnow : p'.now = p.now) (htime : n'.time = n.time)
    (hwritten : n'.written = n.written + 1) : Alone name createAs change p₀ n' p' := by
  obtain rfl : t = p₀.now := H.time t ht
  have hold : p.group? name = some g := (H.read hn _ hg).symm
  have hname : g.name = name := H.orderly.sound.named hold
  have hstored : p'.group? name =
      some (p.store.memory.write (Aggregator.changed change p₀.now g)).1 := by
    rw [group?, hmemory]
    exact p.store.memory.get?_write_self hname
  have hsome : n'.written ≠ 0 := by omega
  refine ⟨horderly, hnow.trans H.now_eq, ?_, htime ▸ H.time, ?_, ?_, ?_⟩
  · intro other hother
    rw [← H.others other hother, group?, hmemory]
    refine p.store.memory.get?_write_of_ne ?_
    exact hname ▸ hother.symm
  · exact fun h => absurd h hsome
  · exact fun h => absurd h hsome
  · intro _
    exact ⟨g.spec, H.basis_eq hn (spec?_of_group? hold), spec?_of_group? hstored⟩

/-- What the protocol of a change allows keeps it on its way. -/
theorem alone_step (n : ChangeNote) (r : AggregatorRequest) (p : Pipeline)
    (hallowed : (Aggregator.changeProtocol name createAs change).allows n r)
    (H : Alone name createAs change p₀ n p) :
    Alone name createAs change p₀
      ((Aggregator.changeProtocol name createAs change).after n r (answerGroup r p).1)
      (answerGroup r p).2 := by
  obtain ⟨hn, hallowed⟩ := hallowed
  have horderly := H.orderly.answerGroup r
  cases r with
  | pause k => exact H.keep horderly rfl rfl rfl H.time H.read
  | clock =>
    refine H.keep horderly rfl rfl rfl ?_ H.read
    intro t ht
    cases ht
    exact H.now_eq
  | store r =>
    change Alone name createAs change p₀ (n.after (.store r) (p.store.answer r).1) _
    obtain ⟨-, hcarried | ⟨e, herror, hs⟩⟩ := H.orderly.honest.answer_cases r
    · generalize (p.store.answer r).1 = a at hcarried
      generalize hmemory : (p.store.answer r).2.memory = memory at hcarried
      cases hcarried with
      | list => exact hallowed.elim
      | get key =>
        obtain rfl : key = name := hallowed
        refine H.keep horderly (congrArg MemoryStore.groups hmemory) rfl rfl H.time fun _ g hg => ?_
        exact (Option.some_inj.mp hg).symm
      | create habsent =>
        obtain ⟨type, htype, rfl⟩ := hallowed
        exact H.create hn htype rfl habsent horderly hmemory rfl rfl rfl rfl
      | replace hcurrent hversion =>
        obtain ⟨g, t, hg, ht, rfl⟩ := hallowed
        exact H.replace hn hg ht horderly hmemory rfl rfl rfl
    · rw [herror, n.after_error]
      exact H.keep horderly hs.groups_eq rfl rfl H.time H.read

/-! ## Changes that have succeeded -/

/-- A program that keeps to the protocol of a change is on its way at its end. -/
theorem alone_run {α : Type} {program : GroupProgram α} {post : ChangeNote → α → Prop}
    (h : Orderly p)
    (hprogram : program.Obeys (Aggregator.changeProtocol name createAs change) post {}) :
    ∃ m, post m (p.onGroups program).1 ∧
      Alone name createAs change p m (p.onGroups program).2 :=
  hprogram.run alone_step (alone_start h)

/-- A record that has been changed, and has lost the windows that ended before the month of
the clock; if it was missing and the change does not create it, it still is. Nothing else
has changed in the store. -/
structure Rewritten (name : String) (createAs : Option GroupType)
    (change : GroupSpec → GroupSpec) (p p' : Pipeline) : Prop where
  orderly : Orderly p'
  now_eq : p'.now = p.now
  others : ∀ other, other ≠ name → p'.group? other = p.group? other
  spec?_eq : p'.spec? name = (basis name createAs (p.spec? name)).map
    fun s => (change s).pruneActivity (Month.start p.now)

/-- What has ended well has rewritten the record that it starts from. -/
theorem Alone.rewritten (H : Alone name createAs change p₀ n p) {r : Option StoredGroup}
    (h : Aggregator.Ended change n (.ok r)) (hr : r.isSome ∨ createAs = none) :
    Rewritten name createAs change p₀ p := by
  refine ⟨H.orderly, H.now_eq, H.others, ?_⟩
  rcases h with ⟨hwritten, -⟩ | ⟨hn, hread, hsame⟩
  · obtain ⟨s, hbasis, hspec⟩ := H.written (by omega)
    rw [hspec, hbasis, Option.map_some]
  · have hstored : r = p.group? name := H.read hn r hread
    cases r with
    | some g =>
      obtain ⟨t, ht, hchanged⟩ := hsame g rfl
      obtain rfl : t = p₀.now := H.time t ht
      have hspec := spec?_of_group? hstored.symm
      rw [H.basis_eq hn hspec, hspec]
      exact congrArg (some ∘ StoredGroup.spec) hchanged.symm
    | none =>
      obtain rfl : createAs = none := hr.resolve_left (by decide)
      have hnone : p.spec? name = none := by rw [spec?, ← hstored]; rfl
      rcases H.unwritten hn with h | h
      · rw [← h, hnone]
        rfl
      · rw [← h, hnone, Option.map_none]

/-- An upsert that succeeds has rewritten its group, and created it if it was missing. -/
theorem upsert_run (h : Orderly p) {retry : RetryPolicy} {type : GroupType} {key : String}
    {usage : MemberUsage} {g : StoredGroup}
    (hok : (p.onGroups (Aggregator.upsert retry name type key usage)).1 = .ok g) :
    Rewritten name (some type) (·.upsertMember key usage) p
      (p.onGroups (Aggregator.upsert retry name type key usage)).2 := by
  obtain ⟨m, hpost, H⟩ := alone_run h (Aggregator.upsert_obeys (p := retry) (n := {}) rfl)
  rw [hok] at hpost
  exact H.rewritten hpost (.inl rfl)

/-- A removal that succeeds has rewritten its group, unless it was missing. -/
theorem remove_run (h : Orderly p) {retry : RetryPolicy} {key : String} {ended : Instant}
    {r : Option StoredGroup}
    (hok : (p.onGroups (Aggregator.remove retry name key ended)).1 = .ok r) :
    Rewritten name none (·.removeMember key ended) p
      (p.onGroups (Aggregator.remove retry name key ended)).2 := by
  obtain ⟨m, hpost, H⟩ := alone_run h (Aggregator.remove_obeys (p := retry) (n := {}) rfl)
  rw [hok] at hpost
  exact H.rewritten hpost (.inr rfl)

/-- A change that succeeds has rewritten its group. -/
theorem change_run (h : Orderly p) {retry : RetryPolicy} {c : GroupChange}
    (hok : (p.onGroups (c.program retry)).1.isOk) :
    Rewritten c.name c.createAs c.apply p (p.onGroups (c.program retry)).2 := by
  cases c with
  | upsert name type key usage =>
    simp only [onGroups, GroupChange.program, Program.monad_bind_eq, Program.run_bind] at hok ⊢
    cases hupsert : ((Aggregator.upsert retry name type key usage).run answerGroup p).1 with
    | ok g => exact upsert_run h hupsert
    | error e => rw [hupsert] at hok; cases hok
  | remove name key ended =>
    cases hremove : (p.onGroups (Aggregator.remove retry name key ended)).1 with
    | ok r => exact remove_run h hremove
    | error e => rw [GroupChange.program, hremove] at hok; cases hok

end Pipeline

end Chargeback
