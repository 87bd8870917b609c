import Chargeback.Group.Lock

/-!
# Changes of a group take turns

However many changes begin, and in whatever order they take their steps, no two changes
of one group hold its lock at the same time, although the lock is taken out of the table
again and again. It may be taken out only while nobody refers to it, and a change refers
to it from the moment at which it asks for it, long before it holds it: so all those who
wait for their turn wait for the same lock. The last change of a group finds that nobody
else refers to the lock, so that the table is empty whenever all is quiet.

A change writes between two steps of its own, while it holds the lock; the write does not
concern the table.

## Main definitions

* `LockTable.InUse`: a change of the group is under way.
* `LockTable.Sound`, `LockTable.Used`: the invariants of all tables.
* `LockTable.Reachable.takes_turns`: what follows for all tables that come about.
-/

namespace Chargeback

namespace LockTable

variable {t u : LockTable} {i j : Nat} {c d : LockCall} {s : LockStage} {group : String}

/-- A change of the group is under way. -/
def InUse (t : LockTable) (group : String) : Prop :=
  ∃ c ∈ t.calls, c.group = group ∧ c.stage.isUnderWay

/-- Every lock in the table has a change of its group under way. -/
def Used (t : LockTable) : Prop := ∀ group, (t.locks.get? group).isSome → t.InUse group

/-- The changes refer to the locks in the table, and hold them one at a time. -/
structure Sound (t : LockTable) : Prop where
  /-- What a change refers to is the lock that stands in the table for its group. -/
  referred : ∀ c ∈ t.calls, ∀ lock, c.stage.lock? = some lock →
    t.locks.get? c.group = some lock
  distinct : ∀ group other lock, t.locks.get? group = some lock →
    t.locks.get? other = some lock → group = other
  old : ∀ group lock, t.locks.get? group = some lock → lock < t.fresh
  alone : ∀ (i j : Nat) (c d : LockCall) (lock : Nat), t.calls[i]? = some c →
    t.calls[j]? = some d → c.stage.held? = some lock → d.stage.held? = some lock → i = j

/-! ## A change at another stage -/

theorem getElem?_setStage (hi : t.calls[i]? = some c) (s : LockStage) (j : Nat) :
    (t.setStage i c s).calls[j]? = if i = j then some { c with stage := s } else t.calls[j]? := by
  have hlt : i < t.calls.length := (List.getElem?_eq_some_iff.mp hi).1
  simp [setStage, List.getElem?_set, hlt]

theorem mem_setStage (h : d ∈ (t.setStage i c s).calls) :
    d ∈ t.calls ∨ d = { c with stage := s } :=
  List.mem_or_eq_of_mem_set h

/-- Nobody else holds a lock that is free, or that the change holds already. -/
theorem Sound.held_elsewhere (H : t.Sound) (hi : t.calls[i]? = some c) {lock : Nat}
    (hheld : c.stage.held? = some lock ∨ t.isFree lock) (hj : t.calls[j]? = some d)
    (hd : d.stage.held? = some lock) : i = j := by
  rcases hheld with hc | hfree
  · exact H.alone i j c d lock hi hj hc hd
  · simp only [isFree, List.all_eq_true, decide_eq_true_eq] at hfree
    exact absurd hd (hfree d (List.mem_of_getElem? hj))

/-- A change may come to a stage in which it refers to the lock of its group, and holds
none but a free one or its own. -/
theorem Sound.setStage (H : t.Sound) (hi : t.calls[i]? = some c)
    (hlock : ∀ lock, s.lock? = some lock → t.locks.get? c.group = some lock)
    (hheld : ∀ lock, s.held? = some lock → c.stage.held? = some lock ∨ t.isFree lock) :
    (t.setStage i c s).Sound where
  referred := by
    intro d hd lock hrefers
    rcases mem_setStage hd with hd | rfl
    · exact H.referred d hd lock hrefers
    · exact hlock lock hrefers
  distinct := H.distinct
  old := H.old
  alone := by
    intro j k d e lock hj hk hd he
    rw [getElem?_setStage hi] at hj hk
    by_cases hij : i = j
    · by_cases hik : i = k
      · rw [← hij, ← hik]
      · rw [if_pos hij] at hj
        rw [if_neg hik] at hk
        cases hj
        exact absurd (H.held_elsewhere hi (hheld lock hd) hk he) hik
    · rw [if_neg hij] at hj
      by_cases hik : i = k
      · rw [if_pos hik] at hk
        cases hk
        exact absurd (H.held_elsewhere hi (hheld lock he) hj hd) hij
      · rw [if_neg hik] at hk
        exact H.alone j k d e lock hj hk hd he

theorem inUse_setStage_self (hi : t.calls[i]? = some c) (hs : s.isUnderWay) :
    (t.setStage i c s).InUse c.group := by
  refine ⟨{ c with stage := s }, List.mem_of_getElem? (i := i) ?_, rfl, hs⟩
  rw [getElem?_setStage hi, if_pos rfl]

theorem inUse_setStage_of_ne (hi : t.calls[i]? = some c) (hj : t.calls[j]? = some d)
    (hij : i ≠ j) (hd : d.stage.isUnderWay) : (t.setStage i c s).InUse d.group := by
  refine ⟨d, List.mem_of_getElem? (i := j) ?_, rfl, hd⟩
  rw [getElem?_setStage hi, if_neg hij, hj]

/-- A group stays in use while the change does not come to its end. -/
theorem InUse.setStage (h : t.InUse group) (hi : t.calls[i]? = some c) (hs : s.isUnderWay) :
    (t.setStage i c s).InUse group := by
  obtain ⟨d, hd, rfl, hway⟩ := h
  obtain ⟨j, hj⟩ := List.mem_iff_getElem?.mp hd
  by_cases hij : i = j
  · subst hij
    rw [hi] at hj
    cases hj
    exact inUse_setStage_self hi hs
  · exact inUse_setStage_of_ne hi hj hij hway

theorem Used.setStage (U : t.Used) (hi : t.calls[i]? = some c) (hs : s.isUnderWay) :
    (t.setStage i c s).Used :=
  fun group hlock => (U group hlock).setStage hi hs

/-! ## Asking for a lock -/

@[simp] theorem calls_lockFor (t : LockTable) (group : String) :
    (t.lockFor group).2.calls = t.calls := by
  rw [lockFor]
  split <;> rfl

theorem get?_lockFor (t : LockTable) (group other : String) :
    (t.lockFor group).2.locks.get? other =
      if group = other then some (t.lockFor group).1 else t.locks.get? other := by
  rw [lockFor]
  split
  next lock hlock =>
    by_cases h : group = other
    · rw [if_pos h, ← h, hlock]
    · rw [if_neg h]
  next => exact KeyMap.get?_insert t.locks group other t.fresh

/-- A new lock is none of those in the table, and nobody has referred to it yet. -/
theorem Sound.lockFor (H : t.Sound) (group : String) : (t.lockFor group).2.Sound := by
  rw [LockTable.lockFor]
  split
  next => exact H
  next hnone =>
    have hget (other : String) := KeyMap.get?_insert t.locks group other t.fresh
    refine ⟨?_, ?_, ?_, H.alone⟩
    · intro c hc lock hrefers
      have hlock := H.referred c hc lock hrefers
      have hne : group ≠ c.group := by
        intro heq
        rw [← heq, hnone] at hlock
        cases hlock
      rw [hget, if_neg hne, hlock]
    · intro g other lock hg hother
      rw [hget] at hg hother
      split at hg
      next hgroup =>
        split at hother
        next hgroup' => rw [← hgroup, ← hgroup']
        next =>
          cases hg
          exact absurd (H.old other t.fresh hother) (Nat.lt_irrefl _)
      next =>
        split at hother
        next =>
          cases hother
          exact absurd (H.old g t.fresh hg) (Nat.lt_irrefl _)
        next => exact H.distinct g other lock hg hother
    · intro g lock hg
      rw [hget] at hg
      split at hg
      next =>
        cases hg
        exact Nat.lt_succ_self _
      next => exact Nat.lt_succ_of_lt (H.old g lock hg)

/-- The lock that was asked for is in use from then on. -/
theorem Used.ask (U : t.Used) (hi : t.calls[i]? = some c) (lock : Nat) :
    ((t.lockFor c.group).2.setStage i c (.waiting lock)).Used := by
  intro group hlock
  have hi' : (t.lockFor c.group).2.calls[i]? = some c := by rw [calls_lockFor, hi]
  change ((t.lockFor c.group).2.locks.get? group).isSome at hlock
  rw [get?_lockFor] at hlock
  by_cases hgroup : c.group = group
  · subst hgroup
    exact inUse_setStage_self hi' rfl
  · rw [if_neg hgroup] at hlock
    obtain ⟨d, hd, huse⟩ := U group hlock
    exact InUse.setStage ⟨d, by rwa [calls_lockFor], huse⟩ hi' rfl

/-! ## Clearing the table -/

/-- The lock of a group is taken out if nobody refers to it. -/
theorem evict_cases (t : LockTable) (group : String) :
    (∃ lock, t.locks.get? group = some lock ∧ (∀ c ∈ t.calls, c.stage.lock? ≠ some lock) ∧
        t.evict group = { t with locks := t.locks.erase group }) ∨
      (∀ lock, t.locks.get? group = some lock → ∃ c ∈ t.calls, c.stage.lock? = some lock) ∧
        t.evict group = t := by
  rw [evict]
  cases hlock : t.locks.get? group with
  | none => exact .inr ⟨nofun, rfl⟩
  | some lock =>
    by_cases hunused : t.isUnused lock
    · have hnobody : ∀ c ∈ t.calls, c.stage.lock? ≠ some lock := by
        simpa [isUnused] using hunused
      exact .inl ⟨lock, rfl, hnobody, if_pos hunused⟩
    · have hsomebody : ∃ c ∈ t.calls, c.stage.lock? = some lock := by
        simpa [isUnused] using hunused
      refine .inr ⟨?_, if_neg hunused⟩
      intro l hl
      rw [← Option.some_inj.mp hl]
      exact hsomebody

@[simp] theorem calls_evict (t : LockTable) (group : String) : (t.evict group).calls = t.calls := by
  rcases evict_cases t group with ⟨_, _, _, h⟩ | ⟨_, h⟩ <;> rw [h]

theorem Sound.evict (H : t.Sound) (group : String) : (t.evict group).Sound := by
  rcases evict_cases t group with ⟨lock, hlock, hnobody, h⟩ | ⟨_, h⟩
  · rw [h]
    have hget (other : String) := KeyMap.get?_erase t.locks group other
    have hkept : ∀ other l, (t.locks.erase group).get? other = some l →
        t.locks.get? other = some l := by
      intro other l hother
      rw [hget] at hother
      split at hother
      next => cases hother
      next => exact hother
    refine ⟨?_, ?_, ?_, H.alone⟩
    · intro c hc l hrefers
      have hl := H.referred c hc l hrefers
      have hne : group ≠ c.group := by
        intro heq
        rw [← heq, hlock] at hl
        cases hl
        exact hnobody c hc hrefers
      rw [hget, if_neg hne, hl]
    · intro g other l hg hother
      exact H.distinct g other l (hkept g l hg) (hkept other l hother)
    · intro g l hg
      exact H.old g l (hkept g l hg)
  · rw [h]
    exact H

/-- The lock of its own group that a leaving change leaves behind is one that another change
refers to. -/
theorem Sound.exists_other_of_own (H : t.Sound) (hi : t.calls[i]? = some c)
    (hc : c.stage = .leaving) (hlock : ((t.evict c.group).locks.get? c.group).isSome) :
    ∃ j d, i ≠ j ∧ t.calls[j]? = some d ∧ d.group = c.group ∧ d.stage.isUnderWay := by
  rcases evict_cases t c.group with ⟨_, _, _, h⟩ | ⟨hsomebody, h⟩
  · rw [h, KeyMap.get?_erase_self] at hlock
    cases hlock
  · rw [h] at hlock
    obtain ⟨lock, hget⟩ := Option.isSome_iff_exists.mp hlock
    obtain ⟨d, hd, hrefers⟩ := hsomebody lock hget
    obtain ⟨j, hj⟩ := List.mem_iff_getElem?.mp hd
    refine ⟨j, d, ?_, hj, ?_, LockStage.isUnderWay_of_lock? hrefers⟩
    · rintro rfl
      rw [hi] at hj
      cases hj
      rw [hc] at hrefers
      cases hrefers
    · exact H.distinct d.group c.group lock (H.referred d hd lock hrefers) hget

/-- Clearing the lock of one group leaves the changes of another one under way. -/
theorem Used.exists_other_of_ne (U : t.Used) (hi : t.calls[i]? = some c) (hne : c.group ≠ group)
    (hlock : ((t.evict c.group).locks.get? group).isSome) :
    ∃ j d, i ≠ j ∧ t.calls[j]? = some d ∧ d.group = group ∧ d.stage.isUnderWay := by
  have hget : (t.locks.get? group).isSome := by
    rcases evict_cases t c.group with ⟨_, _, _, h⟩ | ⟨_, h⟩
    · rw [h, KeyMap.get?_erase, if_neg hne] at hlock
      exact hlock
    · rwa [h] at hlock
  obtain ⟨d, hd, hgroup, hway⟩ := U group hget
  obtain ⟨j, hj⟩ := List.mem_iff_getElem?.mp hd
  refine ⟨j, d, ?_, hj, hgroup, hway⟩
  rintro rfl
  rw [hi] at hj
  cases hj
  exact hne hgroup

/-- Who clears the table leaves locks behind only for groups that others change still. -/
theorem Sound.used_evict (H : t.Sound) (U : t.Used) (hi : t.calls[i]? = some c)
    (hc : c.stage = .leaving) : ((t.evict c.group).setStage i c .finished).Used := by
  intro group hlock
  change ((t.evict c.group).locks.get? group).isSome at hlock
  -- Another change of the group is needed, as this one comes to its end.
  have hother : ∃ j d, i ≠ j ∧ t.calls[j]? = some d ∧ d.group = group ∧ d.stage.isUnderWay := by
    by_cases hgroup : c.group = group
    · subst hgroup
      exact H.exists_other_of_own hi hc hlock
    · exact U.exists_other_of_ne hi hgroup hlock
  obtain ⟨j, d, hij, hj, rfl, hway⟩ := hother
  have hi' : (t.evict c.group).calls[i]? = some c := by rw [calls_evict, hi]
  exact inUse_setStage_of_ne hi' (by rw [calls_evict, hj]) hij hway

/-! ## Steps -/

/-- A step keeps to the locks in the table. -/
theorem Sound.advanceCall (H : t.Sound) (U : t.Used) (hi : t.calls[i]? = some c)
    (hstep : t.advanceCall i c = some u) : u.Sound ∧ u.Used := by
  have hreferred := H.referred c (List.mem_of_getElem? hi)
  rw [LockTable.advanceCall] at hstep
  split at hstep
  next hc =>
    cases hstep
    have hi' : (t.lockFor c.group).2.calls[i]? = some c := by rw [calls_lockFor, hi]
    refine ⟨(H.lockFor c.group).setStage hi' ?_ nofun, U.ask hi _⟩
    intro lock hlock
    rw [get?_lockFor, if_pos rfl]
    exact hlock
  next lock hc =>
    by_cases hfree : t.isFree lock
    · rw [if_pos hfree] at hstep
      cases hstep
      refine ⟨H.setStage hi ?_ ?_, U.setStage hi rfl⟩
      · intro l hl
        cases hl
        exact hreferred lock (by rw [hc]; rfl)
      · intro l hl
        cases hl
        exact .inr hfree
    · rw [if_neg hfree] at hstep
      cases hstep
  next lock hc =>
    cases hstep
    refine ⟨H.setStage hi ?_ ?_, U.setStage hi rfl⟩
    · intro l hl
      exact hreferred l (by rw [hc]; exact hl)
    · intro l hl
      exact .inl (by rw [hc]; exact hl)
  next lock hc =>
    cases hstep
    refine ⟨H.setStage hi ?_ nofun, U.setStage hi rfl⟩
    intro l hl
    exact hreferred l (by rw [hc]; exact hl)
  next lock hc =>
    cases hstep
    exact ⟨H.setStage hi nofun nofun, U.setStage hi rfl⟩
  next hc =>
    cases hstep
    have hi' : (t.evict c.group).calls[i]? = some c := by rw [calls_evict, hi]
    exact ⟨(H.evict c.group).setStage hi' nofun nofun, H.used_evict U hi hc⟩
  next => cases hstep

/-- A change that begins does not refer to any lock. -/
theorem Sound.begin (H : t.Sound) (group : String) : (t.begin group).Sound := by
  refine ⟨?_, H.distinct, H.old, ?_⟩
  · intro c hc lock hrefers
    rcases List.mem_append.mp hc with hc | hc
    · exact H.referred c hc lock hrefers
    · rw [List.mem_singleton.mp hc] at hrefers
      cases hrefers
  · have hplace : ∀ (i : Nat) (c : LockCall) (lock : Nat), (t.begin group).calls[i]? = some c →
        c.stage.held? = some lock → t.calls[i]? = some c := by
      intro i c lock hi hheld
      rw [LockTable.begin, List.getElem?_append] at hi
      split at hi
      next => exact hi
      next =>
        rw [List.mem_singleton.mp (List.mem_of_getElem? hi)] at hheld
        cases hheld
    intro i j c d lock hi hj hc hd
    exact H.alone i j c d lock (hplace i c lock hi hc) (hplace j d lock hj hd) hc hd

theorem Used.begin (U : t.Used) (group : String) : (t.begin group).Used := by
  intro g hlock
  obtain ⟨c, hc, huse⟩ := U g hlock
  exact ⟨c, List.mem_append_left _ hc, huse⟩

/-- By induction on the steps. -/
theorem Reachable.sound (h : Reachable t) : t.Sound ∧ t.Used := by
  induction h with
  | empty => exact ⟨⟨nofun, nofun, nofun, nofun⟩, nofun⟩
  | begin group _ ih => exact ⟨ih.1.begin group, ih.2.begin group⟩
  | advance i _ step ih =>
    obtain ⟨c, hi, hstep⟩ := Option.bind_eq_some_iff.mp step
    exact ih.1.advanceCall ih.2 hi hstep

/-- As long as a change has not finished, some change can take its next step: a change that
holds a lock always can, and if none does, all locks are free. -/
theorem exists_advance (hc : c ∈ t.calls) (hunfinished : c.stage ≠ .finished) :
    ∃ i u, t.advance i = some u := by
  by_cases hheld : ∃ d ∈ t.calls, d.stage.held?.isSome
  · obtain ⟨d, hd, hsome⟩ := hheld
    obtain ⟨j, hj⟩ := List.mem_iff_getElem?.mp hd
    refine ⟨j, ?_⟩
    rw [advance, hj, Option.bind_some, advanceCall]
    cases hstage : d.stage with
    | holding lock => exact ⟨_, rfl⟩
    | written lock => exact ⟨_, rfl⟩
    | _ => simp [hstage, LockStage.held?] at hsome
  · obtain ⟨i, hi⟩ := List.mem_iff_getElem?.mp hc
    refine ⟨i, ?_⟩
    rw [advance, hi, Option.bind_some, advanceCall]
    cases hstage : c.stage with
    | finished => exact absurd hstage hunfinished
    | waiting lock =>
      have hfree : t.isFree lock := by
        simp only [isFree, List.all_eq_true, decide_eq_true_eq]
        intro d hd hlock
        exact hheld ⟨d, hd, by rw [hlock]; rfl⟩
      exact ⟨_, if_pos hfree⟩
    | _ => exact ⟨_, rfl⟩

/-- **Changes of a group take turns.** However many changes there are, and in whatever order
they have taken their steps: at most one change of each group holds its lock; all that refer
to a lock of their group refer to the one in the table; when no change is under way the table
is empty; and as long as a change has not finished, some change can take its next step. -/
theorem Reachable.takes_turns (h : Reachable t) :
    (∀ (i j : Nat) (c d : LockCall), t.calls[i]? = some c → t.calls[j]? = some d →
        c.group = d.group → c.stage.held?.isSome → d.stage.held?.isSome → i = j) ∧
      (∀ c ∈ t.calls, ∀ lock, c.stage.lock? = some lock → t.locks.get? c.group = some lock) ∧
      ((∀ c ∈ t.calls, ¬c.stage.isUnderWay) → t.locks = .empty) ∧
      ∀ c ∈ t.calls, c.stage ≠ .finished → ∃ i u, t.advance i = some u := by
  obtain ⟨H, U⟩ := h.sound
  refine ⟨?_, H.referred, ?_, fun c hc hunfinished => exists_advance hc hunfinished⟩
  · intro i j c d hi hj hgroup hc hd
    obtain ⟨lock, hlock⟩ := Option.isSome_iff_exists.mp hc
    obtain ⟨other, hother⟩ := Option.isSome_iff_exists.mp hd
    have hown := H.referred c (List.mem_of_getElem? hi) lock (LockStage.lock?_of_held? hlock)
    have hsame := H.referred d (List.mem_of_getElem? hj) other (LockStage.lock?_of_held? hother)
    rw [hgroup, hsame] at hown
    cases hown
    exact H.alone i j c d lock hi hj hlock hother
  · intro hquiet
    ext group lock
    rw [KeyMap.get?_empty]
    constructor
    · intro hlock
      obtain ⟨c, hc, -, hway⟩ := U group (by rw [hlock]; rfl)
      exact absurd hway (hquiet c hc)
    · exact nofun

/-- The table after the changes at the given places have taken a step each, one after
the other. A change that cannot take its step is passed over. -/
def advanceAll (t : LockTable) (places : List Nat) : LockTable :=
  places.foldl (fun t i => (t.advance i).getD t) t

theorem Reachable.advanceAll (h : Reachable t) (places : List Nat) :
    Reachable (t.advanceAll places) := by
  induction places generalizing t with
  | nil => exact h
  | cons i places ih =>
    refine ih (t := (t.advance i).getD t) ?_
    cases hstep : t.advance i with
    | none => exact h
    | some u => exact h.advance i hstep

/-- Two changes of one group and one of another have asked for their locks. The first has
gone through all its stages while the second waited, and the second holds the lock now. -/
def handedOver : LockTable :=
  (((({} : LockTable).begin "shop").begin "shop").begin "db").advanceAll
    [0, 1, 2, 0, 1, 0, 0, 0, 0, 1]

theorem handedOver_takes_turns :
    handedOver.Reachable ∧
      handedOver.calls.map LockCall.stage = [.finished, .holding 0, .waiting 1] ∧
      (∀ (i : Nat) (c : LockCall), handedOver.calls[i]? = some c → c.group = "shop" →
        c.stage.held?.isSome → i = 1) ∧
      handedOver.locks.get? "shop" = some 0 ∧
      (∃ i u, handedOver.advance i = some u) ∧
      (handedOver.advanceAll [1, 1, 1, 1, 2, 2, 2, 2, 2]).locks = .empty := by
  have hreachable : handedOver.Reachable :=
    (((Reachable.empty.begin "shop").begin "shop").begin "db").advanceAll _
  have hstages : handedOver.calls.map LockCall.stage = [.finished, .holding 0, .waiting 1] := by
    decide +kernel
  have hsecond : handedOver.calls[1]? = some { group := "shop", stage := .holding 0 } := by
    decide +kernel
  have hmem := List.mem_of_getElem? hsecond
  obtain ⟨hturns, hrefers, -, hgoesOn⟩ := hreachable.takes_turns
  refine ⟨hreachable, hstages, ?_, hrefers _ hmem 0 rfl, hgoesOn _ hmem (by decide), ?_⟩
  · intro i c hi hgroup hheld
    exact hturns i 1 c _ hi hsecond hgroup hheld rfl
  · refine (hreachable.advanceAll [1, 1, 1, 1, 2, 2, 2, 2, 2]).takes_turns.2.2.1 ?_
    decide +kernel

end LockTable

end Chargeback
