import Chargeback.Store.Memory

/-!
# What calls do to a store in memory

A call that fails leaves the records, the version and the count of writes as they
are. A call that writes gives the record a version that no record has had before:
versions are the texts of one growing number. So a record that somebody has read is
the stored one as long as the stored one has its version.

## Main definitions

* `MemoryStore.SameRecords`: stores that differ at most in the failures to come.
* `MemoryStore.Carried`: what a call does when it does not fail.
* `MemoryStore.Calm`: the stores that let no call fail.
* `MemoryStore.Sound`: records stand under their names and have versions given out.
* `MemoryStore.Reachable`: the stores that come about by calls.
* `MemoryStore.Remembers`: a record that was stored at some time.
-/

namespace Chargeback

namespace MemoryStore

variable {m m' : MemoryStore} {g g' : StoredGroup} {name : String} {e : StoreError}

/-! ## Versions -/

theorem versionText_injective {a b : Nat} (h : versionText a = versionText b) : a = b := by
  have hd : Decimal.digits a = Decimal.digits b := String.ofList_injective h
  rw [← Decimal.value_digits a, hd, Decimal.value_digits]

@[simp] theorem write_fst_spec (m : MemoryStore) (g : StoredGroup) : (m.write g).1.spec = g.spec :=
  rfl

@[simp] theorem write_fst_version (m : MemoryStore) (g : StoredGroup) :
    (m.write g).1.version = some (versionText (m.version + 1)) := rfl

@[simp] theorem write_snd_version (m : MemoryStore) (g : StoredGroup) :
    (m.write g).2.version = m.version + 1 := rfl

theorem get?_write_snd (m : MemoryStore) (g : StoredGroup) (name : String) :
    (m.write g).2.groups.get? name =
      if g.name = name then some (m.write g).1 else m.groups.get? name :=
  KeyMap.get?_insert m.groups g.name name (m.write g).1

theorem get?_write_self (m : MemoryStore) (h : g.name = name) :
    (m.write g).2.groups.get? name = some (m.write g).1 := by
  rw [get?_write_snd, if_pos h]

theorem get?_write_of_ne (m : MemoryStore) (h : g.name ≠ name) :
    (m.write g).2.groups.get? name = m.groups.get? name := by
  rw [get?_write_snd, if_neg h]

/-! ## Calls -/

/-- The stores differ at most in the failures that are still to come. -/
structure SameRecords (m m' : MemoryStore) : Prop where
  groups_eq : m'.groups = m.groups
  version_eq : m'.version = m.version
  writes_eq : m'.writes = m.writes

theorem SameRecords.refl (m : MemoryStore) : SameRecords m m := ⟨rfl, rfl, rfl⟩

/-- A call that is not made to fail does what it is meant to do. -/
theorem failing_cases {α : Type} (m : MemoryStore)
    (call : MemoryStore → Except StoreError α × MemoryStore) :
    m.failing call = call m ∨
      ∃ e, (m.failing call).1 = .error e ∧ SameRecords m (m.failing call).2 := by
  unfold failing
  split
  · exact .inl rfl
  · exact .inr ⟨_, rfl, rfl, rfl, rfl⟩

/-- A look-up gives what is stored, or it fails; it changes no record. -/
theorem get_cases (name : String) (m : MemoryStore) :
    get name m = (.ok (m.groups.get? name), m) ∨
      ∃ e, (get name m).1 = .error e ∧ SameRecords m (get name m).2 :=
  m.failing_cases _

/-- A creation writes under a name that is not taken, or it fails and changes no
record. -/
theorem create_cases (g : StoredGroup) (m : MemoryStore) :
    (m.groups.get? g.name = none ∧ create g m = (.ok (m.write g).1, (m.write g).2)) ∨
      ∃ e, (create g m).1 = .error e ∧ SameRecords m (create g m).2 := by
  unfold create
  rcases m.failing_cases _ with h | h
  · rw [h]
    cases hg : m.groups.get? g.name with
    | none => exact .inl ⟨rfl, rfl⟩
    | some current => exact .inr ⟨_, rfl, .refl m⟩
  · exact .inr h

/-- A replacement writes if the stored record has the version of the new one, or it
fails and changes no record. -/
theorem replace_cases (g : StoredGroup) (m : MemoryStore) :
    (∃ current, m.groups.get? g.name = some current ∧ current.version = g.version ∧
        replace g m = (.ok (m.write g).1, (m.write g).2)) ∨
      ∃ e, (replace g m).1 = .error e ∧ SameRecords m (replace g m).2 := by
  unfold replace
  rcases m.failing_cases _ with h | h
  · rw [h]
    by_cases hp : m.pendingConflicts ≠ 0
    · rw [if_pos hp]
      exact .inr ⟨_, rfl, rfl, rfl, rfl⟩
    · rw [if_neg hp]
      cases hg : m.groups.get? g.name with
      | none => exact .inr ⟨_, rfl, .refl m⟩
      | some current =>
        by_cases hv : current.version = g.version
        · exact .inl ⟨current, rfl, hv, if_neg (not_not_intro hv)⟩
        · refine .inr ⟨.conflict g.name, ?_⟩
          dsimp only
          rw [if_pos hv]
          exact ⟨rfl, .refl m⟩
  · exact .inr h

theorem list_cases (m : MemoryStore) :
    list m = (.ok m.groups.values, m) ∨
      ∃ e, (list m).1 = .error e ∧ SameRecords m (list m).2 :=
  m.failing_cases _

/-- A call with its answer and the store after it, when the call has done what it is meant
to do. -/
inductive Carried (m : MemoryStore) : (r : StoreRequest) → r.Answer → MemoryStore → Prop where
  | get (name : String) : Carried m (.get name) (.ok (m.groups.get? name)) m
  | create {g : StoredGroup} (habsent : m.groups.get? g.name = none) :
    Carried m (.create g) (.ok (m.write g).1) (m.write g).2
  | replace {g current : StoredGroup} (hcurrent : m.groups.get? g.name = some current)
    (hversion : current.version = g.version) :
    Carried m (.replace g) (.ok (m.write g).1) (m.write g).2
  | list : Carried m .list (.ok m.groups.values) m

/-- A call does what it is meant to do, or it fails and changes no record. -/
theorem answer_cases (r : StoreRequest) (m : MemoryStore) :
    Carried m r (answer r m).1 (answer r m).2 ∨
      ∃ e, (answer r m).1 = .error e ∧ SameRecords m (answer r m).2 := by
  cases r with
  | get name =>
    rcases get_cases name m with h | h
    · rw [answer, h]
      exact .inl (.get name)
    · exact .inr h
  | create g =>
    rcases create_cases g m with ⟨habsent, h⟩ | h
    · rw [answer, h]
      exact .inl (.create habsent)
    · exact .inr h
  | replace g =>
    rcases replace_cases g m with ⟨current, hcurrent, hversion, h⟩ | h
    · rw [answer, h]
      exact .inl (.replace hcurrent hversion)
    · exact .inr h
  | list =>
    rcases list_cases m with h | h
    · rw [answer, h]
      exact .inl .list
    · exact .inr h

/-! ## Undisturbed stores -/

/-- No failure and no conflict is still to come. -/
structure Calm (m : MemoryStore) : Prop where
  failures : m.pendingFailures = 0
  conflicts : m.pendingConflicts = 0

theorem Calm.failing_eq {α : Type} (h : m.Calm)
    (call : MemoryStore → Except StoreError α × MemoryStore) : m.failing call = call m :=
  if_pos h.failures

theorem Calm.get_eq (h : m.Calm) (name : String) : get name m = (.ok (m.groups.get? name), m) :=
  h.failing_eq _

theorem Calm.list_eq (h : m.Calm) : list m = (.ok m.groups.values, m) := h.failing_eq _

theorem Calm.create_eq (h : m.Calm) (habsent : m.groups.get? g.name = none) :
    create g m = (.ok (m.write g).1, (m.write g).2) := by
  rw [create, h.failing_eq, habsent]

theorem Calm.replace_eq (h : m.Calm) {current : StoredGroup}
    (hcurrent : m.groups.get? g.name = some current) (hversion : current.version = g.version) :
    replace g m = (.ok (m.write g).1, (m.write g).2) := by
  rw [replace, h.failing_eq, if_neg (not_not_intro h.conflicts), hcurrent]
  exact if_neg (not_not_intro hversion)

/-- Calls make no other calls fail. -/
theorem Calm.answer (h : m.Calm) (r : StoreRequest) : Calm (answer r m).2 := by
  cases r with
  | get name =>
    rw [MemoryStore.answer, h.get_eq]
    exact h
  | list =>
    rw [MemoryStore.answer, h.list_eq]
    exact h
  | create g =>
    rw [MemoryStore.answer, create, h.failing_eq]
    split
    next => exact h
    next => exact ⟨h.failures, h.conflicts⟩
  | replace g =>
    rw [MemoryStore.answer, replace, h.failing_eq, if_neg (not_not_intro h.conflicts)]
    split
    next => exact h
    next =>
      split
      next => exact h
      next => exact ⟨h.failures, h.conflicts⟩

/-! ## Sound stores -/

/-- Records stand under their names, and their versions have been given out. -/
structure Sound (m : MemoryStore) : Prop where
  named : ∀ {name g}, m.groups.get? name = some g → g.name = name
  versioned : ∀ {name g}, m.groups.get? name = some g →
    ∃ v ≤ m.version, g.version = some (versionText v)

theorem Sound.sameRecords (h : Sound m) (hs : SameRecords m m') : Sound m' where
  named hg := h.named (hs.groups_eq ▸ hg)
  versioned hg := hs.version_eq ▸ h.versioned (hs.groups_eq ▸ hg)

theorem Sound.write (h : Sound m) (g : StoredGroup) : Sound (m.write g).2 where
  named {name g'} hg := by
    rw [get?_write_snd] at hg
    split at hg
    next heq => cases hg; exact heq
    next => exact h.named hg
  versioned {name g'} hg := by
    rw [get?_write_snd] at hg
    rw [write_snd_version]
    split at hg
    next => cases hg; exact ⟨m.version + 1, Nat.le_refl _, rfl⟩
    next =>
      obtain ⟨v, hv, hg'⟩ := h.versioned hg
      exact ⟨v, Nat.le_succ_of_le hv, hg'⟩

theorem Sound.carried (h : Sound m) {r : StoreRequest} {a : r.Answer} (hc : Carried m r a m') :
    Sound m' := by
  cases hc with
  | get name => exact h
  | create habsent => exact h.write _
  | replace hcurrent hversion => exact h.write _
  | list => exact h

theorem Sound.answer (h : Sound m) (r : StoreRequest) : Sound (answer r m).2 := by
  rcases answer_cases r m with hc | ⟨e, -, hs⟩
  · exact h.carried hc
  · exact h.sameRecords hs

/-- The stores that come about by calls from one without groups. -/
inductive Reachable : MemoryStore → Prop where
  | empty (subscribers : List Subscriber) : Reachable { subscribers }
  | answer {m : MemoryStore} (r : StoreRequest) (h : Reachable m) : Reachable (m.answer r).2
  | injectConflicts {m : MemoryStore} (n : Nat) (h : Reachable m) :
    Reachable (m.injectConflicts n)
  | injectFailures {m : MemoryStore} (n : Nat) (h : Reachable m) : Reachable (m.injectFailures n)

theorem Reachable.sound (h : Reachable m) : Sound m := by
  induction h with
  | empty subscribers =>
    have hnone (name : String) : (KeyMap.empty : KeyMap StoredGroup).get? name = none := rfl
    constructor
    · intro name g hg; rw [hnone] at hg; cases hg
    · intro name g hg; rw [hnone] at hg; cases hg
  | answer r _ ih => exact ih.answer r
  | injectConflicts n _ ih => exact ih.sameRecords ⟨rfl, rfl, rfl⟩
  | injectFailures n _ ih => exact ih.sameRecords ⟨rfl, rfl, rfl⟩

/-! ## Records read earlier -/

/-- A record that was stored under the name at some time: it has a version that has
been given out, and is the stored record if that one has the same version. -/
structure Remembers (m : MemoryStore) (name : String) (g : StoredGroup) : Prop where
  name_eq : g.name = name
  versioned : ∃ v ≤ m.version, g.version = some (versionText v)
  eq_of_version : ∀ {current}, m.groups.get? name = some current →
    current.version = g.version → current = g

theorem Sound.remembers (h : Sound m) (hg : m.groups.get? name = some g) : Remembers m name g where
  name_eq := h.named hg
  versioned := h.versioned hg
  eq_of_version hc _ := Option.some_inj.mp (hc.symm.trans hg)

theorem Remembers.sameRecords (h : Remembers m name g) (hs : SameRecords m m') :
    Remembers m' name g where
  name_eq := h.name_eq
  versioned := hs.version_eq ▸ h.versioned
  eq_of_version hc := h.eq_of_version (hs.groups_eq ▸ hc)

/-- The version of a new write is later than all versions that were ever read. -/
theorem Remembers.write (h : Remembers m name g) (g' : StoredGroup) :
    Remembers (m.write g').2 name g where
  name_eq := h.name_eq
  versioned := by
    obtain ⟨v, hv, hg⟩ := h.versioned
    exact ⟨v, Nat.le_succ_of_le hv, hg⟩
  eq_of_version {current} hc hversion := by
    rw [get?_write_snd] at hc
    split at hc
    next =>
      obtain ⟨v, hv, hg⟩ := h.versioned
      cases hc
      rw [write_fst_version, hg, Option.some_inj] at hversion
      have := versionText_injective hversion
      omega
    next => exact h.eq_of_version hc hversion

end MemoryStore

end Chargeback
