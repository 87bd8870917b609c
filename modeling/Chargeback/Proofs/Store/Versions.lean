import Chargeback.Proofs.Histories
import Chargeback.Proofs.Store.Memory
import Mathlib.Data.List.Nodup

/-!
# Comparing versions and swapping records

A store in memory is asked for one thing after the other, by whoever wants something, while
failures and conflicts are ordered for it now and then. What it holds is what has been written
last under each name, and the versions of the writes are the numbers one, two, three and so on.
So a record that is written back is taken if nobody has written under its name since it was
given out, and never again after that.

## Main definitions

* `AnsweredCall`: a call with its answer; the records that it has given out and written.
* `StoreMove`, `StoreRun.run`: what can happen to a store, and what comes of it.
* `StoreRun.Kept`: the invariant of all runs.
* `StoreRun.Swaps`: what a store that compares and swaps promises after a run.
-/

namespace Chargeback

/-! ## Calls and their answers -/

/-- A call that has been answered. -/
structure AnsweredCall where
  request : StoreRequest
  answer : request.Answer

namespace AnsweredCall

/-- The records that the caller has been given. -/
def given : AnsweredCall → List StoredGroup
  | ⟨.get _, .ok (some g)⟩ => [g]
  | ⟨.create _, .ok g⟩ => [g]
  | ⟨.replace _, .ok g⟩ => [g]
  | ⟨.list, .ok groups⟩ => groups
  | _ => []

/-- The record that a successful creation or replacement has written. -/
def written? : AnsweredCall → Option StoredGroup
  | ⟨.create _, .ok g⟩ => some g
  | ⟨.replace _, .ok g⟩ => some g
  | _ => none

theorem given_error (r : StoreRequest) (e : StoreError) : given ⟨r, .error e⟩ = [] := by
  cases r <;> rfl

theorem written?_error (r : StoreRequest) (e : StoreError) : written? ⟨r, .error e⟩ = none := by
  cases r <;> rfl

end AnsweredCall

/-! ## Which calls succeed -/

namespace MemoryStore

variable {m : MemoryStore} {r : StoreRequest} {g : StoredGroup} {e : StoreError}

/-- A failure or a conflict that has been ordered strikes the call. -/
def Struck (m : MemoryStore) : StoreRequest → Prop
  | .replace _ => m.pendingFailures ≠ 0 ∨ m.pendingConflicts ≠ 0
  | _ => m.pendingFailures ≠ 0

/-- The call succeeds when it is made now. -/
def Succeeds (m : MemoryStore) (r : StoreRequest) : Prop := ∃ a, (m.answer r).1 = .ok a

/-- A call that fails has changed no record. -/
theorem sameRecords_of_error (h : (m.answer r).1 = .error e) : m.SameRecords (m.answer r).2 := by
  rcases answer_cases r m with hc | ⟨-, -, hs⟩
  · generalize m.answer r = answered at h hc
    obtain ⟨a, m'⟩ := answered
    dsimp only at h hc
    subst h
    cases hc
  · exact hs

theorem listSubscribers_sameRecords (m : MemoryStore) : m.SameRecords m.listSubscribers.2 := by
  rcases m.failing_cases fun m => (.ok m.subscribers, m) with h | ⟨e, -, h⟩
  · rw [listSubscribers, h]
    exact .refl m
  · exact h

/-- A creation succeeds exactly when nothing strikes it and the name is not taken. -/
theorem succeeds_create_iff :
    m.Succeeds (.create g) ↔ ¬m.Struck (.create g) ∧ m.groups.get? g.name = none := by
  unfold Succeeds answer create failing Struck
  by_cases hf : m.pendingFailures = 0
  · cases hg : m.groups.get? g.name with
    | none => simp [hf, hg]
    | some current => simp [hf, hg]
  · simp [hf]

/-- A replacement succeeds exactly when nothing strikes it and the stored record has the
version of the new one. -/
theorem succeeds_replace_iff :
    m.Succeeds (.replace g) ↔ ¬m.Struck (.replace g) ∧
      ∃ current, m.groups.get? g.name = some current ∧ current.version = g.version := by
  unfold Succeeds answer replace failing Struck
  by_cases hf : m.pendingFailures = 0
  · by_cases hp : m.pendingConflicts = 0
    · cases hg : m.groups.get? g.name with
      | none => simp [hf, hp, hg]
      | some current => by_cases hv : current.version = g.version <;> simp [hf, hp, hg, hv]
    · simp [hf, hp]
  · simp [hf]

end MemoryStore

variable {calls earlier since : List AnsweredCall} {c : AnsweredCall} {g copy : StoredGroup}
  {name : String}

/-- The records of all successful writes, in their order. -/
def writtenRecords (calls : List AnsweredCall) : List StoredGroup :=
  calls.filterMap AnsweredCall.written?

/-- The record that has been written last under a name. -/
def lastWritten? (name : String) (calls : List AnsweredCall) : Option StoredGroup :=
  ((writtenRecords calls).filter fun g => g.name = name).getLast?

theorem writtenRecords_append :
    writtenRecords (earlier ++ since) = writtenRecords earlier ++ writtenRecords since :=
  List.filterMap_append

theorem writtenRecords_concat_of_none (h : c.written? = none) :
    writtenRecords (calls ++ [c]) = writtenRecords calls := by
  simp [writtenRecords, h]

theorem writtenRecords_concat_of_some (h : c.written? = some g) :
    writtenRecords (calls ++ [c]) = writtenRecords calls ++ [g] := by
  simp [writtenRecords, h]

theorem lastWritten?_append :
    lastWritten? name (earlier ++ since) =
      (lastWritten? name since).or (lastWritten? name earlier) := by
  rw [lastWritten?, writtenRecords_append, List.filter_append, List.getLast?_append]
  rfl

theorem lastWritten?_concat_of_none (h : c.written? = none) :
    lastWritten? name (calls ++ [c]) = lastWritten? name calls := by
  rw [lastWritten?, writtenRecords_concat_of_none h, lastWritten?]

theorem lastWritten?_concat_of_some (h : c.written? = some g) :
    lastWritten? name (calls ++ [c]) =
      if g.name = name then some g else lastWritten? name calls := by
  rw [lastWritten?, writtenRecords_concat_of_some h, List.filter_append]
  split
  next hname => simp [hname]
  next hname => simp [hname, lastWritten?]

theorem lastWritten?_eq_none_iff :
    lastWritten? name calls = none ↔ ∀ g ∈ writtenRecords calls, g.name ≠ name := by
  simp [lastWritten?]

theorem mem_of_lastWritten? (h : lastWritten? name calls = some g) :
    g ∈ writtenRecords calls ∧ g.name = name := by
  simpa using List.mem_of_getLast? h

/-! ## Runs -/

/-- What can happen to a store next. -/
inductive StoreMove where
  | call (r : StoreRequest)
  | listSubscribers
  | injectConflicts (n : Nat)
  | injectFailures (n : Nat)

/-- A store, with the calls of groups that it has answered. -/
structure StoreRun where
  memory : MemoryStore
  calls : List AnsweredCall := []

namespace StoreRun

/-- What comes of a move. -/
def move (s : StoreRun) : StoreMove → StoreRun
  | .call r =>
    let (a, memory) := s.memory.answer r
    { memory, calls := s.calls ++ [⟨r, a⟩] }
  | .listSubscribers => { s with memory := s.memory.listSubscribers.2 }
  | .injectConflicts n => { s with memory := s.memory.injectConflicts n }
  | .injectFailures n => { s with memory := s.memory.injectFailures n }

/-- What comes of moves one after the other, beginning with a store without groups. -/
def run (subscribers : List Subscriber) (moves : List StoreMove) : StoreRun :=
  moves.foldl move { memory := { subscribers } }

variable {s : StoreRun} {m' : MemoryStore} {r : StoreRequest}

/-- The invariant of all runs: the store holds the last writes, their versions count them, and
what has been given out was what the store held at the time. -/
structure Kept (s : StoreRun) : Prop where
  version_eq : s.memory.version = (writtenRecords s.calls).length
  writes_eq : s.memory.writes = (writtenRecords s.calls).length
  versions_eq : (writtenRecords s.calls).map StoredGroup.version =
    (List.range' 1 (writtenRecords s.calls).length).map fun n => some (MemoryStore.versionText n)
  stored : ∀ name, s.memory.groups.get? name = lastWritten? name s.calls
  given : ∀ {earlier c since}, s.calls = earlier ++ c :: since → ∀ g ∈ c.given,
    lastWritten? g.name (earlier ++ [c]) = some g

theorem kept_new (subscribers : List Subscriber) : Kept { memory := { subscribers } } where
  version_eq := rfl
  writes_eq := rfl
  versions_eq := rfl
  stored _ := rfl
  given h := nomatch List.append_eq_nil_iff.mp h.symm

theorem Kept.name_eq (H : s.Kept) (h : s.memory.groups.get? name = some g) : g.name = name :=
  (mem_of_lastWritten? ((H.stored name).symm.trans h)).2

/-- What was given out earlier is not changed by a further call. -/
theorem Kept.given_append (H : s.Kept)
    (hc : ∀ g ∈ c.given, lastWritten? g.name (s.calls ++ [c]) = some g) {c'}
    (h : s.calls ++ [c] = earlier ++ c' :: since) :
    ∀ g ∈ c'.given, lastWritten? g.name (earlier ++ [c']) = some g := by
  rcases append_singleton_eq_append_cons_iff.mp h with ⟨rfl, rfl, rfl⟩ | ⟨rest, hcalls, rfl⟩
  · exact hc
  · exact H.given hcalls

/-- Nothing is written when the records stay as they are. -/
theorem Kept.sameRecords (H : s.Kept) (h : s.memory.SameRecords m') :
    Kept { s with memory := m' } where
  version_eq := h.version_eq.trans H.version_eq
  writes_eq := h.writes_eq.trans H.writes_eq
  versions_eq := H.versions_eq
  stored name := by rw [h.groups_eq, H.stored]
  given := H.given

/-- A call that writes nothing gives out what the store holds. -/
theorem Kept.read (H : s.Kept) (hwritten : c.written? = none)
    (hgiven : ∀ g ∈ c.given, s.memory.groups.get? g.name = some g) :
    Kept { s with calls := s.calls ++ [c] } where
  version_eq := by rw [writtenRecords_concat_of_none hwritten, H.version_eq]
  writes_eq := by rw [writtenRecords_concat_of_none hwritten, H.writes_eq]
  versions_eq := by rw [writtenRecords_concat_of_none hwritten, H.versions_eq]
  stored name := by rw [lastWritten?_concat_of_none hwritten, H.stored]
  given h := H.given_append (fun g hg => by
    rw [lastWritten?_concat_of_none hwritten, ← H.stored, hgiven g hg]) h

/-- A call that writes a record gives it out, with the next version. -/
theorem Kept.wrote (H : s.Kept) (hwritten : c.written? = some (s.memory.write g).1)
    (hgiven : c.given = [(s.memory.write g).1]) :
    Kept { memory := (s.memory.write g).2, calls := s.calls ++ [c] } where
  version_eq := by
    rw [writtenRecords_concat_of_some hwritten, MemoryStore.write_snd_version, H.version_eq]
    simp
  writes_eq := by
    rw [writtenRecords_concat_of_some hwritten, List.length_append, ← H.writes_eq]
    rfl
  versions_eq := by
    rw [writtenRecords_concat_of_some hwritten, List.map_append, H.versions_eq, List.length_append,
      List.length_singleton, List.range'_concat, List.map_append, List.map_singleton,
      MemoryStore.write_fst_version, H.version_eq]
    simp [Nat.add_comm]
  stored name := by
    rw [lastWritten?_concat_of_some hwritten, MemoryStore.get?_write_snd, H.stored]
    rfl
  given h := H.given_append (fun g' hg' => by
    rw [hgiven, List.mem_singleton] at hg'
    rw [lastWritten?_concat_of_some hwritten, hg', if_pos rfl]) h

/-- By cases on what the call has done. -/
theorem Kept.carried (H : s.Kept) {a : r.Answer} (h : s.memory.Carried r a m') :
    Kept { memory := m', calls := s.calls ++ [⟨r, a⟩] } := by
  cases h with
  | get name =>
    refine H.read rfl fun g hg => ?_
    cases hget : s.memory.groups.get? name with
    | none => rw [hget] at hg; cases hg
    | some current =>
      rw [hget] at hg
      obtain rfl : g = current := List.mem_singleton.mp hg
      rw [H.name_eq hget, hget]
  | list =>
    refine H.read rfl fun g hg => ?_
    obtain ⟨name, hget⟩ := (KeyMap.mem_values_iff _ g).mp hg
    rw [H.name_eq hget, hget]
  | create habsent => exact H.wrote rfl rfl
  | replace hcurrent hversion => exact H.wrote rfl rfl

theorem Kept.call (H : s.Kept) (r : StoreRequest) : Kept (s.move (.call r)) := by
  change Kept { memory := (s.memory.answer r).2, calls := s.calls ++ [⟨r, (s.memory.answer r).1⟩] }
  rcases MemoryStore.answer_cases r s.memory with h | ⟨e, he, hsame⟩
  · exact H.carried h
  · rw [he]
    refine Kept.sameRecords (H.read (AnsweredCall.written?_error r e) ?_) hsame
    rw [AnsweredCall.given_error]
    exact fun g hg => nomatch hg

theorem Kept.move (H : s.Kept) (step : StoreMove) : Kept (s.move step) := by
  cases step with
  | call r => exact H.call r
  | listSubscribers => exact H.sameRecords s.memory.listSubscribers_sameRecords
  | injectConflicts n => exact H.sameRecords ⟨rfl, rfl, rfl⟩
  | injectFailures n => exact H.sameRecords ⟨rfl, rfl, rfl⟩

/-- By induction on the moves, the last one at the end. -/
theorem kept_run (subscribers : List Subscriber) (moves : List StoreMove) :
    Kept (run subscribers moves) := by
  induction moves using List.reverseRecOn with
  | nil => exact kept_new subscribers
  | append_singleton past step ih =>
    rw [run, List.foldl_append]
    exact ih.move step

theorem Kept.nodup_versions (H : s.Kept) :
    ((writtenRecords s.calls).map StoredGroup.version).Nodup := by
  rw [H.versions_eq]
  refine List.Nodup.map (fun a b h => ?_) List.nodup_range'
  exact MemoryStore.versionText_injective (Option.some_inj.mp h)

/-! ## Copies -/

/-- A record that was given out earlier is still stored, or another one has been written under
its name since, and has another version. -/
theorem Kept.stored_since (H : s.Kept) (h : s.calls = earlier ++ c :: since)
    (hcopy : copy ∈ c.given) :
    (∀ w ∈ writtenRecords since, w.name ≠ copy.name) ∧
        s.memory.groups.get? copy.name = some copy ∨
      ∃ w ∈ writtenRecords since, w.name = copy.name ∧
        s.memory.groups.get? copy.name = some w ∧ w.version ≠ copy.version := by
  have hthen := H.given h copy hcopy
  have hcalls : s.calls = (earlier ++ [c]) ++ since := by
    rw [h, List.append_assoc, List.singleton_append]
  have hnow : s.memory.groups.get? copy.name =
      (lastWritten? copy.name since).or (some copy) := by
    rw [H.stored, hcalls, lastWritten?_append, hthen]
  cases hsince : lastWritten? copy.name since with
  | none =>
    rw [hsince, Option.none_or] at hnow
    exact .inl ⟨lastWritten?_eq_none_iff.mp hsince, hnow⟩
  | some w =>
    rw [hsince, Option.some_or] at hnow
    obtain ⟨hw, hname⟩ := mem_of_lastWritten? hsince
    refine .inr ⟨w, hw, hname, hnow, fun hversion => ?_⟩
    -- Both have been written, one after the other, so they cannot have the same version.
    have hnodup := H.nodup_versions
    rw [hcalls, writtenRecords_append, List.map_append, List.nodup_append] at hnodup
    exact hnodup.2.2 _ (List.mem_map_of_mem (mem_of_lastWritten? hthen).1) _
      (List.mem_map_of_mem hw) hversion.symm

/-- A copy of a record that was given out earlier is taken exactly when nothing strikes the call
and nobody has written under the name since. -/
theorem Kept.succeeds_copy_iff (H : s.Kept) (h : s.calls = earlier ++ c :: since)
    (hcopy : copy ∈ c.given) (hname : g.name = copy.name) (hversion : g.version = copy.version) :
    s.memory.Succeeds (.replace g) ↔ ¬s.memory.Struck (.replace g) ∧
      ∀ w ∈ writtenRecords since, w.name ≠ g.name := by
  rw [MemoryStore.succeeds_replace_iff, hname, hversion]
  refine and_congr_right fun _ => ?_
  rcases H.stored_since h hcopy with ⟨hnone, hnow⟩ | ⟨w, hw, hwname, hnow, hother⟩
  · exact iff_of_true ⟨copy, hnow, rfl⟩ hnone
  · refine iff_of_false ?_ fun hnone => hnone w hw hwname
    rintro ⟨current, hcurrent, hsame⟩
    cases hnow.symm.trans hcurrent
    exact hother hsame

/-- What a store that compares and swaps promises after a run. -/
structure Swaps (s : StoreRun) : Prop where
  /-- The versions of all writes are numbers that grow. -/
  versions_grow : ∃ numbers : List Nat, numbers.Pairwise (· < ·) ∧
    (writtenRecords s.calls).map StoredGroup.version =
      numbers.map fun n => some (MemoryStore.versionText n)
  versions_nodup : ((writtenRecords s.calls).map StoredGroup.version).Nodup
  stored : ∀ name, s.memory.groups.get? name = lastWritten? name s.calls
  replace_iff : ∀ g, s.memory.Succeeds (.replace g) ↔ ¬s.memory.Struck (.replace g) ∧
    ∃ current, s.memory.groups.get? g.name = some current ∧ current.version = g.version
  /-- A copy of a record that was given out earlier, with whatever else has been changed in it. -/
  copy_iff : ∀ earlier c since, s.calls = earlier ++ c :: since → ∀ copy ∈ c.given,
    ∀ g, g.name = copy.name → g.version = copy.version →
      (s.memory.Succeeds (.replace g) ↔ ¬s.memory.Struck (.replace g) ∧
        ∀ w ∈ writtenRecords since, w.name ≠ g.name)
  create_iff : ∀ g, s.memory.Succeeds (.create g) ↔
    ¬s.memory.Struck (.create g) ∧ s.memory.groups.get? g.name = none
  error_keeps : ∀ r e, (s.memory.answer r).1 = .error e → s.memory.SameRecords (s.memory.answer r).2
  subscribers_keep : s.memory.SameRecords s.memory.listSubscribers.2
  writes_eq : s.memory.writes = (writtenRecords s.calls).length

/-- After any calls, and with any failures and conflicts ordered between them, a store compares
and swaps. -/
theorem run_compares_and_swaps (subscribers : List Subscriber) (moves : List StoreMove) :
    (run subscribers moves).Swaps := by
  have H := kept_run subscribers moves
  exact {
    versions_grow := ⟨_, List.pairwise_lt_range', H.versions_eq⟩
    versions_nodup := H.nodup_versions
    stored := H.stored
    replace_iff := fun _ => MemoryStore.succeeds_replace_iff
    copy_iff := fun _ _ _ h _ hcopy _ hname hversion => H.succeeds_copy_iff h hcopy hname hversion
    create_iff := fun _ => MemoryStore.succeeds_create_iff
    error_keeps := fun _ _ => MemoryStore.sameRecords_of_error
    subscribers_keep := MemoryStore.listSubscribers_sameRecords _
    writes_eq := H.writes_eq }

/-- The same copy is taken once only. -/
example :
    let copy : StoredGroup :=
      { metadata := { name := some "ns-shop", resourceVersion := some "1" },
        spec := .new "ns-shop" .byNamespace }
    let moves := [.call (.create copy), .call (.replace copy), .call (.replace copy)]
    (run [] moves).calls.map (AnsweredCall.written? · |>.bind StoredGroup.version) =
      [some "1", some "2", none] := by
  decide +kernel

end StoreRun

end Chargeback
