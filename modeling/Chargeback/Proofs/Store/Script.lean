import Chargeback.Proofs.Store.Memory
import Chargeback.Store.Script

/-!
# Scripts that only let calls fail

A script may make calls fail in any order and for any reason. As long as it neither
hides records nor lets others write, each call does what the store in memory does, or
fails and leaves the records as they are. Without a script, and without failures ordered
otherwise, no call fails that should not.

## Main definitions

* `ScriptedStore.Honest`: the stores with such scripts.
* `ScriptedStore.Calm`: the stores that let no call fail.
-/

namespace Chargeback

namespace ScriptedStore

variable {s : ScriptedStore}

/-- The entries of the script let calls pass or fail. -/
def Honest (s : ScriptedStore) : Prop :=
  ∀ name entries, s.script.get? name = some entries →
    ∀ e ∈ entries, e = .pass ∨ ∃ kind, e = .fail kind

@[simp] theorem enter_memory (s : ScriptedStore) (call : StoreCall) :
    (s.enter call).2.memory = s.memory := by
  rw [enter]
  split
  · rfl
  · rfl

/-- A call of an honest store passes or fails, and what is left of the script is honest. -/
theorem Honest.enter (h : s.Honest) (call : StoreCall) :
    ((s.enter call).1 = .pass ∨ ∃ kind, (s.enter call).1 = .fail kind) ∧
      (s.enter call).2.Honest := by
  rw [ScriptedStore.enter]
  split
  next e rest hscript =>
    have hentries := h call.name (e :: rest) hscript
    refine ⟨hentries e List.mem_cons_self, ?_⟩
    intro name entries hentry
    rw [KeyMap.get?_insert] at hentry
    split at hentry
    next =>
      cases hentry
      exact fun e' he' => hentries e' (List.mem_cons_of_mem e he')
    next => exact h name entries hentry
  next => exact ⟨.inl rfl, h⟩

/-- A call of an honest store does what it is meant to do, or it fails and changes no
record. -/
theorem Honest.answer_cases (h : s.Honest) (r : StoreRequest) :
    (s.answer r).2.Honest ∧
      (s.memory.Carried r (s.answer r).1 (s.answer r).2.memory ∨
        ∃ e, (s.answer r).1 = .error e ∧ s.memory.SameRecords (s.answer r).2.memory) := by
  obtain ⟨hentry, hhonest⟩ := h.enter r.call
  have hmemory := s.enter_memory r.call
  rw [ScriptedStore.answer]
  generalize s.enter r.call = entered at hentry hhonest hmemory
  obtain ⟨entry, left⟩ := entered
  dsimp only at hentry hhonest hmemory
  rw [← hmemory]
  rcases hentry with rfl | ⟨kind, rfl⟩
  · exact ⟨hhonest, MemoryStore.answer_cases r left.memory⟩
  · exact ⟨hhonest, .inr ⟨_, rfl, .refl left.memory⟩⟩

/-! ## Undisturbed stores -/

/-- Nothing makes the calls of the store fail. -/
structure Calm (s : ScriptedStore) : Prop where
  script : ∀ name entries, s.script.get? name = some entries → entries = []
  memory : s.memory.Calm

theorem Calm.honest (h : s.Calm) : s.Honest := by
  intro name entries hentries e he
  rw [h.script name entries hentries] at he
  cases he

/-- Every call passes, and leaves the script empty. -/
theorem Calm.enter (h : s.Calm) (call : StoreCall) :
    (s.enter call).1 = .pass ∧ (s.enter call).2.Calm := by
  rw [ScriptedStore.enter]
  split
  next e rest hscript => exact nomatch h.script call.name (e :: rest) hscript
  next => exact ⟨rfl, h.script, h.memory⟩

/-- An undisturbed store does what the one in memory does, and stays undisturbed. -/
theorem Calm.answer (h : s.Calm) (r : StoreRequest) :
    (s.answer r).1 = (s.memory.answer r).1 ∧ (s.answer r).2.memory = (s.memory.answer r).2 ∧
      (s.answer r).2.Calm := by
  obtain ⟨hpass, hcalm⟩ := h.enter r.call
  have hmemory := s.enter_memory r.call
  rw [ScriptedStore.answer]
  generalize s.enter r.call = entered at hpass hcalm hmemory
  obtain ⟨entry, left⟩ := entered
  dsimp only at hpass hcalm hmemory
  subst hpass
  rw [← hmemory]
  exact ⟨rfl, rfl, hcalm.script, hcalm.memory.answer r⟩

/-- A call does not change the script but for its own entry, and counts itself. -/
theorem answer_calls (s : ScriptedStore) (r : StoreRequest) :
    (s.answer r).2.calls =
      s.calls.insert r.call.name ((s.calls.get? r.call.name).getD 0 + 1) := by
  have hcalls : (s.enter r.call).2.calls =
      s.calls.insert r.call.name ((s.calls.get? r.call.name).getD 0 + 1) := by
    rw [ScriptedStore.enter]
    split
    · rfl
    · rfl
  rw [← hcalls, ScriptedStore.answer]
  generalize s.enter r.call = entered
  obtain ⟨entry, left⟩ := entered
  cases entry with
  | pass => rfl
  | fail kind => rfl
  | miss => cases r <;> rfl
  | rival =>
    dsimp only
    split
    · rfl
    · rfl

end ScriptedStore

end Chargeback
