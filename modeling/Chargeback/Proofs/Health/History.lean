import Chargeback.Health
import Chargeback.Proofs.Histories

/-!
# Health as the history of all reports

The registry keeps one report for each stage, and with it the time since which the stage has been
in its status. Both are told by the history of what has been reported about the stage: the last
report, and the first one of the unbroken run that it belongs to. The overall status and the
readiness are told by the last reports of all stages.

## Main definitions

* `HealthCall`: the calls of the registry; `HealthNote`: what one of them says about a stage.
* `LastRun`: the last unbroken run of reports about a stage.
* `HealthRegistry.Shows`: what the registry shows of the history of a stage.
* `HealthRegistry.Summarises`: what it shows of the whole history.
-/

namespace Chargeback

/-- A call of the registry, with the Unix seconds at which a report is made. -/
inductive HealthCall where
  | register (component : String) (now : Int)
  /-- Report a stage in a status; a healthy one has no message. -/
  | report (component : String) (status : Status) (message : String) (now : Int)
  | setReady (ready : Bool)

/-- What a call says about a stage. -/
structure HealthNote where
  status : Status
  message : Option String := none
  time : Int
  /-- The stage is entered anew. -/
  registers : Bool := false

namespace HealthCall

/-- The stage that the call is about, and what it says about it. -/
def about? : HealthCall → Option (String × HealthNote)
  | register component now =>
    some (component, { status := .healthy, time := now, registers := true })
  | report component status message now =>
    let message := if status = .healthy then none else some message
    some (component, { status, message, time := now })
  | setReady _ => none

/-- What the call says about a stage, if it is about that one. -/
def noteOf? (name : String) (call : HealthCall) : Option HealthNote :=
  match call.about? with
  | some (component, note) => if component = name then some note else none
  | none => none

/-- Whether the start is done, if the call says so. -/
def ready? : HealthCall → Option Bool
  | setReady ready => some ready
  | _ => none

end HealthCall

/-! ## Histories -/

variable {name : String} {calls : List HealthCall} {c : HealthCall}
  {notes before before' repeats repeats' : List HealthNote} {note first first' last : HealthNote}

/-- What has been said about a stage, in its order. -/
def notesOf (name : String) (calls : List HealthCall) : List HealthNote :=
  calls.filterMap (HealthCall.noteOf? name)

/-- What has been said last about the start; it is not done at the beginning. -/
def lastReady (calls : List HealthCall) : Bool :=
  (calls.filterMap HealthCall.ready?).getLast?.getD false

theorem notesOf_append :
    notesOf name (calls ++ [c]) = notesOf name calls ++ (c.noteOf? name).toList := by
  rw [notesOf, List.filterMap_append, notesOf]
  cases h : c.noteOf? name with
  | none => simp [h]
  | some note => simp [h]

theorem lastReady_append :
    lastReady (calls ++ [c]) = c.ready?.getD (lastReady calls) := by
  rw [lastReady, List.filterMap_append, List.getLast?_append]
  cases h : c.ready? with
  | none => simp [h, lastReady]
  | some ready => simp [h]

/-- The last unbroken run of reports about a stage: it begins when the stage is entered, or when
its status changes, and goes on for as long as neither happens again. -/
structure LastRun (notes before : List HealthNote) (first : HealthNote)
    (repeats : List HealthNote) : Prop where
  notes_eq : notes = before ++ first :: repeats
  begins : first.registers = true ∨ ∀ earlier ∈ before.getLast?, earlier.status ≠ first.status
  unbroken : ∀ again ∈ repeats, again.registers = false ∧ again.status = first.status

/-- A report that enters the stage or changes its status begins a run. -/
theorem lastRun_begins
    (h : note.registers = true ∨ ∀ earlier ∈ notes.getLast?, earlier.status ≠ note.status) :
    LastRun (notes ++ [note]) notes note [] :=
  ⟨rfl, h, fun _ hmem => nomatch hmem⟩

/-- A report that repeats the status goes on with the run. -/
theorem LastRun.goesOn (R : LastRun notes before first repeats)
    (hregisters : note.registers = false) (hstatus : note.status = first.status) :
    LastRun (notes ++ [note]) before first (repeats ++ [note]) where
  notes_eq := by rw [R.notes_eq, List.append_assoc, List.cons_append]
  begins := R.begins
  unbroken := by
    rw [List.forall_mem_append]
    exact ⟨R.unbroken, by simpa using ⟨hregisters, hstatus⟩⟩

/-- The whole run has one status. -/
theorem LastRun.status_eq (R : LastRun notes before first repeats)
    (hlast : notes.getLast? = some last) : last.status = first.status := by
  rw [R.notes_eq, List.getLast?_append, List.getLast?_cons, Option.some_or,
    Option.some_inj] at hlast
  cases hrepeats : repeats.getLast? with
  | none =>
    rw [hrepeats, Option.getD_none] at hlast
    rw [hlast]
  | some again =>
    rw [hrepeats, Option.getD_some] at hlast
    exact (R.unbroken last (hlast ▸ List.mem_of_getLast? hrepeats)).2

/-- No run begins within another one. -/
theorem LastRun.not_within (R : LastRun notes before first repeats)
    (R' : LastRun notes before' first' repeats') {between : List HealthNote} :
    before' ≠ before ++ first :: between := by
  rintro rfl
  have hrepeats : repeats = between ++ first' :: repeats' := by
    have h := R.notes_eq.symm.trans R'.notes_eq
    rw [List.append_assoc, List.cons_append] at h
    exact (List.cons_inj_right first).mp (List.append_cancel_left h)
  obtain ⟨hregisters, hstatus⟩ := R.unbroken first' (by simp [hrepeats])
  rcases R'.begins with hbegins | hbegins
  · exact absurd hbegins (by simp [hregisters])
  · have hbetween : LastRun (before ++ first :: between) before first between :=
      ⟨rfl, R.begins, fun again hmem => R.unbroken again (by simp [hrepeats, hmem])⟩
    obtain ⟨earlier, hearlier⟩ : ∃ earlier, (before ++ first :: between).getLast? = some earlier :=
      Option.isSome_iff_exists.mp (by simp)
    exact hbegins earlier hearlier ((hbetween.status_eq hearlier).trans hstatus.symm)

/-- There is only one last run. -/
theorem LastRun.first_eq (R : LastRun notes before first repeats)
    (R' : LastRun notes before' first' repeats') : first = first' := by
  rcases List.append_eq_append_iff.mp (R.notes_eq.symm.trans R'.notes_eq) with
    ⟨rest, hbefore, hrest⟩ | ⟨rest, hbefore, hrest⟩
  · cases rest with
    | nil => exact (List.cons.inj hrest).1
    | cons x between =>
      obtain rfl : first = x := (List.cons.inj hrest).1
      exact absurd hbefore (R.not_within R')
  · cases rest with
    | nil => exact (List.cons.inj hrest).1.symm
    | cons x between =>
      obtain rfl : first' = x := (List.cons.inj hrest).1
      exact absurd hbefore (R'.not_within R)

/-! ## The worst status -/

namespace Status

variable {a b : Status} {statuses : List Status}

theorem severity_le_worse (a b : Status) :
    a.severity ≤ (worse a b).severity ∧ b.severity ≤ (worse a b).severity := by
  unfold worse
  split
  next h => exact ⟨h, Nat.le_refl _⟩
  next h => exact ⟨Nat.le_refl _, Nat.le_of_not_le h⟩

theorem worse_eq_or (a b : Status) : worse a b = a ∨ worse a b = b := by
  unfold worse
  split
  · exact .inr rfl
  · exact .inl rfl

theorem severity_le_foldl_worse : a.severity ≤ (statuses.foldl worse a).severity ∧
    ∀ s ∈ statuses, s.severity ≤ (statuses.foldl worse a).severity := by
  induction statuses generalizing a with
  | nil => simp
  | cons b rest ih =>
    obtain ⟨hfirst, hrest⟩ := ih (a := worse a b)
    obtain ⟨ha, hb⟩ := severity_le_worse a b
    rw [List.foldl_cons, List.forall_mem_cons]
    exact ⟨Nat.le_trans ha hfirst, Nat.le_trans hb hfirst, hrest⟩

theorem foldl_worse_mem : statuses.foldl worse a = a ∨ statuses.foldl worse a ∈ statuses := by
  induction statuses generalizing a with
  | nil => exact .inl rfl
  | cons b rest ih =>
    rw [List.foldl_cons, List.mem_cons]
    rcases ih (a := worse a b) with h | h
    · rw [h]
      exact (worse_eq_or a b).imp id .inl
    · exact .inr (.inr h)

end Status

/-! ## The registry -/

namespace HealthRegistry

variable {r : HealthRegistry}

/-- What comes of a call. -/
def call (r : HealthRegistry) : HealthCall → HealthRegistry
  | .register component now => r.register component now
  | .report component status message now => r.set component status message now
  | .setReady ready => r.setReady ready

/-- What comes of calls one after the other, beginning with a registry without reports. -/
def afterCalls (calls : List HealthCall) : HealthRegistry := calls.foldl call {}

theorem afterCalls_append : afterCalls (calls ++ [c]) = (afterCalls calls).call c := by
  rw [afterCalls, List.foldl_append]
  rfl

/-- The time since which a stage has been in the status that is reported of it now. -/
def sinceOf (previous? : Option Component.Health) (note : HealthNote) : Int :=
  match previous? with
  | some previous =>
    if note.registers = false ∧ previous.status = note.status then previous.since else note.time
  | none => note.time

/-- The report of a stage that has been in its status since a given time. -/
def shown (note : HealthNote) (since : Int) : Component.Health :=
  { status := note.status, message := note.message, lastCheck := note.time, since }

theorem set_eq_update (r : HealthRegistry) (name : String) (status : Status) (message : String)
    (now : Int) : r.set name status message now =
      r.update name (.report status (if status = .healthy then none else some message) now) := by
  cases status <;> rfl

theorem components_call (r : HealthRegistry) (c : HealthCall) :
    (r.call c).components =
      match c.about? with
      | some (component, note) =>
        r.components.insert component (shown note (sinceOf (r.components.get? component) note))
      | none => r.components := by
  cases c with
  | register component now =>
    simp only [HealthRegistry.call, register, HealthCall.about?, shown, sinceOf]
    cases r.components.get? component <;> rfl
  | report component status message now =>
    simp only [HealthRegistry.call, set_eq_update, update, Component.Health.report,
      HealthCall.about?, shown, sinceOf, true_and]
    cases r.components.get? component <;> rfl
  | setReady ready => rfl

theorem get?_call (r : HealthRegistry) (c : HealthCall) (name : String) :
    (r.call c).components.get? name =
      match c.noteOf? name with
      | some note => some (shown note (sinceOf (r.components.get? name) note))
      | none => r.components.get? name := by
  rw [components_call, HealthCall.noteOf?]
  cases c.about? with
  | none => rfl
  | some about =>
    obtain ⟨component, note⟩ := about
    dsimp only
    rw [KeyMap.get?_insert]
    by_cases h : component = name
    · subst h
      simp only [if_pos]
    · simp only [if_neg h]

theorem ready_call (r : HealthRegistry) (c : HealthCall) :
    (r.call c).ready = c.ready?.getD r.ready := by
  cases c with
  | register component now => rfl
  | report component status message now => cases status <;> rfl
  | setReady ready => rfl

/-- What the registry shows of the history of a stage: its last report, and the time at which
the last run of its status began. -/
def Shows (r : HealthRegistry) (name : String) (notes : List HealthNote) : Prop :=
  match notes.getLast? with
  | none => r.components.get? name = none
  | some last => ∃ before first repeats, LastRun notes before first repeats ∧
      r.components.get? name = some (shown last first.time)

theorem Shows.call (H : r.Shows name notes) (c : HealthCall) :
    (r.call c).Shows name (notes ++ (c.noteOf? name).toList) := by
  unfold Shows at H ⊢
  rw [get?_call]
  cases hnote : c.noteOf? name with
  | none => simpa using H
  | some note =>
    simp only [Option.toList_some, List.getLast?_concat]
    cases hlast : notes.getLast? with
    | none =>
      rw [hlast] at H
      obtain rfl : notes = [] := List.getLast?_eq_none_iff.mp hlast
      have R : LastRun ([] ++ [note]) [] note [] := lastRun_begins (.inr fun _ h => nomatch h)
      exact ⟨[], note, [], R, by rw [H]; rfl⟩
    | some last =>
      rw [hlast] at H
      obtain ⟨before, first, repeats, R, hshown⟩ := H
      rw [hshown]
      by_cases hrepeats : note.registers = false ∧ last.status = note.status
      · have hstatus : note.status = first.status := hrepeats.2.symm.trans (R.status_eq hlast)
        refine ⟨before, first, repeats ++ [note], R.goesOn hrepeats.1 hstatus, ?_⟩
        rw [sinceOf]
        exact congrArg (fun since => some (shown note since)) (if_pos hrepeats)
      · have hbegins : note.registers = true ∨
            ∀ earlier ∈ notes.getLast?, earlier.status ≠ note.status := by
          by_cases hregisters : note.registers = true
          · exact .inl hregisters
          · refine .inr fun earlier hearlier hsame => hrepeats ⟨by simpa using hregisters, ?_⟩
            cases hlast.symm.trans hearlier
            exact hsame
        refine ⟨notes, note, [], lastRun_begins hbegins, ?_⟩
        rw [sinceOf]
        exact congrArg (fun since => some (shown note since)) (if_neg hrepeats)

/-- By induction on the calls, the last one at the end. -/
theorem shows_afterCalls (name : String) (calls : List HealthCall) :
    (afterCalls calls).Shows name (notesOf name calls) := by
  induction calls using List.reverseRecOn with
  | nil => exact rfl
  | append_singleton past c ih =>
    rw [afterCalls_append, notesOf_append]
    exact ih.call c

theorem ready_afterCalls (calls : List HealthCall) :
    (afterCalls calls).ready = lastReady calls := by
  induction calls using List.reverseRecOn with
  | nil => rfl
  | append_singleton past c ih => rw [afterCalls_append, lastReady_append, ready_call, ih]

/-- A stage is in the status of the last report about it. -/
theorem statusOf?_afterCalls (name : String) (calls : List HealthCall) :
    (afterCalls calls).statusOf? name = (notesOf name calls).getLast?.map HealthNote.status := by
  have H := shows_afterCalls name calls
  unfold Shows at H
  rw [statusOf?]
  cases hlast : (notesOf name calls).getLast? with
  | none =>
    rw [hlast] at H
    rw [H]
    rfl
  | some last =>
    rw [hlast] at H
    obtain ⟨before, first, repeats, -, hshown⟩ := H
    rw [hshown]
    rfl

/-! ## The two summaries -/

theorem mem_statuses_iff {status : Status} :
    status ∈ r.components.values.map Component.Health.status ↔
      ∃ name, r.statusOf? name = some status := by
  simp only [List.mem_map, KeyMap.mem_values_iff, statusOf?, Option.map_eq_some_iff]
  constructor
  · rintro ⟨h, ⟨name, hget⟩, rfl⟩
    exact ⟨name, h, hget, rfl⟩
  · rintro ⟨name, h, hget, rfl⟩
    exact ⟨h, ⟨name, hget⟩, rfl⟩

theorem severity_le_overall {status : Status} (h : r.statusOf? name = some status) :
    status.severity ≤ r.overall.severity :=
  Status.severity_le_foldl_worse.2 status (mem_statuses_iff.mpr ⟨name, h⟩)

/-- The overall status is one that a stage is in, or nothing has been reported. -/
theorem overall_cases (r : HealthRegistry) :
    (∃ name, r.statusOf? name = some r.overall) ∨
      (∀ name, r.statusOf? name = none) ∧ r.overall = .healthy := by
  have hoverall : r.overall = .healthy ∨
      r.overall ∈ r.components.values.map Component.Health.status := Status.foldl_worse_mem
  rcases hoverall with h | h
  · by_cases hnone : ∀ name, r.statusOf? name = none
    · exact .inr ⟨hnone, h⟩
    · obtain ⟨name, hname⟩ := Classical.not_forall.mp hnone
      obtain ⟨status, hstatus⟩ := Option.ne_none_iff_exists'.mp hname
      have hle := severity_le_overall hstatus
      rw [h] at hle ⊢
      obtain rfl : status = .healthy := by
        cases status with
        | healthy => rfl
        | degraded => exact absurd hle (by decide)
        | unhealthy => exact absurd hle (by decide)
      exact .inl ⟨name, hstatus⟩
  · exact .inl (mem_statuses_iff.mp h)

theorem failedCritical?_eq_none_iff :
    r.failedCritical? = none ↔
      ∀ name ∈ Component.critical, r.statusOf? name ≠ some .unhealthy := by
  rw [failedCritical?, List.findSome?_eq_none_iff]
  refine forall₂_congr fun name _ => ?_
  rw [statusOf?]
  cases r.components.get? name with
  | none => simp
  | some h => simp [Status.isOperational]

theorem ready_readiness_iff :
    r.readiness.ready = true ↔
      r.ready = true ∧ ∀ name ∈ Component.critical, r.statusOf? name ≠ some .unhealthy := by
  rw [← failedCritical?_eq_none_iff, readiness]
  by_cases hready : r.ready = true
  · cases hfailed : r.failedCritical? with
    | none => simp [hready]
    | some failed =>
      obtain ⟨name, message⟩ := failed
      cases message <;> simp [hready]
  · simp [hready]

/-- What the registry shows of a history of calls. -/
structure Summarises (r : HealthRegistry) (calls : List HealthCall) : Prop where
  unreported : ∀ name, notesOf name calls = [] → r.components.get? name = none
  run_exists : ∀ name, notesOf name calls ≠ [] →
    ∃ before first repeats, LastRun (notesOf name calls) before first repeats
  /-- A stage shows its last report, and the time at which the last unbroken run began. -/
  reported : ∀ name last before first repeats, (notesOf name calls).getLast? = some last →
    LastRun (notesOf name calls) before first repeats →
      r.components.get? name = some
        { status := last.status, message := last.message, lastCheck := last.time,
          since := first.time }
  worst : ∀ name last, (notesOf name calls).getLast? = some last →
    last.status.severity ≤ r.overall.severity
  overall_reported : (∃ name last, (notesOf name calls).getLast? = some last ∧
      r.overall = last.status) ∨
    (∀ name, notesOf name calls = []) ∧ r.overall = .healthy
  ready_iff : r.readiness.ready = true ↔ lastReady calls = true ∧
    ∀ name ∈ [Component.reconciler, Component.groupStore], ∀ last,
      (notesOf name calls).getLast? = some last → last.status ≠ .unhealthy

/-- After any calls the registry shows their history. -/
theorem afterCalls_summarises (calls : List HealthCall) : (afterCalls calls).Summarises calls where
  unreported name h := by
    have H := shows_afterCalls name calls
    rwa [Shows, h] at H
  run_exists name h := by
    have H := shows_afterCalls name calls
    obtain ⟨last, hlast⟩ := Option.ne_none_iff_exists'.mp (mt List.getLast?_eq_none_iff.mp h)
    rw [Shows, hlast] at H
    obtain ⟨before, first, repeats, R, -⟩ := H
    exact ⟨before, first, repeats, R⟩
  reported name last before first repeats hlast R := by
    have H := shows_afterCalls name calls
    rw [Shows, hlast] at H
    obtain ⟨before', first', repeats', R', hshown⟩ := H
    rw [hshown, R.first_eq R', shown]
  worst name last hlast := severity_le_overall (by rw [statusOf?_afterCalls, hlast]; rfl)
  overall_reported := by
    rcases overall_cases (afterCalls calls) with ⟨name, hname⟩ | ⟨hnone, hhealthy⟩
    · rw [statusOf?_afterCalls, Option.map_eq_some_iff] at hname
      obtain ⟨last, hlast, hstatus⟩ := hname
      exact .inl ⟨name, last, hlast, hstatus.symm⟩
    · refine .inr ⟨fun name => ?_, hhealthy⟩
      have h := hnone name
      rwa [statusOf?_afterCalls, Option.map_eq_none_iff, List.getLast?_eq_none_iff] at h
  ready_iff := by
    rw [ready_readiness_iff, ready_afterCalls]
    refine and_congr_right fun _ => forall₂_congr fun name _ => ?_
    rw [statusOf?_afterCalls]
    cases (notesOf name calls).getLast? with
    | none => simp
    | some last => simp

/-- A repeated status keeps its time, until the stage is entered anew. -/
example :
    let reports := [.register "buffer" 1, .report "buffer" .healthy "" 2]
    ((afterCalls reports).components.get? "buffer").map Component.Health.since = some 1 ∧
      ((afterCalls (reports ++ [.register "buffer" 3])).components.get? "buffer").map
        Component.Health.since = some 3 := by
  decide

end HealthRegistry

end Chargeback
