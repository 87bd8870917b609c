import Chargeback.Pipeline.Basic
import Chargeback.Proofs.Health.Reporters
import Chargeback.Proofs.Reconciler.Access

/-!
# When the store of groups is reported as recovered

A worker reports the store of groups as degraded when an event fails there. It keeps in mind
that it did, but not why: the next event of any kind that does not fail there makes it report
the store as healthy again, even if this event was ignored, was only exported or carried no
object, and has not come near the store. So the report tells how the last event went, and not
how the store was found when it was last called. The two agree as long as no event without a
call follows a failure.

## Main definitions

* `EventOutcome`: the result of an event, and whether it called the store.
* `WorkerRun`: a worker among others that do not report the store of groups.
* `WorkerRun.Follows`: the invariant of all runs.
* `WorkerRun.recovery_by_last_event`: what is reported of the store after each event.
-/

namespace Chargeback

/-- How an event went. -/
structure EventOutcome where
  event : ResourceEvent
  result : Except ReconcileError Handler
  /-- The store of groups has been called. -/
  accessed : Bool
deriving DecidableEq

/-- The event has failed in the groups. -/
def EventOutcome.storeFailed (o : EventOutcome) : Bool :=
  match o.result with
  | .error (.aggregate _) => true
  | _ => false

theorem EventOutcome.storeFailed_iff {o : EventOutcome} :
    o.storeFailed = true ↔ ∃ failure, o.result = .error (.aggregate failure) := by
  unfold storeFailed
  split
  next failure h => simp [h]
  next h => simpa using h

/-- A failure is one of the groups if the store of groups is reported for it. -/
theorem EventOutcome.storeFailed_error {e : ResourceEvent} {failure : ReconcileError}
    {accessed : Bool} :
    storeFailed { event := e, result := .error failure, accessed } =
      decide (failure.component? = some Component.groupStore) := by
  cases failure with
  | missingObject key => rfl
  | aggregate failure => rfl
  | storageOverflow => rfl

/-- A worker, the registry to which it reports, how the events went that it has handled so far,
and everything around it. -/
structure WorkerRun (σ : Type) where
  outside : σ
  worker : Worker := {}
  health : HealthRegistry
  outcomes : List EventOutcome := []

/-- What happens next. -/
inductive WorkerMove where
  /-- The worker handles an event. -/
  | handle (e : ResourceEvent) (now : Int)
  /-- Somebody else reports another stage. -/
  | other (component : String) (h : Component.Health) (hother : component ≠ Component.groupStore)

namespace WorkerRun

variable {σ : Type} {c : Reconciler}
  {answer : (r : ReconcilerRequest) → σ → ReconcilerInterface.Answer r × σ}

/-- What comes of a move, when requests are answered in some way. An event that makes the worker
panic is not handled to its end, and no event is handled after it. -/
def move (c : Reconciler)
    (answer : (r : ReconcilerRequest) → σ → ReconcilerInterface.Answer r × σ)
    (w : WorkerRun σ) : WorkerMove → WorkerRun σ
  | .handle e now =>
    if w.worker.ended then w
    else
      let (result, outside) := (c.handle e).run answer w.outside
      let (reports, worker) := w.worker.report result
      let accessed := c.accesses e answer w.outside
      let handled := if worker.ended then [] else [{ event := e, result, accessed }]
      { outside, worker, health := w.health.applyAll now reports
        outcomes := w.outcomes ++ handled }
  | .other component h _ => { w with health := w.health.update component h }

/-- What comes of moves one after the other. -/
def run (c : Reconciler)
    (answer : (r : ReconcilerRequest) → σ → ReconcilerInterface.Answer r × σ)
    (w : WorkerRun σ) (moves : List WorkerMove) : WorkerRun σ :=
  moves.foldl (move c answer) w

/-- What is reported of the store of groups. -/
def status? (w : WorkerRun σ) : Option Status := w.health.statusOf? Component.groupStore

/-- What the worker is to report of the store after its events, if something has been reported
before: it is degraded if the last event failed there, and healthy if another one did. -/
def reported (before : Option Status) (outcomes : List EventOutcome) : Option Status :=
  if outcomes.getLast?.any EventOutcome.storeFailed then some .degraded
  else if outcomes.any EventOutcome.storeFailed then some .healthy
  else before

/-- The worker keeps in mind whether the last event failed in the groups, and the registry has
what it is to report. -/
structure Follows (before : Option Status) (c : Reconciler) (w : WorkerRun σ) : Prop where
  degraded_iff : w.worker.degraded = some Component.groupStore ↔
    w.outcomes.getLast?.any EventOutcome.storeFailed
  status_eq : w.status? = reported before w.outcomes
  told : ∀ o ∈ w.outcomes, Reconciler.Told (c.ReachesGroups o.event) o.accessed o.result

variable {w : WorkerRun σ} {before : Option Status} {past : List EventOutcome} {o : EventOutcome}

/-- After one more event the report is about this event, and recovers from the one before. -/
theorem reported_append (before : Option Status) (past : List EventOutcome) (o : EventOutcome) :
    reported before (past ++ [o]) =
      if o.storeFailed then some .degraded
      else if past.getLast?.any EventOutcome.storeFailed then some .healthy
      else reported before past := by
  unfold reported
  rw [List.getLast?_concat, Option.any_some, List.any_append]
  cases ho : o.storeFailed with
  | true => rfl
  | false =>
    cases hlast : past.getLast?.any EventOutcome.storeFailed with
    | false => simp [ho]
    | true =>
      obtain ⟨o', ho', hfailed⟩ := (Option.any_eq_true ..).mp hlast
      have hany : past.any EventOutcome.storeFailed = true :=
        List.any_eq_true.mpr ⟨o', List.mem_of_getLast? ho', hfailed⟩
      simp [hany]

/-- Only a panic ends a worker. -/
theorem ended_report {worker : Worker} {result : Except ReconcileError Handler}
    (h : result ≠ .error .storageOverflow) : (worker.report result).2.ended = worker.ended := by
  cases result with
  | ok handler => rfl
  | error failure =>
    obtain ⟨component, hcomponent⟩ := ReconcileError.exists_component? h
    simp only [Worker.report, hcomponent]

/-- An event that is handled to its end is reported. -/
theorem Follows.handled (H : Follows before c w) (hcompleted : o.result ≠ .error .storageOverflow)
    (htold : Reconciler.Told (c.ReachesGroups o.event) o.accessed o.result) (outside : σ)
    (now : Int) :
    Follows before c
      { outside
        worker := (w.worker.report o.result).2
        health := w.health.applyAll now (w.worker.report o.result).1
        outcomes := w.outcomes ++ [o] } := by
  obtain ⟨e, result, accessed⟩ := o
  dsimp only at hcompleted htold ⊢
  refine ⟨?_, ?_, ?_⟩
  · rw [List.getLast?_concat, Option.any_some]
    cases result with
    | ok handler => simp [Worker.report, EventOutcome.storeFailed]
    | error failure =>
      obtain ⟨component, hcomponent⟩ := ReconcileError.exists_component? hcompleted
      simp [Worker.report, EventOutcome.storeFailed_error, hcomponent]
  · rw [status?, reported_append, ← H.status_eq]
    cases result with
    | ok handler =>
      rw [HealthRegistry.statusOf?_report_ok]
      simp [EventOutcome.storeFailed, H.degraded_iff, status?]
    | error failure =>
      obtain ⟨component, hcomponent⟩ := ReconcileError.exists_component? hcompleted
      rw [HealthRegistry.statusOf?_report_error hcomponent]
      simp [EventOutcome.storeFailed_error, hcomponent, H.degraded_iff, status?]
  · rw [List.forall_mem_append]
    exact ⟨H.told, by simpa using htold⟩

theorem Follows.handle (H : Follows before c w) (e : ResourceEvent) (now : Int) :
    Follows before c (w.move c answer (.handle e now)) := by
  have htold := c.accesses_told e answer w.outside
  rw [move]
  split
  next => exact H
  next hended =>
    generalize (c.handle e).run answer w.outside = after at htold
    obtain ⟨result, outside⟩ := after
    dsimp only at htold ⊢
    by_cases hpanic : result = .error .storageOverflow
    · have hsame : w.outcomes ++ [] = w.outcomes := List.append_nil _
      subst hpanic
      exact ⟨hsame.symm ▸ H.degraded_iff, hsame.symm ▸ H.status_eq, hsame.symm ▸ H.told⟩
    · let o : EventOutcome := { event := e, result, accessed := c.accesses e answer w.outside }
      rw [ended_report hpanic, if_neg hended]
      exact H.handled (o := o) hpanic htold outside now

theorem Follows.other (H : Follows before c w) {component : String} (h : Component.Health)
    (hother : component ≠ Component.groupStore) :
    Follows before c (w.move c answer (.other component h hother)) where
  degraded_iff := H.degraded_iff
  told := H.told
  status_eq := by
    change (w.health.update component h).statusOf? Component.groupStore = _
    rw [HealthRegistry.statusOf?_update, if_neg hother]
    exact H.status_eq

/-- By induction on the moves. -/
theorem Follows.run (H : Follows before c w) (moves : List WorkerMove) :
    Follows before c (w.run c answer moves) := by
  induction moves generalizing w with
  | nil => exact H
  | cons m moves ih =>
    cases m with
    | handle e now => exact ih (H.handle e now)
    | other component h hother => exact ih (H.other h hother)

theorem follows_new (c : Reconciler) (outside : σ) (health : HealthRegistry) :
    Follows (health.statusOf? Component.groupStore) c { outside, health } where
  degraded_iff := by simp
  status_eq := rfl
  told _ ho := nomatch ho

/-- After each event, the store of groups is reported by the last event alone: as degraded if it
failed there, and as healthy if an earlier one did. Events that fail there have called the
store, and those that are not to change groups have not. So when the last event that called the
store has failed there, the store is reported as degraded exactly if no event has been handled
since; any other event has made it healthy without a call. -/
theorem recovery_by_last_event (c : Reconciler)
    (answer : (r : ReconcilerRequest) → σ → ReconcilerInterface.Answer r × σ) (outside : σ)
    (health : HealthRegistry) (moves : List WorkerMove) :
    let w := run c answer { outside, health } moves
    (∀ o ∈ w.outcomes, (o.storeFailed → o.accessed) ∧ (¬c.ReachesGroups o.event → ¬o.accessed)) ∧
    (∀ past o, w.outcomes = past ++ [o] →
      w.status? =
        if o.storeFailed then some .degraded
        else if past.any EventOutcome.storeFailed then some .healthy
        else health.statusOf? Component.groupStore) ∧
    ∀ past o since, w.outcomes = past ++ o :: since → o.storeFailed →
      (∀ o' ∈ since, ¬o'.accessed) → (w.status? = some .degraded ↔ since = []) := by
  intro w
  have H : Follows (health.statusOf? Component.groupStore) c w :=
    (follows_new c outside health).run moves
  have hstatus : ∀ past o, w.outcomes = past ++ [o] →
      w.status? =
        if o.storeFailed then some .degraded
        else if past.any EventOutcome.storeFailed then some .healthy
        else health.statusOf? Component.groupStore := by
    intro past o houtcomes
    rw [H.status_eq, houtcomes, reported, List.getLast?_concat, Option.any_some, List.any_append]
    cases ho : o.storeFailed with
    | true => rfl
    | false => simp [ho]
  have haccessed : ∀ o ∈ w.outcomes, o.storeFailed → o.accessed := by
    intro o ho hfailed
    obtain ⟨failure, hresult⟩ := EventOutcome.storeFailed_iff.mp hfailed
    exact (H.told o ho).of_aggregate failure hresult
  refine ⟨fun o ho => ⟨haccessed o ho, ?_⟩, hstatus, ?_⟩
  · exact fun hleaves haccess => hleaves ((H.told o ho).accessed_iff.mp haccess).1
  · intro past o since houtcomes hfailed hsince
    rcases List.eq_nil_or_concat since with rfl | ⟨since, last, rfl⟩
    · simp [hstatus past o houtcomes, hfailed]
    · -- The last event has not called the store, so it has not failed there; but `o` had.
      have hlast : ¬last.storeFailed := fun hlast =>
        hsince last (by simp) (haccessed last (by simp [houtcomes]) hlast)
      have hany : (past ++ o :: since).any EventOutcome.storeFailed := by simp [hfailed]
      rw [hstatus (past ++ o :: since) last (by simp [houtcomes]), if_neg hlast, if_pos hany]
      simp

/-- A pod, as far as its groups are told by it. -/
def webPod : Resource where
  metadata := { name := some "web-0", namespaceName := some "shop" }
  content := .pod none none

/-- The pod appears, and is to be counted in its groups. -/
def podAdded : ResourceEvent := .new .create webPod ⟨1700000000, 0⟩

/-- The pod changes, which is ignored. -/
def podTouched : ResourceEvent := .new .update webPod ⟨1700000060, 0⟩

/-- An event about the pod that carries no object. -/
def podLost : ResourceEvent := { podTouched with object := none }

/-- A worker at its start, when the store of groups fails in the next two reads. -/
def beforeFailures : WorkerRun Pipeline where
  outside :=
    { Pipeline.new {} ⟨1700000000, 0⟩ with
      store := ScriptedStore.order {} .get [.fail .other, .fail .other] }
  health := {}

/-- How the appearance of the pod goes when the store fails. -/
def addedInVain : EventOutcome where
  event := podAdded
  result := .error (.aggregate (.store (.other "scripted for ns-shop")))
  accessed := true

/-- How the change of the pod goes. -/
def touchedOnly : EventOutcome where
  event := podTouched
  result := .ok .ignore
  accessed := false

/-- The pod appears in vain, another stage is reported, and the change of the pod is ignored. -/
def touchedAfterFailure : List WorkerMove :=
  [.handle podAdded 1700000000,
    .other Component.buffer (.report .healthy none 1700000030) (by decide),
    .handle podTouched 1700000060]

/-- A change that is ignored ends the report of a failure, without a call of the store. -/
theorem touched_recovers :
    let w := beforeFailures.run {} Pipeline.answer touchedAfterFailure
    w.outcomes = [addedInVain] ++ [touchedOnly] ∧ addedInVain.storeFailed ∧
      ¬Reconciler.ReachesGroups {} touchedOnly.event ∧ ¬touchedOnly.accessed ∧
      w.status? = some .healthy ∧ w.status? ≠ some .degraded := by
  intro w
  have houtcomes : w.outcomes = [addedInVain, touchedOnly] := by decide +kernel
  have hreaches : ¬Reconciler.ReachesGroups {} podTouched := by
    rintro ⟨object, -, -, hchanges⟩
    exact hchanges ⟨nofun, nofun⟩
  obtain ⟨hcalls, hstatus, hstays⟩ :=
    recovery_by_last_event {} Pipeline.answer beforeFailures.outside {} touchedAfterFailure
  have hquiet : ¬touchedOnly.accessed :=
    (hcalls touchedOnly (houtcomes ▸ List.mem_cons_of_mem _ (List.mem_singleton_self _))).2 hreaches
  refine ⟨houtcomes, by decide, hreaches, hquiet, hstatus [addedInVain] touchedOnly houtcomes, ?_⟩
  have hfailed := hstays [] addedInVain [touchedOnly] houtcomes (by decide) (by simpa using hquiet)
  exact fun h => absurd (hfailed.mp h) (by simp)

/-- The store fails, and is healthy again once a change is ignored or an object is missing, which
does not show that it works: the next event fails there again. -/
theorem recovered_unseen :
    let failed := beforeFailures.run {} Pipeline.answer [.handle podAdded 1700000000]
    let ignored := failed.run {} Pipeline.answer [.handle podTouched 1700000060]
    let lost := failed.run {} Pipeline.answer [.handle podLost 1700000060]
    let again := ignored.run {} Pipeline.answer [.handle podAdded 1700000120]
    (failed.outcomes = [addedInVain] ∧ failed.status? = some .degraded) ∧
    (ignored.outcomes = [addedInVain, touchedOnly] ∧ ignored.status? = some .healthy) ∧
    (lost.outcomes.map EventOutcome.accessed = [true, false] ∧ lost.status? = some .healthy) ∧
    (again.outcomes = [addedInVain, touchedOnly, addedInVain] ∧
      again.status? = some .degraded) := by
  decide +kernel

end WorkerRun

end Chargeback
