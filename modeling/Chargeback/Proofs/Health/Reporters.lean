import Chargeback.Proofs.Histories
import Chargeback.Reconciler.Worker
import Chargeback.Watch.Watcher
import Mathlib.Logic.Function.Basic

/-!
# Reporters of one stage

Watchers and workers all report the stage that handles events, each by what it has met with
itself, and the registry keeps the last report only. So a stage that several of them have
reported as degraded is healthy again as soon as one of them recovers, even if the stream of
another one is still failing. Without such a recovery it stays degraded for as long as one
stream is failing.

## Main definitions

* `Reporters`, `Reporters.move`: watchers and workers with the registry that they share.
* `WatchFails`, `WorkFails`: what the last item of a stream and the last result tell.
* `ReporterMove.Recovers`: a reporter that had failed in the stage no longer does.
* `Reporters.Follows`: the invariant of all runs.
-/

namespace Chargeback

/-- Any number of watchers and workers, with the registry that they share. -/
structure Reporters (ι κ : Type) where
  watchers : ι → Watcher
  workers : κ → Worker
  health : HealthRegistry

/-- What can happen to one of them next. -/
inductive ReporterMove (ι κ : Type) where
  /-- The stream of a watcher yields an item. -/
  | item (watcher : ι) (item : WatchItem) (now : Int)
  /-- A worker has handled an event. A panic is left out: it ends the worker, and nothing is
  reported of it. -/
  | handled (worker : κ) (result : Except ReconcileError Handler) (now : Int)
    (hcompleted : result ≠ .error .storageOverflow)

variable {ι κ : Type}

namespace ReporterMove

/-- The item of a watcher's stream, if the move is one. -/
def itemOf? [DecidableEq ι] (i : ι) : ReporterMove ι κ → Option WatchItem
  | item watcher it _ => if watcher = i then some it else none
  | handled .. => none

/-- The result of a worker, if the move is one. -/
def resultOf? [DecidableEq κ] (j : κ) : ReporterMove ι κ → Option (Except ReconcileError Handler)
  | item .. => none
  | handled worker result _ _ => if worker = j then some result else none

/-- A stream fails, or an event fails in the stage that handles events. -/
def Fails : ReporterMove ι κ → Prop
  | item _ (.failure _) _ => True
  | handled _ (.error e) _ _ => e.component? = some Component.reconciler
  | _ => False

end ReporterMove

/-! ## Histories -/

variable {i : ι} {j : κ} {past moves : List (ReporterMove ι κ)} {m : ReporterMove ι κ}

section Watchers

variable [DecidableEq ι]

/-- The most recent item of a watcher's stream. -/
def lastItem? (i : ι) (moves : List (ReporterMove ι κ)) : Option WatchItem :=
  (moves.filterMap (·.itemOf? i)).getLast?

/-- The most recent item of a watcher's stream is an error. -/
def WatchFails (i : ι) (moves : List (ReporterMove ι κ)) : Prop :=
  ∃ f, lastItem? i moves = some (.failure f)

theorem lastItem?_append : lastItem? i (past ++ [m]) = (m.itemOf? i).or (lastItem? i past) := by
  rw [lastItem?, List.filterMap_append, List.filterMap_cons]
  cases m.itemOf? i with
  | none => simp [lastItem?]
  | some item => simp

theorem watchFails_append_of_item {it : WatchItem} (h : m.itemOf? i = some it) :
    WatchFails i (past ++ [m]) ↔ ∃ f, it = .failure f := by
  rw [WatchFails, lastItem?_append, h, Option.some_or]
  simp only [Option.some.injEq]

/-- An item of another stream leaves the most recent one as it was. -/
theorem watchFails_append_of_none (h : m.itemOf? i = none) :
    WatchFails i (past ++ [m]) ↔ WatchFails i past := by
  rw [WatchFails, lastItem?_append, h, Option.none_or, WatchFails]

/-- An item of the stream itself that leaves it failing is a failure. -/
theorem fails_of_item {it : WatchItem} (hi : m.itemOf? i = some it)
    (h : WatchFails i (past ++ [m])) : m.Fails := by
  obtain ⟨f, rfl⟩ := (watchFails_append_of_item hi).mp h
  cases m with
  | item watcher item now =>
    rw [ReporterMove.itemOf?] at hi
    split at hi
    next => cases hi; trivial
    next => cases hi
  | handled worker result now hcompleted => cases hi

end Watchers

section Workers

variable [DecidableEq κ]

/-- The most recent result of a worker. -/
def lastResult? (j : κ) (moves : List (ReporterMove ι κ)) :
    Option (Except ReconcileError Handler) :=
  (moves.filterMap (·.resultOf? j)).getLast?

/-- The most recent event of a worker has failed in the stage that handles events. -/
def WorkFails (j : κ) (moves : List (ReporterMove ι κ)) : Prop :=
  ∃ e, lastResult? j moves = some (.error e) ∧ e.component? = some Component.reconciler

theorem lastResult?_append :
    lastResult? j (past ++ [m]) = (m.resultOf? j).or (lastResult? j past) := by
  rw [lastResult?, List.filterMap_append, List.filterMap_cons]
  cases m.resultOf? j with
  | none => simp [lastResult?]
  | some result => simp

theorem workFails_append_of_result {result : Except ReconcileError Handler}
    (h : m.resultOf? j = some result) :
    WorkFails j (past ++ [m]) ↔
      ∃ e, result = .error e ∧ e.component? = some Component.reconciler := by
  rw [WorkFails, lastResult?_append, h, Option.some_or]
  simp only [Option.some.injEq]

theorem workFails_append_of_none (h : m.resultOf? j = none) :
    WorkFails j (past ++ [m]) ↔ WorkFails j past := by
  rw [WorkFails, lastResult?_append, h, Option.none_or, WorkFails]

end Workers

variable [DecidableEq ι] [DecidableEq κ]

/-- A reporter that had failed in the stage before no longer does: it succeeds, or fails in
another stage. -/
def ReporterMove.Recovers (past : List (ReporterMove ι κ)) : ReporterMove ι κ → Prop
  | item watcher (.event _) _ => WatchFails watcher past
  | item _ (.failure _) _ => False
  | handled worker (.ok _) _ _ => WorkFails worker past
  | handled worker (.error e) _ _ =>
    WorkFails worker past ∧ e.component? ≠ some Component.reconciler

theorem ReporterMove.Recovers.not_fails (h : m.Recovers past) : ¬m.Fails := by
  match m, h with
  | item _ (.event _) _, _ => exact id
  | handled _ (.ok _) _ _, _ => exact id
  | handled _ (.error _) _ _, h => exact h.2

/-! ## The registry -/

/-- All failures but a panic are reported for a stage. -/
theorem ReconcileError.exists_component? {e : ReconcileError}
    (h : (.error e : Except ReconcileError Handler) ≠ .error .storageOverflow) :
    ∃ component, e.component? = some component := by
  cases e with
  | missingObject key => exact ⟨_, rfl⟩
  | aggregate failure => exact ⟨_, rfl⟩
  | storageOverflow => exact absurd rfl h

namespace HealthRegistry

variable {r : HealthRegistry} {now : Int} {component name message : String}

theorem statusOf?_update {h : Component.Health} :
    (r.update component h).statusOf? name =
      if component = name then some h.status else r.statusOf? name := by
  rw [statusOf?, update, KeyMap.get?_insert]
  split
  next => rfl
  next => rfl

theorem statusOf?_apply_healthy :
    (r.apply now (.healthy component)).statusOf? name =
      if component = name then some .healthy else r.statusOf? name :=
  statusOf?_update

theorem statusOf?_apply_degraded :
    (r.apply now (.degraded component message)).statusOf? name =
      if component = name then some .degraded else r.statusOf? name :=
  statusOf?_update

/-- What a watcher reports about an event tells that it is well again, if it was not. -/
theorem statusOf?_observe_event {w : Watcher} {e : WatchEvent} :
    (r.applyAll now (w.observe (.event e)).reports).statusOf? Component.reconciler =
      if w.degraded = true then some .healthy else r.statusOf? Component.reconciler := by
  cases hw : w.degraded with
  | true => simp [Watcher.observe, hw, applyAll, statusOf?_apply_healthy]
  | false => simp [Watcher.observe, hw, applyAll]

theorem statusOf?_observe_failure {w : Watcher} {f : WatchFailure} :
    (r.applyAll now (w.observe (.failure f)).reports).statusOf? Component.reconciler =
      some .degraded := by
  simp [Watcher.observe, applyAll, statusOf?_apply_degraded]

theorem statusOf?_report_ok {w : Worker} {handler : Handler} :
    (r.applyAll now (w.report (.ok handler)).1).statusOf? name =
      if w.degraded = some name then some .healthy else r.statusOf? name := by
  cases hw : w.degraded with
  | none => simp [Worker.report, hw, applyAll]
  | some component => simp [Worker.report, hw, applyAll, statusOf?_apply_healthy]

/-- A failure in one stage tells that the stage that had failed before is well again. -/
theorem statusOf?_report_error {w : Worker} {e : ReconcileError}
    (he : e.component? = some component) :
    (r.applyAll now (w.report (.error e)).1).statusOf? name =
      if component = name then some .degraded
      else if w.degraded = some name then some .healthy else r.statusOf? name := by
  cases hw : w.degraded with
  | none => simp [Worker.report, he, hw, applyAll, statusOf?_apply_degraded]
  | some before =>
    by_cases hsame : before = component
    · simp +contextual [Worker.report, he, hw, hsame, Option.filter, applyAll,
        statusOf?_apply_degraded]
    · simp [Worker.report, he, hw, hsame, Option.filter, applyAll, statusOf?_apply_degraded,
        statusOf?_apply_healthy]

end HealthRegistry

/-! ## Moves -/

namespace Reporters

/-- Watchers of some kinds and workers at their start. -/
def new (kinds : ι → ResourceKind) (health : HealthRegistry) : Reporters ι κ where
  watchers i := { kind := kinds i }
  workers _ := {}
  health

/-- What comes of a move: the reporter reports, and the registry records it. -/
def move (s : Reporters ι κ) : ReporterMove ι κ → Reporters ι κ
  | .item i item now =>
    let o := (s.watchers i).observe item
    { s with
      watchers := Function.update s.watchers i o.watcher
      health := s.health.applyAll now o.reports }
  | .handled j result now _ =>
    let (reports, worker) := (s.workers j).report result
    { s with
      workers := Function.update s.workers j worker
      health := s.health.applyAll now reports }

/-- What comes of moves one after the other. -/
def run (s : Reporters ι κ) (moves : List (ReporterMove ι κ)) : Reporters ι κ := moves.foldl move s

/-- The status of the stage that handles events, if it has been reported. -/
def status? (s : Reporters ι κ) : Option Status := s.health.statusOf? Component.reconciler

variable {s : Reporters ι κ}

theorem run_append : s.run (past ++ [m]) = (s.run past).move m := by
  rw [run, List.foldl_append]
  rfl

/-- Each reporter knows whether it has failed last. -/
structure Follows (s : Reporters ι κ) (past : List (ReporterMove ι κ)) : Prop where
  watchers : ∀ i, (s.watchers i).degraded = true ↔ WatchFails i past
  workers : ∀ j, (s.workers j).degraded = some Component.reconciler ↔ WorkFails j past

theorem follows_new (kinds : ι → ResourceKind) (health : HealthRegistry) :
    (new kinds health : Reporters ι κ).Follows [] where
  watchers i := by simp [new, WatchFails, lastItem?]
  workers j := by simp [new, WorkFails, lastResult?]

theorem Follows.item (H : s.Follows past) (i : ι) (it : WatchItem) (now : Int) :
    (s.move (.item i it now)).Follows (past ++ [.item i it now]) where
  workers j := by
    rw [workFails_append_of_none rfl]
    exact H.workers j
  watchers k := by
    by_cases hk : i = k
    · subst hk
      have hown : (ReporterMove.item i it now : ReporterMove ι κ).itemOf? i = some it := if_pos rfl
      rw [watchFails_append_of_item hown]
      cases it with
      | event e => simp [move, Watcher.observe]
      | failure f => simp [move, Watcher.observe]
    · have hother : (ReporterMove.item i it now : ReporterMove ι κ).itemOf? k = none := if_neg hk
      rw [watchFails_append_of_none hother, ← H.watchers k]
      simp [move, Function.update_of_ne (Ne.symm hk)]

theorem Follows.handled (H : s.Follows past) (j : κ) (result : Except ReconcileError Handler)
    (now : Int) (hcompleted : result ≠ .error .storageOverflow) :
    (s.move (.handled j result now hcompleted)).Follows
      (past ++ [.handled j result now hcompleted]) where
  watchers i := by
    rw [watchFails_append_of_none rfl]
    exact H.watchers i
  workers k := by
    let m : ReporterMove ι κ := .handled j result now hcompleted
    by_cases hk : j = k
    · subst hk
      have hown : m.resultOf? j = some result := if_pos rfl
      rw [workFails_append_of_result hown]
      cases result with
      | ok handler => simp [move, Worker.report]
      | error e =>
        obtain ⟨component, he⟩ := ReconcileError.exists_component? hcompleted
        simp [move, Worker.report, he]
    · have hother : m.resultOf? k = none := if_neg hk
      rw [workFails_append_of_none hother, ← H.workers k]
      simp [move, Function.update_of_ne (Ne.symm hk)]

theorem Follows.move (H : s.Follows past) (m : ReporterMove ι κ) :
    (s.move m).Follows (past ++ [m]) := by
  cases m with
  | item i it now => exact H.item i it now
  | handled j result now hcompleted => exact H.handled j result now hcompleted

/-- By induction on the moves, the last one at the end. -/
theorem follows_run (kinds : ι → ResourceKind) (health : HealthRegistry)
    (moves : List (ReporterMove ι κ)) : ((new kinds health).run moves).Follows moves := by
  induction moves using List.reverseRecOn with
  | nil => exact follows_new kinds health
  | append_singleton past m ih =>
    rw [run_append]
    exact ih.move m

/-! ## Statuses -/

theorem status?_item {it : WatchItem} {now : Int} :
    (s.move (.item i it now)).status? =
      (s.health.applyAll now ((s.watchers i).observe it).reports).statusOf?
        Component.reconciler := rfl

theorem status?_handled {result : Except ReconcileError Handler} {now : Int}
    {hcompleted : result ≠ .error .storageOverflow} :
    (s.move (.handled j result now hcompleted)).status? =
      (s.health.applyAll now ((s.workers j).report result).1).statusOf? Component.reconciler := rfl

/-- What a move makes of the status: a failure degrades the stage, a recovery makes it healthy,
and anything else leaves it as it is. -/
structure Reported (past : List (ReporterMove ι κ)) (m : ReporterMove ι κ)
    (before after : Option Status) : Prop where
  of_fails : m.Fails → after = some .degraded
  of_recovers : m.Recovers past → after = some .healthy
  of_neither : ¬m.Fails → ¬m.Recovers past → after = before

theorem Follows.reported_item (H : s.Follows past) (i : ι) (it : WatchItem) (now : Int) :
    Reported past (.item i it now) s.status? (s.move (.item i it now)).status? := by
  rw [status?_item]
  cases it with
  | event e =>
    rw [HealthRegistry.statusOf?_observe_event]
    refine ⟨fun hfails => hfails.elim, fun hrecovers => ?_, fun _ hnot => ?_⟩
    · exact if_pos ((H.watchers i).mpr hrecovers)
    · exact if_neg fun h => hnot ((H.watchers i).mp h)
  | failure f =>
    rw [HealthRegistry.statusOf?_observe_failure]
    exact ⟨fun _ => rfl, fun hrecovers => hrecovers.elim, fun hnot => (hnot trivial).elim⟩

theorem Follows.reported_handled (H : s.Follows past) (j : κ)
    (result : Except ReconcileError Handler) (now : Int)
    (hcompleted : result ≠ .error .storageOverflow) :
    Reported past (.handled j result now hcompleted) s.status?
      (s.move (.handled j result now hcompleted)).status? := by
  rw [status?_handled]
  cases result with
  | ok handler =>
    rw [HealthRegistry.statusOf?_report_ok]
    refine ⟨fun hfails => hfails.elim, fun hrecovers => ?_, fun _ hnot => ?_⟩
    · exact if_pos ((H.workers j).mpr hrecovers)
    · exact if_neg fun h => hnot ((H.workers j).mp h)
  | error e =>
    obtain ⟨component, he⟩ := ReconcileError.exists_component? hcompleted
    have hsame : e.component? = some Component.reconciler ↔ component = Component.reconciler := by
      rw [he, Option.some_inj]
    rw [HealthRegistry.statusOf?_report_error he]
    refine ⟨fun hfails => if_pos (hsame.mp hfails), fun hrecovers => ?_, fun hnot hnot' => ?_⟩
    · rw [if_neg (mt hsame.mpr hrecovers.2)]
      exact if_pos ((H.workers j).mpr hrecovers.1)
    · have hother : e.component? ≠ some Component.reconciler := hnot
      rw [if_neg (mt hsame.mpr hother)]
      exact if_neg fun h => hnot' ⟨(H.workers j).mp h, hother⟩

theorem Follows.reported (H : s.Follows past) (m : ReporterMove ι κ) :
    Reported past m s.status? (s.move m).status? := by
  cases m with
  | item i it now => exact H.reported_item i it now
  | handled j result now hcompleted => exact H.reported_handled j result now hcompleted

/-! ## A failing watch -/

/-- Since the stream of a watcher has begun to fail, another reporter has recovered in the
stage, and nobody has failed in it after that. -/
structure RecoveredSince (i : ι) (moves before : List (ReporterMove ι κ)) (m : ReporterMove ι κ)
    (after : List (ReporterMove ι κ)) : Prop where
  moves_eq : moves = before ++ m :: after
  fails : WatchFails i before
  recovers : m.Recovers before
  others : ∀ m' ∈ m :: after, m'.itemOf? i = none
  quiet : ∀ m' ∈ after, ¬m'.Fails

/-- Another reporter has recovered since, as above. -/
def Outdone (i : ι) (moves : List (ReporterMove ι κ)) : Prop :=
  ∃ before m after, RecoveredSince i moves before m after

theorem outdone_of_recovers (hi : m.itemOf? i = none) (hfails : WatchFails i past)
    (h : m.Recovers past) : Outdone i (past ++ [m]) :=
  ⟨past, m, [], rfl, hfails, h, by simpa using hi, by simp⟩

/-- What is neither a failure nor a recovery changes nothing about it. -/
theorem outdone_append_iff (hi : m.itemOf? i = none) (hfails : ¬m.Fails)
    (hrecovers : ¬m.Recovers past) : Outdone i (past ++ [m]) ↔ Outdone i past := by
  constructor
  · rintro ⟨before, m', after, R⟩
    rcases append_singleton_eq_append_cons_iff.mp R.moves_eq with
      ⟨rfl, rfl, rfl⟩ | ⟨rest, hpast, rfl⟩
    · exact absurd R.recovers hrecovers
    · exact ⟨before, m', rest, hpast, R.fails, R.recovers,
        fun a ha => R.others a (List.mem_append_left [m] ha),
        fun a ha => R.quiet a (List.mem_append_left [m] ha)⟩
  · rintro ⟨before, m', after, R⟩
    refine ⟨before, m', after ++ [m], ?_, R.fails, R.recovers, ?_, ?_⟩
    · rw [R.moves_eq, List.append_assoc, List.cons_append]
    · rw [← List.cons_append, List.forall_mem_append]
      exact ⟨R.others, by simpa using hi⟩
    · rw [List.forall_mem_append]
      exact ⟨R.quiet, by simpa using hfails⟩

/-- A failure ends it, whoever fails. -/
theorem not_outdone_of_fails (h : m.Fails) : ¬Outdone i (past ++ [m]) := by
  rintro ⟨before, m', after, R⟩
  rcases append_singleton_eq_append_cons_iff.mp R.moves_eq with ⟨rfl, rfl, rfl⟩ | ⟨rest, -, rfl⟩
  · exact R.recovers.not_fails h
  · exact R.quiet m (List.mem_append_right rest (List.mem_singleton_self m)) h

/-- While the stream of a watcher is failing, the stage is degraded, unless another reporter
that had failed in it has stopped failing since: then it is healthy, until somebody fails
again. -/
theorem status_of_failing_watch (kinds : ι → ResourceKind) (health : HealthRegistry)
    (moves : List (ReporterMove ι κ)) (i : ι) (h : WatchFails i moves) :
    (¬Outdone i moves → ((new kinds health).run moves).status? = some .degraded) ∧
      (Outdone i moves → ((new kinds health).run moves).status? = some .healthy) := by
  induction moves using List.reverseRecOn with
  | nil =>
    obtain ⟨f, hf⟩ := h
    cases hf
  | append_singleton past m ih =>
    have R := (follows_run kinds health past).reported m
    rw [run_append]
    by_cases hfails : m.Fails
    · exact ⟨fun _ => R.of_fails hfails, fun hout => absurd hout (not_outdone_of_fails hfails)⟩
    · have hi : m.itemOf? i = none := by
        cases hi : m.itemOf? i with
        | none => rfl
        | some it => exact absurd (fails_of_item hi h) hfails
      have hpast : WatchFails i past := (watchFails_append_of_none hi).mp h
      by_cases hrecovers : m.Recovers past
      · exact ⟨fun hnot => absurd (outdone_of_recovers hi hpast hrecovers) hnot,
          fun _ => R.of_recovers hrecovers⟩
      · rw [outdone_append_iff hi hfails hrecovers, R.of_neither hfails hrecovers]
        exact ih hpast

/-- The streams of two watchers fail, and events are handled well. -/
def bothFailing : List (ReporterMove Bool Unit) :=
  [.item false (.failure .watchStart) 1700000000, .handled () (.ok .exportOnly) 1700000001 nofun] ++
    [.item true (.failure .stream) 1700000002]

/-- Then one of the two goes on with a new list, and the other one does not. -/
def oneFailing : List (ReporterMove Bool Unit) :=
  bothFailing ++ [.item true (.event (.restarted [])) 1700000003]

/-- The watchers of pods and of nodes. -/
def podsAndNodes : Reporters Bool Unit :=
  new (fun i => if i then .node else .pod) {}

/-- Both failing, the stage is degraded; and when the other one recovers, it is healthy. -/
theorem status_of_two_watches :
    (WatchFails false bothFailing ∧ ¬Outdone false bothFailing ∧
      (podsAndNodes.run bothFailing).status? = some .degraded) ∧
    (WatchFails false oneFailing ∧ Outdone false oneFailing ∧
      (podsAndNodes.run oneFailing).status? = some .healthy) := by
  have hboth : WatchFails false bothFailing := ⟨.watchStart, rfl⟩
  have hlast : (.item true (.failure .stream) 1700000002 : ReporterMove Bool Unit).Fails := trivial
  have hnot : ¬Outdone false bothFailing := not_outdone_of_fails hlast
  have hone : WatchFails false oneFailing := ⟨.watchStart, rfl⟩
  have hout : Outdone false oneFailing := outdone_of_recovers rfl hboth ⟨.stream, rfl⟩
  exact ⟨⟨hboth, hnot, (status_of_failing_watch _ _ _ _ hboth).1 hnot⟩,
    ⟨hone, hout, (status_of_failing_watch _ _ _ _ hone).2 hout⟩⟩

/-- The stream of pods is failing still, but the stage is reported as healthy. -/
theorem healthy_beside_failing_watch :
    lastItem? false oneFailing = some (.failure .watchStart) ∧
      (podsAndNodes.run oneFailing).status? = some .healthy :=
  ⟨rfl, rfl⟩

end Reporters

end Chargeback
