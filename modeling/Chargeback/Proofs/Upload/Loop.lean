import Chargeback.Pipeline.Rounds
import Chargeback.Proofs.Health.Reporters
import Chargeback.Proofs.Program.Protocol
import Mathlib.Algebra.Group.Nat.Defs

/-!
# Reports and pauses of the upload loop

The loop remembers four things from cycle to cycle: how many cycles have failed in a row, how
many payloads had been dropped at its last check, and whether it has reported itself or the
buffer as degraded. Each of them is told by the history of its cycles, and with them what the
registry shows and how long the loop pauses.

## Main definitions

* `UploadTurn`: what the loop meets in a cycle and in the pause after it.
* `UploadStage.run`: the loop over several cycles, with the registry that it reports to.
* `UploadStage.Follows`: the invariant of all runs.
* `UploadStage.run_laws`: what the registry shows after each cycle, and the pause that follows.
* `UploadRun.play_eq_run`: rounds of the loop are such cycles.
-/

namespace Chargeback

/-- What the loop meets in a cycle, and in the pause after it. -/
structure UploadTurn where
  outcome : UploadOutcome
  /-- How many payloads have been dropped in all when the cycle is over. -/
  dropped : Nat
  /-- What others have reported since the cycle before. -/
  others : HealthRegistry → HealthRegistry := id
  /-- Unix seconds of the loop's reports. -/
  reported : Int
  /-- The time at which the pause begins. -/
  clock : Instant
  /-- The loop is told to stop during the pause. -/
  interrupted : Bool := false

namespace UploadTurn

variable {t : UploadTurn} {past : List UploadTurn} {dropped : Nat}

/-- The cycle failed. -/
def failed (t : UploadTurn) : Bool := t.outcome.error?.isSome

/-- The cycle was stopped. -/
def stopped (t : UploadTurn) : Bool := t.outcome matches .stopped _

/-- The loop ends with the cycle or in the pause after it. -/
def ends (t : UploadTurn) : Bool := t.stopped || t.interrupted

/-- Nobody else reports how the uploader and the buffer do. -/
structure LeavesReports (t : UploadTurn) : Prop where
  uploader (r : HealthRegistry) :
    (t.others r).statusOf? Component.uploader = r.statusOf? Component.uploader
  buffer (r : HealthRegistry) :
    (t.others r).statusOf? Component.buffer = r.statusOf? Component.buffer

/-- How many cycles at the end of a history have failed in a row. -/
def failuresInARow (past : List UploadTurn) : Nat := (past.reverse.takeWhile failed).length

/-- How many payloads had been dropped at the last check of a history that began with a number
of dropped payloads. -/
def lastDropped (dropped : Nat) (past : List UploadTurn) : Nat :=
  (past.getLast?.map UploadTurn.dropped).getD dropped

/-- The pause after a history without the jitter: the interval, doubled for each failure in a row
up to sixteen times, and not above the bound or the interval itself. -/
def basePause (settings : UploadSettings) (past : List UploadTurn) : Nat :=
  min (settings.interval * 2 ^ min (failuresInARow past) 16)
    (max settings.maxBackoff settings.interval)

theorem basePause_eq (settings : UploadSettings) (past : List UploadTurn) :
    basePause settings past = settings.backoff (failuresInARow past) := rfl

theorem failuresInARow_append :
    failuresInARow (past ++ [t]) = if t.failed then failuresInARow past + 1 else 0 := by
  unfold failuresInARow
  rw [List.reverse_append, List.reverse_singleton, List.singleton_append, List.takeWhile_cons]
  split
  · rfl
  · rfl

@[simp] theorem lastDropped_append : lastDropped dropped (past ++ [t]) = t.dropped := by
  simp [lastDropped]

end UploadTurn

open UploadTurn

/-! ## The schedule -/

namespace UploadSettings

variable (s : UploadSettings) {k : Nat}

theorem backoff_eq (k : Nat) :
    s.backoff k = min (s.interval * 2 ^ min k 16) (max s.maxBackoff s.interval) := rfl

theorem backoff_mono {j k : Nat} (h : j ≤ k) : s.backoff j ≤ s.backoff k := by
  have hpower : 2 ^ min j 16 ≤ 2 ^ min k 16 := Nat.pow_le_pow_right (by decide) (by omega)
  have hproduct := Nat.mul_le_mul_left s.interval hpower
  rw [backoff_eq, backoff_eq]
  omega

theorem interval_le_backoff (k : Nat) : s.interval ≤ s.backoff k := by
  have hpower : 1 ≤ 2 ^ min k 16 := Nat.one_le_two_pow
  have hproduct := Nat.mul_le_mul_left s.interval hpower
  rw [backoff_eq]
  omega

theorem backoff_le (k : Nat) : s.backoff k ≤ max s.maxBackoff s.interval := Nat.min_le_right _ _

/-- A product that is cut to the longest length of time is cut to the bound after that. -/
theorem backoff_eq_of_saturating {longest : Nat} (hinterval : s.interval ≤ longest)
    (hbound : s.maxBackoff ≤ longest) :
    min (min (s.interval * 2 ^ min k 16) longest) (max s.maxBackoff s.interval) = s.backoff k := by
  rw [backoff_eq]
  omega

/-- Counting further than to the greatest word makes no difference. -/
theorem backoff_min_failures : s.backoff (min k (UInt32.size - 1)) = s.backoff k := by
  have hcount : min (min k (UInt32.size - 1)) 16 = min k 16 := by
    rw [Nat.min_assoc]
    rfl
  rw [backoff_eq, backoff_eq, hcount]

theorem jitterAt_eq_zero_or_lt (now : Instant) :
    s.jitterAt now = 0 ∨ s.jitterAt now < s.jitter := by
  unfold jitterAt
  split
  · exact .inl rfl
  · exact .inr (Nat.mod_lt _ (by omega))

end UploadSettings

/-! ## Runs -/

/-- The loop with the registry that it reports to. -/
structure UploadStage where
  loop : UploadLoop
  health : HealthRegistry

/-- The loop after a cycle that was not stopped, with the pause that follows. -/
structure UploadRest extends UploadStage where
  pause : Nat

namespace UploadStage

/-- The loop before its first cycle. -/
def start (dropped : Nat) (health : HealthRegistry) : UploadStage :=
  { loop := .start dropped, health }

/-- What comes of a cycle: the loop reports, and the registry records it; nothing if the cycle
was stopped. -/
def turn (settings : UploadSettings) (s : UploadStage) (t : UploadTurn) : Option UploadRest :=
  (s.loop.observe t.outcome t.dropped).map fun (reports, loop) =>
    { loop
      health := (t.others s.health).applyAll t.reported reports
      pause := loop.pause settings t.clock }

/-- The loop over several cycles, until one of them ends it. -/
def run (settings : UploadSettings) : UploadStage → List UploadTurn → List UploadRest
  | _, [] => []
  | s, t :: ts =>
    match s.turn settings t with
    | none => []
    | some rest => rest :: if t.interrupted then [] else run settings rest.toUploadStage ts

variable {settings : UploadSettings} {s : UploadStage} {t : UploadTurn} {rest : UploadRest}
  {past before after : List UploadTurn} {dropped : Nat}

theorem turn_of_stopped (h : t.stopped = true) : s.turn settings t = none := by
  obtain ⟨outcome, _⟩ := t
  cases outcome with
  | stopped n => rfl
  | noSubscriber => cases h
  | drained n => cases h
  | failed n e => cases h

/-- A cycle that was not stopped is counted, and reported with what has been dropped. -/
theorem exists_turn_of_not_stopped (settings : UploadSettings) (s : UploadStage)
    (h : t.stopped = false) :
    ∃ rest, s.turn settings t = some rest ∧
      rest.loop = (s.loop.afterCycle t.outcome.error? t.dropped).2 ∧
      rest.health =
        (t.others s.health).applyAll t.reported (s.loop.afterCycle t.outcome.error? t.dropped).1 ∧
      rest.pause = rest.loop.pause settings t.clock := by
  obtain ⟨outcome, _⟩ := t
  cases outcome with
  | stopped n => cases h
  | noSubscriber => exact ⟨_, rfl, rfl, rfl, rfl⟩
  | drained n => exact ⟨_, rfl, rfl, rfl, rfl⟩
  | failed n e => exact ⟨_, rfl, rfl, rfl, rfl⟩

end UploadStage

namespace UploadLoop

variable (l : UploadLoop) (failure : Option UploadError) (dropped : Nat) (r : HealthRegistry)
  (now : Int)

/-- What the loop remembers of a cycle. -/
theorem afterCycle_snd :
    (l.afterCycle failure dropped).2 =
      { failures := if failure.isSome then min (l.failures + 1) (UInt32.size - 1) else 0
        droppedSeen := dropped
        uploaderDegraded := failure.isSome
        bufferDegraded := decide (l.droppedSeen < dropped) } := by
  by_cases h : l.droppedSeen < dropped
  · cases failure <;> simp [afterCycle, countCycle, checkDropped, h]
  · cases failure <;> simp [afterCycle, countCycle, checkDropped, h]

theorem statusOf?_countCycle (name : String) :
    (r.applyAll now (l.countCycle failure).1).statusOf? name =
      if name = Component.uploader then
        if failure.isSome then some .degraded
        else if l.uploaderDegraded then some .healthy else r.statusOf? name
      else r.statusOf? name := by
  rcases failure with _ | e
  · by_cases h : l.uploaderDegraded
    · simp [countCycle, h, HealthRegistry.applyAll, HealthRegistry.statusOf?_apply_healthy, eq_comm]
    · simp [countCycle, h, HealthRegistry.applyAll]
  · simp [countCycle, HealthRegistry.applyAll, HealthRegistry.statusOf?_apply_degraded, eq_comm]

theorem statusOf?_checkDropped (name : String) :
    (r.applyAll now (l.checkDropped dropped).1).statusOf? name =
      if name = Component.buffer then
        if l.droppedSeen < dropped then some .degraded
        else if l.bufferDegraded then some .healthy else r.statusOf? name
      else r.statusOf? name := by
  by_cases hgrown : l.droppedSeen < dropped
  · simp [checkDropped, hgrown, HealthRegistry.applyAll, HealthRegistry.statusOf?_apply_degraded,
      eq_comm]
  · by_cases h : l.bufferDegraded
    · simp [checkDropped, hgrown, h, HealthRegistry.applyAll,
        HealthRegistry.statusOf?_apply_healthy, eq_comm]
    · simp [checkDropped, hgrown, h, HealthRegistry.applyAll]

/-- The loop reports first how the cycle went, and then how the buffer does. -/
theorem applyAll_afterCycle :
    r.applyAll now (l.afterCycle failure dropped).1 =
      (r.applyAll now (l.countCycle failure).1).applyAll now
        ((l.countCycle failure).2.checkDropped dropped).1 :=
  List.foldl_append

/-- The registry shows the uploader as the cycle went. -/
theorem statusOf?_uploader_afterCycle :
    (r.applyAll now (l.afterCycle failure dropped).1).statusOf? Component.uploader =
      if failure.isSome then some .degraded
      else if l.uploaderDegraded then some .healthy else r.statusOf? Component.uploader := by
  rw [applyAll_afterCycle, statusOf?_checkDropped, if_neg (by decide), statusOf?_countCycle,
    if_pos rfl]

/-- The registry shows the buffer as the last check went. -/
theorem statusOf?_buffer_afterCycle :
    (r.applyAll now (l.afterCycle failure dropped).1).statusOf? Component.buffer =
      if l.droppedSeen < dropped then some .degraded
      else if l.bufferDegraded then some .healthy else r.statusOf? Component.buffer := by
  have hcounted : (l.countCycle failure).2.droppedSeen = l.droppedSeen ∧
      (l.countCycle failure).2.bufferDegraded = l.bufferDegraded := by
    cases failure with
    | none => exact ⟨rfl, rfl⟩
    | some e => exact ⟨rfl, rfl⟩
  rw [applyAll_afterCycle, statusOf?_checkDropped, if_pos rfl, hcounted.1, hcounted.2,
    statusOf?_countCycle, if_neg (by decide : Component.buffer ≠ Component.uploader)]

end UploadLoop

/-! ## What the history tells -/

namespace UploadStage

variable {s u : UploadStage} {t : UploadTurn} {past : List UploadTurn} {dropped : Nat}
  {health : HealthRegistry}

/-- What the loop remembers is what the history of its cycles tells, and it knows what the
registry shows. -/
structure Follows (dropped : Nat) (past : List UploadTurn) (s : UploadStage) : Prop where
  failures : s.loop.failures = min (failuresInARow past) (UInt32.size - 1)
  seen : s.loop.droppedSeen = lastDropped dropped past
  uploader : s.loop.uploaderDegraded = true ↔
    s.health.statusOf? Component.uploader = some .degraded
  buffer : s.loop.bufferDegraded = true ↔ s.health.statusOf? Component.buffer = some .degraded

theorem follows_start (dropped : Nat)
    (huploader : health.statusOf? Component.uploader ≠ some .degraded)
    (hbuffer : health.statusOf? Component.buffer ≠ some .degraded) :
    (start dropped health).Follows dropped [] where
  failures := rfl
  seen := rfl
  uploader := by simpa [start, UploadLoop.start] using huploader
  buffer := by simpa [start, UploadLoop.start] using hbuffer

/-- A cycle adds to the history. -/
theorem Follows.afterCycle (H : s.Follows dropped past) (hown : t.LeavesReports)
    (hloop : u.loop = (s.loop.afterCycle t.outcome.error? t.dropped).2)
    (hhealth : u.health = (t.others s.health).applyAll t.reported
      (s.loop.afterCycle t.outcome.error? t.dropped).1) :
    u.Follows dropped (past ++ [t]) := by
  rw [UploadLoop.afterCycle_snd] at hloop
  refine { failures := ?_, seen := ?_, uploader := ?_, buffer := ?_ }
  · rw [hloop, failuresInARow_append, H.failures]
    change ite (t.failed = true) _ _ = _
    split
    · omega
    · rfl
  · rw [hloop, lastDropped_append]
  · rw [hloop, hhealth, UploadLoop.statusOf?_uploader_afterCycle, hown.uploader]
    have hbefore := H.uploader
    cases t.outcome.error?.isSome with
    | true => simp
    | false =>
      by_cases hshown : s.loop.uploaderDegraded
      · simp [hshown]
      · simpa [hshown] using hbefore
  · rw [hloop, hhealth, UploadLoop.statusOf?_buffer_afterCycle, hown.buffer]
    have hbefore := H.buffer
    by_cases hgrown : s.loop.droppedSeen < t.dropped
    · simp [hgrown]
    · by_cases hshown : s.loop.bufferDegraded
      · simp [hgrown, hshown]
      · simpa [hgrown, hshown] using hbefore

end UploadStage

/-- What a cycle leaves behind, as the history before it and the cycle itself tell. -/
structure UploadRest.ToldBy (settings : UploadSettings) (dropped : Nat) (past : List UploadTurn)
    (t : UploadTurn) (rest : UploadRest) : Prop where
  uploader : rest.health.statusOf? Component.uploader = some .degraded ↔ t.failed = true
  buffer : rest.health.statusOf? Component.buffer = some .degraded ↔
    lastDropped dropped past < t.dropped
  pause : ∃ jitter, (jitter = 0 ∨ jitter < settings.jitter) ∧
    rest.pause = basePause settings (past ++ [t]) + jitter
  bounds : settings.interval ≤ basePause settings (past ++ [t]) ∧
    basePause settings (past ++ [t]) ≤ max settings.maxBackoff settings.interval
  grows : t.failed = true → basePause settings past ≤ basePause settings (past ++ [t])
  /-- It makes no difference if products end at the longest length of time that there is. -/
  saturates : ∀ longest, settings.interval ≤ longest → settings.maxBackoff ≤ longest →
    min (min (settings.interval * 2 ^ min (failuresInARow (past ++ [t])) 16) longest)
      (max settings.maxBackoff settings.interval) = basePause settings (past ++ [t])

namespace UploadStage

variable {settings : UploadSettings} {s : UploadStage} {t : UploadTurn}
  {past before after turns : List UploadTurn} {dropped : Nat} {health : HealthRegistry}

/-- A cycle that is not stopped is carried out, and leaves behind what the history tells. -/
theorem Follows.turn (H : s.Follows dropped past) (settings : UploadSettings)
    (hown : t.LeavesReports) (h : t.stopped = false) :
    ∃ rest, s.turn settings t = some rest ∧ rest.Follows dropped (past ++ [t]) ∧
      rest.ToldBy settings dropped past t := by
  obtain ⟨rest, hrest, hloop, hhealth, hpause⟩ := exists_turn_of_not_stopped settings s h
  have hnext : rest.Follows dropped (past ++ [t]) := H.afterCycle hown hloop hhealth
  rw [UploadLoop.afterCycle_snd] at hloop
  refine ⟨rest, hrest, hnext,
    { uploader := ?_
      buffer := ?_
      pause := ⟨settings.jitterAt t.clock, settings.jitterAt_eq_zero_or_lt t.clock, ?_⟩
      bounds := ⟨settings.interval_le_backoff _, settings.backoff_le _⟩
      grows := fun hfailed => ?_
      saturates := fun longest => settings.backoff_eq_of_saturating }⟩
  · rw [← hnext.uploader, hloop]
    rfl
  · rw [← hnext.buffer, hloop, ← H.seen]
    exact decide_eq_true_iff
  · rw [hpause, UploadLoop.pause, UploadSettings.pause, hnext.failures,
      UploadSettings.backoff_min_failures]
    rfl
  · rw [basePause_eq, basePause_eq, failuresInARow_append, if_pos hfailed]
    exact settings.backoff_mono (Nat.le_succ _)

/-- Cycles that do not end the loop are all carried out, and then those that come after them. -/
theorem run_append (H : s.Follows dropped past) (settings : UploadSettings)
    (hown : ∀ u ∈ before, u.LeavesReports) (hgoes : ∀ u ∈ before, u.ends = false) :
    ∃ (rests : List UploadRest) (s' : UploadStage), rests.length = before.length ∧
      s'.Follows dropped (past ++ before) ∧
      ∀ after, run settings s (before ++ after) = rests ++ run settings s' after := by
  induction before generalizing s past with
  | nil => exact ⟨[], s, rfl, by simpa using H, fun _ => rfl⟩
  | cons u before ih =>
    rw [List.forall_mem_cons] at hown hgoes
    obtain ⟨hstopped, hinterrupted⟩ : u.stopped = false ∧ u.interrupted = false := by
      simpa [ends] using hgoes.1
    obtain ⟨rest, hrest, hnext, -⟩ := H.turn settings hown.1 hstopped
    obtain ⟨rests, s', hlength, hfollows, hrun⟩ := ih hnext hown.2 hgoes.2
    refine ⟨rest :: rests, s', congrArg Nat.succ hlength, by simpa using hfollows, fun after => ?_⟩
    rw [List.cons_append, run, hrest]
    simp only [hinterrupted, Bool.false_eq_true, if_false, hrun, List.cons_append]

/-- The loop over any cycles, of which those before a given one do not end it. The cycle takes
place. If it is not stopped, the uploader is degraded after it exactly if it has failed, the
buffer exactly if payloads have been dropped since the check before, and the pause that follows
is told by the failures in a row. If it is stopped, or the loop is told to stop in that pause, no
further cycle takes place. -/
theorem run_laws (settings : UploadSettings) (dropped : Nat)
    (huploader : health.statusOf? Component.uploader ≠ some .degraded)
    (hbuffer : health.statusOf? Component.buffer ≠ some .degraded)
    (hown : ∀ u ∈ before ++ t :: after, u.LeavesReports) (hgoes : ∀ u ∈ before, u.ends = false) :
    let rests := run settings (start dropped health) (before ++ t :: after)
    (t.stopped = false →
      ∃ rest, rests[before.length]? = some rest ∧ rest.ToldBy settings dropped before t) ∧
    (t.ends = true → rests.length = before.length + if t.stopped then 0 else 1) := by
  rw [List.forall_mem_append, List.forall_mem_cons] at hown
  obtain ⟨hbefore, ht, -⟩ := hown
  obtain ⟨rests, s, hlength, hfollows, hrun⟩ :=
    run_append (follows_start dropped huploader hbuffer) settings hbefore hgoes
  rw [List.nil_append] at hfollows
  dsimp only
  rw [hrun, run]
  refine ⟨fun hstopped => ?_, fun hends => ?_⟩
  · obtain ⟨rest, hrest, -, htold⟩ := hfollows.turn settings ht hstopped
    refine ⟨rest, ?_, htold⟩
    rw [hrest, ← hlength, List.getElem?_append_right (Nat.le_refl _), Nat.sub_self]
    rfl
  · cases hstopped : t.stopped with
    | true =>
      rw [turn_of_stopped hstopped]
      simp [hlength]
    | false =>
      obtain ⟨rest, hrest, -⟩ := hfollows.turn settings ht hstopped
      obtain hinterrupted : t.interrupted = true := by simpa [ends, hstopped] using hends
      rw [hrest]
      simp [hlength, hinterrupted]

/-- Three cycles fail, after the second of which payloads have been dropped, while the stage
that handles events is reported as degraded. -/
def failingCycles : List UploadTurn :=
  let cycle (dropped : Nat) : UploadTurn :=
    { outcome := .failed 0 .transport
      dropped
      others := fun r => r.apply 0 (.degraded Component.reconciler "Pod watch failing")
      reported := 0
      clock := ⟨0, 1500⟩ }
  [cycle 0, cycle 7, cycle 7]

/-- After the third failure the buffer is well again, and the pause is eight times as long. -/
theorem run_laws_of_failingCycles :
    let health := (HealthRegistry.register {} Component.uploader 0).register Component.buffer 0
    let settings : UploadSettings := {}
    (health.statusOf? Component.uploader ≠ some .degraded ∧
      health.statusOf? Component.buffer ≠ some .degraded ∧
      (∀ u ∈ failingCycles, u.LeavesReports) ∧ ∀ u ∈ failingCycles.take 2, u.ends = false) ∧
    ∃ rest, (run settings (start 0 health) failingCycles)[2]? = some rest ∧
      rest.health.statusOf? Component.uploader = some .degraded ∧
      rest.health.statusOf? Component.buffer ≠ some .degraded ∧
      ∃ jitter, (jitter = 0 ∨ jitter < 1000) ∧ rest.pause = 80000 + jitter := by
  intro health settings
  have hown : ∀ u ∈ failingCycles, u.LeavesReports := by
    have hothers (r : HealthRegistry) (name : String) (h : Component.reconciler ≠ name) :
        (r.apply 0 (.degraded Component.reconciler "Pod watch failing")).statusOf? name =
          r.statusOf? name := by
      rw [HealthRegistry.statusOf?_apply_degraded, if_neg h]
    intro u hu
    simp only [failingCycles, List.mem_cons, List.not_mem_nil, or_false] at hu
    rcases hu with rfl | rfl | rfl <;>
      exact ⟨fun r => hothers r _ (by decide), fun r => hothers r _ (by decide)⟩
  have huploader : health.statusOf? Component.uploader ≠ some .degraded := by decide
  have hbuffer : health.statusOf? Component.buffer ≠ some .degraded := by decide
  have hgoes : ∀ u ∈ failingCycles.take 2, u.ends = false := by decide
  have hsplit : ∀ u ∈ failingCycles.take 2 ++ failingCycles[2] :: [], u.LeavesReports := hown
  obtain ⟨htold, -⟩ := run_laws settings 0 huploader hbuffer hsplit hgoes
  obtain ⟨rest, hrest, htold⟩ := htold rfl
  obtain ⟨jitter, hjitter, hpause⟩ := htold.pause
  have hbase : basePause settings (failingCycles.take 2 ++ [failingCycles[2]]) = 80000 := by decide
  rw [hbase] at hpause
  exact ⟨⟨huploader, hbuffer, hown, hgoes⟩, rest, hrest, htold.uploader.mpr rfl,
    fun h => Nat.lt_irrefl 7 (htold.buffer.mp h), jitter, hjitter, hpause⟩

end UploadStage

/-! ## Rounds -/

namespace UploadRun

variable {run : UploadRun} {r : Round} {rest : UploadRest}

/-- The loop of a run with its registry. -/
def stage (run : UploadRun) : UploadStage := { loop := run.loop, health := run.pipeline.health }

/-- What the loop meets in a round. Nobody else reports meanwhile. -/
def turnOf (run : UploadRun) (r : Round) : UploadTurn :=
  let (outcome, p) := r.cycle run.settings.batchSize run.pipeline
  { outcome, dropped := p.buffer.dropped, reported := p.now.seconds, clock := p.now
    interrupted := r.stops }

/-- What the loop meets in several rounds. -/
def turns : UploadRun → List Round → List UploadTurn
  | _, [] => []
  | run, r :: rs => run.turnOf r :: turns (run.round r).2.rest rs

/-- The time and the registry at the beginning of each cycle, and after the last one. -/
def beginnings (elapsed : Nat) (health : HealthRegistry) :
    List UploadRest → List (Nat × HealthRegistry)
  | [] => [(elapsed, health)]
  | rest :: rests => (elapsed, health) :: beginnings (elapsed + rest.pause) rest.health rests

theorem health_cycle (r : Round) (n : Nat) (p : Pipeline) : (r.cycle n p).2.health = p.health := by
  have henqueue (p : Pipeline) (payloads : List Payload) :
      (payloads.foldl (fun p payload => (p.enqueue payload).2) p).health = p.health := by
    induction payloads generalizing p with
    | nil => rfl
    | cons payload payloads ih =>
      rw [List.foldl_cons, ih]
      unfold Pipeline.enqueue
      dsimp only
      split
      · rfl
      · rfl
  have hanswer (request : UploadRequest) (q : Pipeline) (hq : q.health = p.health) :
      (r.answer request q).2.health = p.health := by
    cases request with
    | subscribers => exact (henqueue q r.arriving).trans hq
    | _ => exact hq
  exact Program.run_keeps (Q := fun q : Pipeline => q.health = p.health) hanswer
    (Cycle.program n (p.buffer.len + r.arriving.length)) rfl

/-- A round is a cycle of the loop, with the pause after it if it is not stopped. -/
theorem round_turn (run : UploadRun) (r : Round) :
    (run.stage.turn run.settings (run.turnOf r) = none ∧ (run.round r).1 = false ∧
      (run.round r).2.pipeline.health = run.pipeline.health) ∨
    ∃ rest, run.stage.turn run.settings (run.turnOf r) = some rest ∧
      (run.round r).1 = !r.stops ∧ (run.round r).2.stage = rest.toUploadStage ∧
      (run.round r).2.settings = run.settings ∧
      (run.round r).2.rest.elapsed = run.elapsed + rest.pause := by
  have hhealth := health_cycle r run.settings.batchSize run.pipeline
  unfold UploadStage.turn turnOf stage round
  generalize r.cycle run.settings.batchSize run.pipeline = c at hhealth
  obtain ⟨outcome, p⟩ := c
  dsimp only at hhealth ⊢
  rw [← hhealth]
  cases run.loop.observe outcome p.buffer.dropped with
  | none => exact .inl ⟨rfl, rfl, rfl⟩
  | some o => exact .inr ⟨_, rfl, rfl, rfl, rfl, rfl⟩

/-- Rounds are such cycles: each of them begins when the pause after the one before is over,
with the registry that this one has left, and the last one leaves its registry at the end. -/
theorem play_eq_run (run : UploadRun) (rs : List Round) :
    let rests := UploadStage.run run.settings run.stage (run.turns rs)
    let told := beginnings run.elapsed run.pipeline.health rests
    rests.length ≤ (play run rs).1.length ∧
      (play run rs).1.map (fun m => (m.elapsed, m.health)) <+: told ∧
      told.getLast?.map Prod.snd = some (play run rs).2.pipeline.health := by
  induction rs generalizing run with
  | nil => exact ⟨Nat.le_refl _, List.nil_prefix, rfl⟩
  | cons r rs ih =>
    dsimp only at ih ⊢
    rw [turns, UploadStage.run]
    rcases round_turn run r with ⟨hturn, hgoes, hhealth⟩ |
      ⟨rest, hturn, hgoes, hstage, hsettings, helapsed⟩
    · have hplay : play run (r :: rs) = ([run.moment], (run.round r).2) := by
        simp [play, hgoes]
      rw [hturn, hplay, hhealth]
      exact ⟨Nat.zero_le _, List.prefix_refl _, rfl⟩
    · have hhealth : (run.round r).2.pipeline.health = rest.health :=
        congrArg UploadStage.health hstage
      have hinterrupted : (run.turnOf r).interrupted = r.stops := rfl
      have hnext : (run.round r).2.rest.stage = rest.toUploadStage := hstage
      rw [hturn]
      dsimp only
      rw [hinterrupted]
      cases hstops : r.stops with
      | true =>
        have hplay : play run (r :: rs) = ([run.moment], (run.round r).2) := by
          simp [play, hgoes, hstops]
        rw [hplay, hhealth]
        exact ⟨Nat.le_refl _, ⟨[_], rfl⟩, rfl⟩
      | false =>
        obtain ⟨hlength, hbegin, hlast⟩ := ih (run.round r).2.rest
        have hplay : play run (r :: rs) =
            (run.moment :: (play (run.round r).2.rest rs).1, (play (run.round r).2.rest rs).2) := by
          simp [play, hgoes, hstops]
        have hkept : (run.round r).2.rest.settings = run.settings := hsettings
        have hleft : (run.round r).2.rest.pipeline.health = rest.health := hhealth
        rw [hkept, hnext] at hlength hbegin hlast
        rw [helapsed, hleft] at hbegin hlast
        rw [hplay]
        refine ⟨Nat.succ_le_succ hlength, List.cons_prefix_cons.mpr ⟨rfl, hbegin⟩, ?_⟩
        obtain ⟨last, hget, hleave⟩ := Option.map_eq_some_iff.mp hlast
        simp only [Bool.false_eq_true, if_false, beginnings, List.getLast?_cons, hget]
        exact congrArg some hleave

end UploadRun

end Chargeback
