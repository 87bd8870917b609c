import Chargeback.Proofs.Pipeline.Conservation
import Chargeback.Proofs.Upload.Ending
import Chargeback.Proofs.Upload.Rounds
import Mathlib.Data.List.Chain
import Mathlib.Data.List.Infix

/-!
# Cycles remove what was acknowledged

Cycle follows cycle over the buffer of a pipeline. Payloads are offered to the buffer
between any two steps of a cycle, each post is answered by any status or by none, each
time a cycle asks whether to stop it is told anything, and the store changes in whatever
way.

A batch that was posted is still in front of the buffer when it is removed, since payloads
are only ever added behind it. So what a cycle removes is what was acknowledged.

## Main definitions

* `CycleRun`, `CycleMove`: cycle after cycle, with what they have done.
* `CycleRun.Kept`: the invariant of all runs.
* `CycleRun.CommitsAcknowledged`: a cycle removes exactly what was acknowledged.
-/

namespace Chargeback

open CycleEvent

/-- The batch that a cycle is about to post, if there is one. -/
def Cycle.batch? : Cycle → Option (List Payload)
  | posting _ _ batch => some batch
  | _ => none

/-- Neither a post nor a removal. -/
def UploadRequest.isQuiet : UploadRequest → Bool
  | post .. | commit .. => false
  | _ => true

/-- Cycle after cycle over the buffer of a pipeline. -/
structure CycleRun where
  pipeline : Pipeline
  batchSize : Nat
  /-- Where the present cycle stands. -/
  stage : Cycle := .start
  /-- What the buffer held when the cycle began. -/
  before : List Payload := []
  /-- What the buffer has taken since. -/
  arrived : List Payload := []
  /-- What the buffer held at the last read. -/
  found : List Payload := []
  /-- What the cycle has done. -/
  events : List CycleEvent := []
  /-- What the cycles before it have posted. -/
  earlier : List PostedBatch := []

/-- What can happen next. -/
inductive CycleMove where
  /-- A payload is offered to the buffer. -/
  | offer (a : Payload)
  /-- The cycle takes its next step. If it asks whether to stop, or posts a batch, it is
  answered as given. -/
  | upload (stop : Bool) (reply : Option Nat)
  /-- Time passes, and others work on the store. -/
  | disturb (now : Instant) (store : ScriptedStore)

namespace CycleMove

/-- A payload is offered to the buffer. -/
def isOffer : CycleMove → Bool
  | offer _ => true
  | _ => false

/-- The cycle takes a step. -/
def isUpload : CycleMove → Bool
  | upload .. => true
  | _ => false

end CycleMove

namespace CycleRun

/-- What the cycle has posted. -/
def posts (u : CycleRun) : List PostedBatch := CycleEvent.posts u.events

/-- What the cycle has removed, batch by batch. -/
def removed (u : CycleRun) : List (List Payload) := removals u.events

/-- What a step has done, by its request and the answer to it. -/
def event (u : CycleRun) : (r : UploadRequest) → UploadInterface.Answer r → CycleEvent
  | .showBuffered, _ => .showed
  | .subscribers, a => .listed a
  | .stopping, stop => .asked stop
  | .read _, _ => .read
  | .post s batch, reply => .posted { subscriber := s, found := u.found, batch, reply }
  | .commit _ _, n => .removed (u.pipeline.buffer.readN n)
  | .reportFailure name e, _ => .reported name e

/-- What the buffer held at the last read, after a request. -/
def foundAfter (u : CycleRun) : UploadRequest → List Payload
  | .read _ => u.pipeline.buffer.toList
  | _ => u.found

/-- The next step of the cycle. A cycle that has ended is followed by another one. -/
def upload (u : CycleRun) (stop : Bool) (reply : Option Nat) : CycleRun :=
  match u.stage.step u.batchSize with
  | .done _ =>
    { u with
      stage := .start
      before := u.pipeline.buffer.toList
      arrived := []
      events := []
      earlier := u.earlier ++ u.posts }
  | .call r next =>
    let (a, pipeline) := Traffic.answerUpload stop reply r u.pipeline
    { u with
      pipeline
      stage := next a
      found := u.foundAfter r
      events := u.events ++ [u.event r a] }

/-- Offer a payload to the buffer. -/
def offer (u : CycleRun) (a : Payload) : CycleRun :=
  let (taken, pipeline) := u.pipeline.enqueue a
  { u with pipeline, arrived := u.arrived ++ if taken then [a] else [] }

/-- What comes of a move. -/
def move (u : CycleRun) : CycleMove → CycleRun
  | .offer a => u.offer a
  | .upload stop reply => u.upload stop reply
  | .disturb now store => { u with pipeline := { u.pipeline with now, store } }

/-- What comes of moves one after the other. -/
def run (u : CycleRun) (moves : List CycleMove) : CycleRun := moves.foldl move u

/-- The batch that was answered with 200 and is about to be removed, if there is one. -/
def awaiting (u : CycleRun) : List (List Payload) :=
  match u.stage with
  | .committing _ _ n => [u.pipeline.buffer.readN n]
  | _ => []

/-- The batch that will be posted next, unless more payloads arrive for it. -/
def nextBatch (u : CycleRun) : List Payload :=
  u.stage.batch?.getD (u.pipeline.buffer.readN u.batchSize)

end CycleRun

/-- A batch that was not acknowledged comes first in the one that is posted after it. -/
def PostedBatch.Resent (p p' : PostedBatch) : Prop := p.reply ≠ some 200 → p.batch <+: p'.batch

namespace CycleRun

variable {u : CycleRun} {q : BoundedQueue Payload} {stop : Bool} {reply : Option Nat}

/-- What holds of a run at all times. The last batch that was posted comes first in the
next one, unless it was acknowledged. -/
structure Kept (u : CycleRun) (q : BoundedQueue Payload) : Prop where
  holds : u.pipeline.buffer.Holds q
  balance : u.before ++ u.arrived = u.removed.flatten ++ q.items
  tells : Tells u.batchSize u.found q.items u.stage u.events
  resent : (u.earlier ++ u.posts).IsChain PostedBatch.Resent
  pending : ∀ p ∈ (u.earlier ++ u.posts).getLast?, p.reply ≠ some 200 → p.batch <+: u.nextBatch

theorem readN_eq_take (H : u.pipeline.buffer.Holds q) (n : Nat) :
    u.pipeline.buffer.readN n = q.items.take n := by
  rw [H.readN_eq, BoundedQueue.readN, ← List.take_eq_take_min]

theorem Kept.nextBatch_eq (H : Kept u q) :
    u.nextBatch = u.stage.batch?.getD (q.items.take u.batchSize) := by
  rw [nextBatch, readN_eq_take H.holds]

theorem upload_call {r : UploadRequest} {next : UploadInterface.Answer r → Cycle}
    (hstep : u.stage.step u.batchSize = .call r next) (stop : Bool) (reply : Option Nat) :
    u.upload stop reply =
      { u with
        pipeline := (Traffic.answerUpload stop reply r u.pipeline).2
        stage := next (Traffic.answerUpload stop reply r u.pipeline).1
        found := u.foundAfter r
        events := u.events ++ [u.event r (Traffic.answerUpload stop reply r u.pipeline).1] } := by
  rw [upload, hstep]

theorem posts_event_of_isQuiet {r : UploadRequest} (h : r.isQuiet) (a : UploadInterface.Answer r) :
    CycleEvent.posts [u.event r a] = [] := by
  cases r with
  | post s batch => cases h
  | commit s n => cases h
  | _ => rfl

theorem removals_event_of_isQuiet {r : UploadRequest} (h : r.isQuiet)
    (a : UploadInterface.Answer r) : removals [u.event r a] = [] := by
  cases r with
  | post s batch => cases h
  | commit s n => cases h
  | _ => rfl

theorem buffer_answerUpload {r : UploadRequest} (h : r.isQuiet) (stop : Bool)
    (reply : Option Nat) (p : Pipeline) :
    (Traffic.answerUpload stop reply r p).2.buffer = p.buffer := by
  cases r with
  | commit s n => cases h
  | _ => rfl

/-! ## Moves -/

theorem Kept.offer (H : Kept u q) (a : Payload) : Kept (u.offer a) (q.put a).2 := by
  obtain ⟨htaken, hholds⟩ := H.holds.put a
  have hitems := q.put_items a
  have hpipeline : (u.offer a).pipeline = (u.pipeline.enqueue a).2 := rfl
  have harrived : (u.offer a).arrived = u.arrived ++ if (q.put a).1 then [a] else [] := by
    rw [← htaken]
    rfl
  have hbuffer : (u.offer a).pipeline.buffer = (u.pipeline.buffer.put a).2 := by
    rw [hpipeline, Traffic.enqueue_buffer]
  refine ⟨hbuffer ▸ hholds, ?_, ?_, H.resent, ?_⟩
  · change u.before ++ (u.offer a).arrived = u.removed.flatten ++ (q.put a).2.items
    rw [harrived, ← List.append_assoc, H.balance, hitems, List.append_assoc]
  · rw [hitems]
    exact H.tells.append _
  · intro p hp hreply
    refine (H.pending p hp hreply).trans ?_
    rw [H.nextBatch_eq, nextBatch, readN_eq_take (hbuffer ▸ hholds), hitems]
    change _ <+: u.stage.batch?.getD ((q.items ++ _).take u.batchSize)
    cases u.stage.batch? with
    | some batch => exact List.prefix_rfl
    | none => exact List.IsPrefix.take (List.prefix_append _ _) _

/-- A step that neither posts nor removes, from a stage without a batch. -/
theorem Kept.quiet (H : Kept u q) {stage : Cycle} {events : List CycleEvent} {r : UploadRequest}
    {next : UploadInterface.Answer r → Cycle} (hstage : u.stage = stage)
    (hevents : u.events = events) (hidle : stage.batch? = none)
    (hstep : stage.step u.batchSize = .call r next) (hquiet : r.isQuiet)
    (hnext : (next (Traffic.answerUpload stop reply r u.pipeline).1).batch?.getD
      (u.pipeline.buffer.readN u.batchSize) = u.pipeline.buffer.readN u.batchSize)
    (htells : Tells u.batchSize (u.foundAfter r) q.items
      (next (Traffic.answerUpload stop reply r u.pipeline).1)
      (events ++ [u.event r (Traffic.answerUpload stop reply r u.pipeline).1])) :
    Kept (u.upload stop reply) q := by
  have hu := upload_call (hstage ▸ hstep) stop reply
  have hbuffer := buffer_answerUpload hquiet stop reply u.pipeline
  have hposts : (u.upload stop reply).posts = u.posts := by
    rw [hu, posts, posts_append, posts_event_of_isQuiet hquiet, List.append_nil]
    rfl
  have hremoved : (u.upload stop reply).removed = u.removed := by
    rw [hu, removed, removals_append, removals_event_of_isQuiet hquiet, List.append_nil]
    rfl
  have hearlier : (u.upload stop reply).earlier = u.earlier := by rw [hu]
  refine ⟨?_, ?_, ?_, ?_, ?_⟩
  · rw [hu]
    exact hbuffer ▸ H.holds
  · rw [hremoved, ← H.balance, hu]
  · rw [hu, hevents]
    exact htells
  · rw [hearlier, hposts]
    exact H.resent
  · rw [hearlier, hposts]
    intro p hp hreply
    have hpending := H.pending p hp hreply
    rw [nextBatch, hstage, hidle] at hpending
    rw [nextBatch, hu]
    change _ <+: (next _).batch?.getD
      ((Traffic.answerUpload stop reply r u.pipeline).2.buffer.readN u.batchSize)
    rw [hbuffer, hnext]
    exact hpending

/-- A cycle that has ended is followed by one that has done nothing yet. -/
theorem Kept.anew (H : Kept u q) {outcome : UploadOutcome} (hstage : u.stage = .ended outcome)
    (stop : Bool) (reply : Option Nat) : Kept (u.upload stop reply) q := by
  have hu : u.upload stop reply =
      { u with
        stage := .start
        before := u.pipeline.buffer.toList
        arrived := []
        events := []
        earlier := u.earlier ++ u.posts } := by
    rw [upload, hstage]
    rfl
  have hnone : (u.upload stop reply).posts = [] := by
    rw [hu]
    rfl
  have hearlier : (u.upload stop reply).earlier = u.earlier ++ u.posts := by rw [hu]
  refine ⟨?_, ?_, ?_, ?_, ?_⟩
  · rw [hu]
    exact H.holds
  · rw [hu]
    change u.pipeline.buffer.toList ++ [] = [] ++ q.items
    rw [H.holds.toList_eq, List.append_nil, List.nil_append]
  · rw [hu]
    exact .opening .start
  · rw [hearlier, hnone, List.append_nil]
    exact H.resent
  · rw [hearlier, hnone, List.append_nil]
    intro p hp hreply
    have hpending := H.pending p hp hreply
    rw [nextBatch, hstage] at hpending
    rw [hu]
    exact hpending

/-- Reading finds what the buffer holds, and takes the next batch from its front. -/
theorem Kept.read (H : Kept u q) (hb : 0 < u.batchSize) {t : Rounds u.batchSize}
    (hstage : u.stage = .reading t.subscriber t.exported)
    (hevents : u.events = t.events ++ [.asked false]) (stop : Bool) (reply : Option Nat) :
    Kept (u.upload stop reply) q := by
  have hbatch := readN_eq_take H.holds u.batchSize
  have hfound : u.foundAfter (.read u.batchSize) = q.items := H.holds.toList_eq
  refine H.quiet hstage hevents rfl rfl rfl ?_ ?_
  · change (Cycle.batchRead _ _ (u.pipeline.buffer.readN u.batchSize)).batch?.getD _ = _
    rw [Cycle.batchRead]
    split
    · rfl
    · rfl
  · change Tells _ _ _ (Cycle.batchRead _ _ (u.pipeline.buffer.readN u.batchSize)) (_ ++ [.read])
    rw [hfound, hbatch, List.append_assoc]
    refine .inRound t _ ?_ rfl
    by_cases hempty : q.items = []
    · simpa [hempty, Cycle.batchRead] using InRound.drained (t := t) rfl
    · have htake : q.items.take u.batchSize ≠ [] := by
        simp [List.take_eq_nil_iff, hempty]
        omega
      rw [Cycle.batchRead, if_neg (by simpa using htake)]
      exact .posting ⟨htake, List.prefix_rfl⟩

theorem answered_of_ne {s : Subscriber} {exported : Nat} {batch : List Payload}
    (hreply : reply ≠ some 200) :
    Cycle.answered s exported batch reply = .failing s.name exported (.ofReply reply) := by
  cases reply with
  | none => rfl
  | some code => exact if_neg fun h => hreply (by rw [h])

/-- A post comes after the last one, and begins with its batch if that was not acknowledged. -/
theorem Kept.post (H : Kept u q) {t : Rounds u.batchSize}
    (hfront : StillInFront u.batchSize u.found q.items)
    (hstage : u.stage = .posting t.subscriber t.exported (u.found.take u.batchSize))
    (hevents : u.events = t.events ++ [.asked false, .read]) (stop : Bool) (reply : Option Nat) :
    Kept (u.upload stop reply) q := by
  have hstep : u.stage.step u.batchSize =
      .call (.post t.subscriber (u.found.take u.batchSize))
        (Cycle.answered t.subscriber t.exported (u.found.take u.batchSize)) := by
    rw [hstage]
    rfl
  have hu : u.upload stop reply =
      { u with
        stage := Cycle.answered t.subscriber t.exported (u.found.take u.batchSize) reply
        events := u.events ++ [.posted (t.post u.found reply)] } := upload_call hstep stop reply
  have hposts : (u.upload stop reply).posts = u.posts ++ [t.post u.found reply] := by
    rw [hu, posts, posts_append]
    rfl
  have hearlier : (u.upload stop reply).earlier = u.earlier := by rw [hu]
  have hnext : u.nextBatch = u.found.take u.batchSize := by rw [H.nextBatch_eq, hstage]; rfl
  refine ⟨?_, ?_, ?_, ?_, ?_⟩
  · rw [hu]
    exact H.holds
  · rw [hu, removed, removals_append]
    change u.before ++ u.arrived = (u.removed ++ []).flatten ++ q.items
    rw [List.append_nil, H.balance]
  · rw [hu]
    change Tells _ _ _ _ (u.events ++ _)
    rw [hevents, List.append_assoc]
    refine .inRound t _ ?_ rfl
    by_cases hreply : reply = some 200
    · rw [hreply]
      exact .committing hfront
    · rw [answered_of_ne hreply]
      exact .failing hfront hreply
  · rw [hearlier, hposts, ← List.append_assoc]
    refine List.isChain_append.mpr ⟨H.resent, by simp, ?_⟩
    intro p hp p' hp' hreply
    obtain rfl : t.post u.found reply = p' := by simpa using hp'
    have hpending := H.pending p hp hreply
    rwa [hnext] at hpending
  · rw [hearlier, hposts, ← List.append_assoc]
    intro p hp hreply
    obtain rfl : t.post u.found reply = p := by simpa using hp
    change reply ≠ some 200 at hreply
    rw [nextBatch, hu, answered_of_ne hreply]
    change u.found.take u.batchSize <+: u.pipeline.buffer.readN u.batchSize
    rw [readN_eq_take H.holds]
    exact hfront.found_in_front.take _

/-- As many payloads are removed as were posted, and they are those that were posted. -/
theorem upload_committing (H : u.pipeline.buffer.Holds q) {s : Subscriber} {exported : Nat}
    {batch : List Payload} (hfirst : batch <+: q.items)
    (hstage : u.stage = .committing s exported batch.length) (stop : Bool) (reply : Option Nat) :
    u.upload stop reply =
      { u with
        pipeline := (u.pipeline.commit s batch.length).2
        stage := .between s (exported + batch.length)
        events := u.events ++ [.removed batch] } := by
  have hcount : (u.pipeline.commit s batch.length).1 = batch.length :=
    (H.removeN batch.length).1.trans (Nat.min_eq_left hfirst.length_le)
  have hread : u.pipeline.buffer.readN batch.length = batch :=
    Traffic.readN_of_prefix H hfirst
  have hstep : u.stage.step u.batchSize =
      .call (.commit s batch.length) fun removed => .between s (exported + removed) := by
    rw [hstage]
    rfl
  have hevent : u.event (.commit s batch.length) batch.length = .removed batch := by
    rw [event, hread]
  have hanswer : Traffic.answerUpload stop reply (.commit s batch.length) u.pipeline =
      (batch.length, (u.pipeline.commit s batch.length).2) := Prod.ext hcount rfl
  rw [upload_call hstep, hanswer, hevent]
  rfl

/-- What is removed is the batch that was acknowledged, still in front of the buffer. -/
theorem Kept.commit (H : Kept u q) {t : Rounds u.batchSize}
    (hfront : StillInFront u.batchSize u.found q.items)
    (hstage : u.stage = .committing t.subscriber t.exported (u.found.take u.batchSize).length)
    (hevents : u.events =
      t.events ++ [.asked false, .read, .posted (t.post u.found (some 200))])
    (stop : Bool) (reply : Option Nat) :
    Kept (u.upload stop reply) (q.removeN (u.found.take u.batchSize).length).2 := by
  have hfirst := hfront.batch_in_front
  have hu := upload_committing H.holds hfirst hstage stop reply
  have hposts : (u.upload stop reply).posts = u.posts := by
    rw [hu, posts, posts_append]
    exact List.append_nil _
  have hearlier : (u.upload stop reply).earlier = u.earlier := by rw [hu]
  refine ⟨?_, ?_, ?_, ?_, ?_⟩
  · rw [hu]
    exact (H.holds.removeN _).2
  · have hsplit : u.found.take u.batchSize ++ q.items.drop (u.found.take u.batchSize).length =
        q.items := by
      obtain ⟨rest, hrest⟩ := hfirst
      rw [← hrest, List.drop_left]
    rw [hu, removed, removals_append]
    change u.before ++ u.arrived = (u.removed ++ [u.found.take u.batchSize]).flatten ++
      q.items.drop (min (u.found.take u.batchSize).length q.items.length)
    rw [H.balance, Nat.min_eq_left hfirst.length_le, List.flatten_append,
      List.flatten_singleton, List.append_assoc, hsplit]
  · have hround : u.events ++ [.removed (u.found.take u.batchSize)] =
        (t.next hfront.filled).events ++ [] := by
      rw [hevents, t.events_next, List.append_nil, List.append_assoc]
      rfl
    rw [hu, ← t.exported_next hfront.filled]
    exact .inRound (t.next hfront.filled) [] .between hround
  · rw [hearlier, hposts]
    exact H.resent
  · -- The last post is the one that was acknowledged.
    have hlast : (u.earlier ++ u.posts).getLast? = some (t.post u.found (some 200)) := by
      rw [posts, hevents, posts_append, ← List.append_assoc]
      exact List.getLast?_concat
    rw [hearlier, hposts, hlast]
    intro p hp hreply
    cases hp
    exact absurd rfl hreply

/-- Whatever the cycle does next, all stays as it should be. -/
theorem Kept.upload (H : Kept u q) (hb : 0 < u.batchSize) (stop : Bool) (reply : Option Nat) :
    ∃ q', Kept (u.upload stop reply) q' := by
  have htells := H.tells
  generalize hstage : u.stage = stage at htells
  generalize hevents : u.events = events at htells
  -- What has been done so far says where the cycle stands, and so which step is next.
  cases htells with
  | opening h =>
    cases h with
    | start => exact ⟨q, H.quiet hstage hevents rfl rfl rfl rfl (.opening .resolving)⟩
    | resolving =>
      refine ⟨q, H.quiet hstage hevents rfl rfl rfl ?_ ?_⟩
      · change (Cycle.resolved u.pipeline.store.listSubscribers.1).batch?.getD _ = _
        rcases u.pipeline.store.listSubscribers.1 with e | _ | ⟨s, rest⟩ <;> rfl
      · change Tells _ _ _ (Cycle.resolved u.pipeline.store.listSubscribers.1)
          [.showed, .listed u.pipeline.store.listSubscribers.1]
        rcases u.pipeline.store.listSubscribers.1 with e | _ | ⟨s, rest⟩
        · exact .opening (.unlisted e)
        · exact .opening .unsubscribed
        · exact .inRound ⟨s, rest, [], nofun⟩ [] .between rfl
    | unsubscribed => exact ⟨q, H.anew hstage stop reply⟩
    | unlisted e => exact ⟨q, H.quiet hstage hevents rfl rfl rfl rfl (.opening (.unlistedEnd e))⟩
    | unlistedEnd e => exact ⟨q, H.anew hstage stop reply⟩
  | inRound t tail h hevents' =>
    subst hevents'
    cases h with
    | between =>
      have hevents : u.events = t.events := hevents.trans (List.append_nil _)
      cases stop with
      | true => exact ⟨q, H.quiet hstage hevents rfl rfl rfl rfl (.inRound t _ .stopped rfl)⟩
      | false => exact ⟨q, H.quiet hstage hevents rfl rfl rfl rfl (.inRound t _ .reading rfl)⟩
    | stopped => exact ⟨q, H.anew hstage stop reply⟩
    | reading => exact ⟨q, H.read hb hstage hevents stop reply⟩
    | drained h => exact ⟨q, H.anew hstage stop reply⟩
    | posting h => exact ⟨q, H.post h hstage hevents stop reply⟩
    | committing h => exact ⟨_, H.commit h hstage hevents stop reply⟩
    | failing h hreply =>
      refine ⟨q, H.quiet hstage hevents rfl rfl rfl rfl ?_⟩
      rw [List.append_assoc]
      exact .inRound t _ (.failed h hreply) rfl
    | failed h hreply => exact ⟨q, H.anew hstage stop reply⟩

@[simp] theorem batchSize_move (u : CycleRun) (m : CycleMove) :
    (u.move m).batchSize = u.batchSize := by
  cases m with
  | offer a => rfl
  | disturb now store => rfl
  | upload stop reply =>
    rw [move, upload]
    split <;> rfl

theorem batchSize_run (u : CycleRun) (moves : List CycleMove) :
    (u.run moves).batchSize = u.batchSize := by
  induction moves generalizing u with
  | nil => rfl
  | cons m moves ih => exact (ih (u.move m)).trans (u.batchSize_move m)

theorem Kept.move (H : Kept u q) (hb : 0 < u.batchSize) (m : CycleMove) :
    ∃ q', Kept (u.move m) q' := by
  cases m with
  | offer a => exact ⟨_, H.offer a⟩
  | upload stop reply => exact H.upload hb stop reply
  | disturb now store => exact ⟨q, H.holds, H.balance, H.tells, H.resent, H.pending⟩

/-- By induction on the moves. -/
theorem kept_run (H : Kept u q) (hb : 0 < u.batchSize) (moves : List CycleMove) :
    ∃ q', Kept (u.run moves) q' := by
  induction moves generalizing u q with
  | nil => exact ⟨q, H⟩
  | cons m moves ih =>
    obtain ⟨q', H'⟩ := H.move hb m
    exact ih H' (by rwa [batchSize_move])

theorem kept_new (settings : PipelineSettings) (now : Instant) (batchSize : Nat) :
    Kept { pipeline := .new settings now, batchSize }
      { limit := max settings.capacity 2 - 1 } where
  holds := Ring.holds_new settings.capacity
  balance := rfl
  tells := .opening .start
  resent := .nil
  pending _ hp := nomatch hp

/-! ## What the rounds say -/

/-- What an outcome says about the cycle. -/
def Justifies (u : CycleRun) : UploadOutcome → Prop
  | .noSubscriber => .listed (.ok []) ∈ u.events
  | .drained _ => u.events.getLast? = some .read ∧ u.found = []
  | .stopped _ => .asked true ∈ u.events
  | .failed _ (.store e) => .listed (.error e) ∈ u.events
  | .failed _ e => ∃ p ∈ u.posts.getLast?, p.reply ≠ some 200 ∧ e = .ofReply p.reply

/-- A cycle commits exactly what was acknowledged. -/
structure CommitsAcknowledged (u : CycleRun) : Prop where
  /-- Without a subscriber nothing is posted and nothing removed. -/
  idle : ∀ a, .listed a ∈ u.events → (∀ s rest, a ≠ .ok (s :: rest)) →
    u.posts = [] ∧ u.removed = []
  /-- A batch is the oldest payloads, and goes to the first subscriber. -/
  oldest : ∀ p ∈ u.posts, p.batch = p.found.take u.batchSize ∧ p.batch ≠ [] ∧
    ∃ rest, .listed (.ok (p.subscriber :: rest)) ∈ u.events
  /-- The batches follow one another in the order in which their payloads came. -/
  consecutive : (u.posts.map PostedBatch.batch).flatten <+: u.before ++ u.arrived
  /-- What was acknowledged is removed. -/
  removes : (u.posts.filter fun p => p.reply = some 200).map PostedBatch.batch =
    u.removed ++ u.awaiting
  /-- What was not removed is still there, in its order. -/
  keeps : u.before ++ u.arrived = u.removed.flatten ++ u.pipeline.buffer.toList
  /-- A batch that was not acknowledged is the last one, and stays in front of the buffer. -/
  refused : ∀ l p l', u.posts = l ++ p :: l' → p.reply ≠ some 200 →
    l' = [] ∧ p.batch <+: u.pipeline.buffer.toList ∧
      (u.stage = .failing p.subscriber.name u.removed.flatten.length (.ofReply p.reply) ∨
        u.stage = .ended (.failed u.removed.flatten.length (.ofReply p.reply)))
  /-- Nothing follows once the cycle was told to stop. -/
  stopped : ∀ l l', u.events = l ++ .asked true :: l' →
    l' = [] ∧ u.stage = .ended (.stopped u.removed.flatten.length)
  /-- A cycle ends for one of these reasons only, and reports how much it has removed. -/
  ended : ∀ outcome, u.stage = .ended outcome →
    u.Justifies outcome ∧ ∀ n ∈ outcome.exported?, n = u.removed.flatten.length
  /-- A batch that was not acknowledged comes first in the next one, in whatever cycle. -/
  resent : (u.earlier ++ u.posts).IsChain PostedBatch.Resent

theorem Kept.keeps (H : Kept u q) :
    u.before ++ u.arrived = u.removed.flatten ++ u.pipeline.buffer.toList := by
  rw [H.balance, H.holds.toList_eq]

/-- A cycle without a subscriber has posted nothing and removed nothing. -/
theorem Kept.commits_of_opening (H : Kept u q) (h : Opening u.stage u.events) :
    CommitsAcknowledged u := by
  have hposts : u.posts = [] := h.posts_eq
  have hremoved : u.removed = [] := h.removals_eq
  refine ⟨fun _ _ _ => ⟨hposts, hremoved⟩, ?_, ?_, ?_, H.keeps, ?_, ?_, ?_, H.resent⟩
  · simp [hposts]
  · simp [hposts]
  · rw [hposts, hremoved, awaiting]
    generalize u.events = events at h
    generalize u.stage = stage at h ⊢
    cases h <;> rfl
  · simp [hposts]
  · intro l l' hevents
    exact absurd (by simp [hevents]) h.asked_true_not_mem
  · intro outcome hended
    rw [hremoved]
    generalize hevents : u.events = events at h
    rw [hended] at h
    cases h with
    | unsubscribed => simp [Justifies, hevents, UploadOutcome.exported?]
    | unlistedEnd e => simp [Justifies, hevents, UploadOutcome.exported?]

section InRound

variable {t : Rounds u.batchSize} {tail : List CycleEvent} (hevents : u.events = t.events ++ tail)
include hevents

theorem posts_of_rounds : u.posts = t.acknowledged ++ CycleEvent.posts tail := by
  rw [posts, hevents, posts_append, t.posts_events]

theorem listed_of_rounds : .listed (.ok (t.subscriber :: t.others)) ∈ u.events := by
  simp [hevents, Rounds.events]

variable (h : InRound t u.found q.items u.stage tail)
include h

theorem removed_of_inRound : u.removed = t.batches := by
  rw [removed, hevents, removals_append, t.removals_events, h.removals_eq, List.append_nil]

theorem exported_of_inRound : t.exported = u.removed.flatten.length := by
  rw [removed_of_inRound hevents h]
  rfl

theorem oldest_of_inRound : ∀ p ∈ u.posts, p.batch = p.found.take u.batchSize ∧ p.batch ≠ [] ∧
    ∃ rest, .listed (.ok (p.subscriber :: rest)) ∈ u.events := by
  intro p hp
  rw [posts_of_rounds hevents] at hp
  rcases List.mem_append.mp hp with hp | hp
  · obtain ⟨found, hfound, rfl⟩ := List.mem_map.mp hp
    exact ⟨rfl, t.filled found hfound, t.others, listed_of_rounds hevents⟩
  · obtain ⟨hfront, reply, rfl⟩ := h.of_mem_posts hp
    exact ⟨rfl, hfront.filled, t.others, listed_of_rounds hevents⟩

/-- What the subscriber took is what the rounds have removed, and the batch that is next to
be removed. -/
theorem removes_of_inRound (H : u.pipeline.buffer.Holds q) :
    (u.posts.filter fun p => p.reply = some 200).map PostedBatch.batch =
      u.removed ++ u.awaiting := by
  rw [posts_of_rounds hevents, removed_of_inRound hevents h, List.filter_append,
    t.filter_acknowledged, List.map_append, t.map_batch_acknowledged,
    List.append_cancel_left_eq, awaiting]
  clear hevents
  generalize u.stage = stage at h ⊢
  cases h with
  | committing h =>
    have hread := Traffic.readN_of_prefix H h.batch_in_front
    change [u.found.take u.batchSize] = [u.pipeline.buffer.readN _]
    rw [hread]
  | failing h hreply => simp [CycleEvent.posts, posted?, Rounds.post, hreply]
  | failed h hreply => simp [CycleEvent.posts, posted?, Rounds.post, hreply]
  | _ => rfl

theorem refused_of_inRound {l l' : List PostedBatch} {p : PostedBatch}
    (hsplit : u.posts = l ++ p :: l') (hreply : p.reply ≠ some 200) :
    l' = [] ∧ p.batch <+: q.items ∧
      (u.stage = .failing p.subscriber.name t.exported (.ofReply p.reply) ∨
        u.stage = .ended (.failed t.exported (.ofReply p.reply))) := by
  have hposts := posts_of_rounds hevents
  have hnot : p ∉ t.acknowledged := fun hp => hreply (t.reply_of_mem_acknowledged hp)
  have hp : p ∈ CycleEvent.posts tail := by
    have hmem : p ∈ u.posts := by simp [hsplit]
    rw [hposts] at hmem
    exact (List.mem_append.mp hmem).resolve_left hnot
  obtain ⟨hlast, hfirst, hstage⟩ := h.of_refused hp hreply
  rw [hposts, hlast] at hsplit
  obtain ⟨-, -, hnil⟩ := (List.append_cons_inj_of_notMem hnot List.not_mem_nil).mp hsplit
  exact ⟨hnil.symm, hfirst, hstage⟩

theorem stopped_of_inRound {l l' : List CycleEvent} (hsplit : u.events = l ++ .asked true :: l') :
    l' = [] ∧ u.stage = .ended (.stopped t.exported) := by
  have hasked : .asked true ∈ tail := by
    have hmem : .asked true ∈ u.events := by simp [hsplit]
    rw [hevents] at hmem
    exact (List.mem_append.mp hmem).resolve_left t.asked_true_not_mem_events
  obtain ⟨htail, hstage⟩ := h.of_asked_true hasked
  rw [hevents, htail] at hsplit
  obtain ⟨-, -, hnil⟩ := (List.append_cons_inj_of_notMem t.asked_true_not_mem_events
    List.not_mem_nil).mp hsplit
  exact ⟨hnil.symm, hstage⟩

theorem ended_of_inRound {outcome : UploadOutcome} (hended : u.stage = .ended outcome) :
    u.Justifies outcome ∧ ∀ n ∈ outcome.exported?, n = t.exported := by
  rw [hended] at h
  cases h with
  | stopped => simp [Justifies, hevents, UploadOutcome.exported?]
  | drained h => simp [Justifies, h, hevents, UploadOutcome.exported?]
  | @failed h reply hreply =>
    have hlast : u.posts.getLast? = some (t.post u.found reply) := by
      rw [posts_of_rounds hevents]
      exact List.getLast?_concat
    refine ⟨?_, by simp [UploadOutcome.exported?]⟩
    cases reply with
    | none => exact ⟨_, hlast, hreply, rfl⟩
    | some code => exact ⟨_, hlast, hreply, rfl⟩

/-- What a cycle with a subscriber has done can be read off its rounds. -/
theorem Kept.commits_of_inRound (H : Kept u q) : CommitsAcknowledged u where
  idle a ha hnone := by
    rw [hevents] at ha
    have ha := (List.mem_append.mp ha).resolve_right (h.listed_not_mem a)
    exact absurd (t.eq_of_listed_mem_events ha) (hnone _ _)
  oldest := oldest_of_inRound hevents h
  consecutive := by
    rw [posts_of_rounds hevents, H.balance, removed_of_inRound hevents h, List.map_append,
      List.flatten_append, t.map_batch_acknowledged, List.prefix_append_right_inj]
    exact h.batches_in_front
  removes := removes_of_inRound hevents h H.holds
  keeps := H.keeps
  refused l p l' hsplit hreply := by
    rw [H.holds.toList_eq, ← exported_of_inRound hevents h]
    exact refused_of_inRound hevents h hsplit hreply
  stopped l l' hsplit := by
    rw [← exported_of_inRound hevents h]
    exact stopped_of_inRound hevents h hsplit
  ended outcome hended := by
    rw [← exported_of_inRound hevents h]
    exact ended_of_inRound hevents h hended
  resent := H.resent

end InRound

theorem Kept.posts_of_start (H : Kept u q) (hstart : u.stage = .start) : u.posts = [] := by
  have htells := H.tells
  rw [hstart] at htells
  cases htells with
  | opening h => exact h.posts_eq
  | inRound t tail h hevents => cases h

theorem Kept.commits (H : Kept u q) : CommitsAcknowledged u := by
  cases H.tells with
  | opening h => exact H.commits_of_opening h
  | inRound t tail h hevents => exact H.commits_of_inRound hevents h

/-! ## The end of a cycle -/

theorem length_posts_event (r : UploadRequest) (a : UploadInterface.Answer r) :
    (CycleEvent.posts [u.event r a]).length = Cycle.postsOf r := by
  cases r <;> rfl

/-- Once no more payloads arrive, a cycle comes to its end, with no more posts than are
still to come. By induction on the moves, of which enough are steps of the cycle. -/
theorem ends_without_offers (H : u.pipeline.buffer.Holds q) (hb : 0 < u.batchSize)
    (more : List CycleMove) (hquiet : ∀ m ∈ more, m.isOffer = false)
    (henough : u.stage.stepsLeft u.batchSize q.items.length ≤ more.countP CycleMove.isUpload) :
    ∃ k outcome, (u.run (more.take k)).stage = .ended outcome ∧
      (u.run (more.take k)).posts.length ≤
        u.posts.length + u.stage.postsLeft u.batchSize q.items.length ∧
      (u.run (more.take k)).earlier = u.earlier := by
  induction more generalizing u q with
  | nil =>
    refine ⟨0, ?_⟩
    cases hstage : u.stage with
    | ended outcome => exact ⟨outcome, hstage, Nat.le_add_right _ _, rfl⟩
    | _ => simp [hstage, Cycle.stepsLeft, Cycle.stepsAside, Cycle.postsLeft] at henough
  | cons m more ih =>
    have hrest : ∀ m ∈ more, m.isOffer = false := fun m hm => hquiet m (List.mem_cons_of_mem _ hm)
    cases m with
    | offer a => exact absurd (hquiet _ List.mem_cons_self) (by simp [CycleMove.isOffer])
    | disturb now store =>
      obtain ⟨k, outcome, hended, hposts, hearlier⟩ :=
        ih (u := u.move (.disturb now store)) H hb hrest henough
      exact ⟨k + 1, outcome, hended, hposts, hearlier⟩
    | upload stop reply =>
      cases hstep : u.stage.step u.batchSize with
      | done outcome =>
        exact ⟨0, outcome, Cycle.eq_ended_of_step_done hstep, Nat.le_add_right _ _, rfl⟩
      | call r next =>
        obtain ⟨q', H', hfits⟩ := fits_answerUpload H stop reply r
        obtain ⟨hposts, hsteps⟩ := Cycle.step_brings_nearer hb hstep hfits
        have hu := upload_call hstep stop reply
        have hstage : (u.upload stop reply).stage =
            next (Traffic.answerUpload stop reply r u.pipeline).1 := by rw [hu]
        have hsize : (u.upload stop reply).batchSize = u.batchSize := by rw [hu]
        have hlength : (u.upload stop reply).posts.length = u.posts.length + Cycle.postsOf r := by
          rw [hu, posts, posts_append, List.length_append, length_posts_event]
          rfl
        have hcount : (CycleMove.upload stop reply :: more).countP CycleMove.isUpload =
            more.countP CycleMove.isUpload + 1 := List.countP_cons_of_pos rfl
        obtain ⟨k, outcome, hended, hbound, hearlier⟩ :=
          ih (u := u.upload stop reply) (by rw [hu]; exact H') (by rw [hsize]; exact hb) hrest
            (by rw [hsize, hstage]; omega)
        rw [hsize, hstage, hlength] at hbound
        refine ⟨k + 1, outcome, hended, ?_, ?_⟩
        · change ((u.upload stop reply).run (more.take k)).posts.length ≤ _
          omega
        · rw [← show (u.upload stop reply).earlier = u.earlier by rw [hu]]
          exact hearlier

/-- At any time, whatever was offered, answered and stored meanwhile, the cycle has removed
exactly what was acknowledged. A cycle that begins ends once no more payloads arrive, and
it then has made no more posts than what is buffered fills batches. -/
theorem run_commits_acknowledged (settings : PipelineSettings) (now : Instant) (batchSize : Nat)
    (hb : 0 < batchSize) (moves : List CycleMove) :
    let u := CycleRun.run { pipeline := .new settings now, batchSize } moves
    CommitsAcknowledged u ∧
      (u.stage = .start → ∀ more : List CycleMove, (∀ m ∈ more, m.isOffer = false) →
        Cycle.stepsFor u.pipeline.buffer.len ≤ more.countP CycleMove.isUpload →
        ∃ k outcome, (u.run (more.take k)).stage = .ended outcome ∧
          (u.run (more.take k)).posts.length ≤
            Cycle.batchesIn batchSize u.pipeline.buffer.len ∧
          (u.run (more.take k)).earlier = u.earlier) := by
  intro u
  obtain ⟨q, H⟩ := kept_run (kept_new settings now batchSize) hb moves
  have hsize : u.batchSize = batchSize := batchSize_run _ moves
  refine ⟨H.commits, ?_⟩
  intro hstart more hquiet henough
  have hlen : u.pipeline.buffer.len = q.items.length := H.holds.len_eq
  have hsteps := Cycle.stepsLeft_start_lt hb q.items.length
  rw [hlen] at henough
  obtain ⟨k, outcome, hended, hbound, hearlier⟩ :=
    ends_without_offers H.holds (by rw [hsize]; exact hb) more hquiet
      (by rw [hsize, hstart]; omega)
  rw [H.posts_of_start hstart, hsize, hstart, List.length_nil, Nat.zero_add] at hbound
  exact ⟨k, outcome, hended, hlen ▸ hbound, hearlier⟩

/-- The creation of a pod. -/
def podCreated (name : String) : Payload where
  key := "shop/" ++ name
  action := .create
  namespaceName := "shop"
  kind := .pod
  cloudType := ""
  data := "\x7b\x7d"

/-- A subscriber is registered, and three payloads are offered. -/
def threeOffers : List CycleMove :=
  [.disturb ⟨0, 0⟩
      { memory := { subscribers := [{ name := "billing", url := "http://billing/" }] } },
    .offer (podCreated "web-0"), .offer (podCreated "web-1"), .offer (podCreated "web-2")]

/-- The first post is answered with 200, and all others with 503. -/
def secondRefused : List CycleMove :=
  List.replicate 8 (.upload false (some 200)) ++ List.replicate 9 (.upload false (some 503))

/-- In batches of two, the third payload is posted on its own. -/
def inTwos (moves : List CycleMove) : CycleRun :=
  CycleRun.run { pipeline := .new { capacity := 4 } ⟨0, 0⟩, batchSize := 2 } moves

theorem third_payload_refused :
    (0 < 2 ∧ (inTwos threeOffers).stage = .start ∧ (∀ m ∈ secondRefused, m.isOffer = false) ∧
      Cycle.stepsFor (inTwos threeOffers).pipeline.buffer.len ≤
        secondRefused.countP CycleMove.isUpload) ∧
      (∃ k outcome, ((inTwos threeOffers).run (secondRefused.take k)).stage = .ended outcome ∧
        ((inTwos threeOffers).run (secondRefused.take k)).posts.length ≤
          Cycle.batchesIn 2 (inTwos threeOffers).pipeline.buffer.len ∧
        ((inTwos threeOffers).run (secondRefused.take k)).earlier =
          (inTwos threeOffers).earlier) ∧
      CommitsAcknowledged (inTwos (threeOffers ++ secondRefused.take 10)) ∧
      (inTwos (threeOffers ++ secondRefused.take 10)).stage = .ended (.failed 2 (.status 503)) ∧
      (inTwos (threeOffers ++ secondRefused.take 10)).pipeline.buffer.toList =
        [podCreated "web-2"] := by
  have hstart : (inTwos threeOffers).stage = .start := by rfl
  have hquiet : ∀ m ∈ secondRefused, m.isOffer = false := by decide
  have henough : Cycle.stepsFor (inTwos threeOffers).pipeline.buffer.len ≤
      secondRefused.countP CycleMove.isUpload := by decide
  refine ⟨⟨by decide, hstart, hquiet, henough⟩, ?_, ?_, by rfl, by rfl⟩
  · exact (run_commits_acknowledged _ _ 2 (by decide) threeOffers).2 hstart secondRefused hquiet
      henough
  · exact (run_commits_acknowledged _ _ 2 (by decide) (threeOffers ++ secondRefused.take 10)).1

end CycleRun

end Chargeback
