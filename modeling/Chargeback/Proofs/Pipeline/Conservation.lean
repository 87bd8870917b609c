import Chargeback.Pipeline.Basic
import Chargeback.Proofs.Buffer.Queue
import Chargeback.Proofs.Reconciler.Offers
import Mathlib.Data.List.Basic

/-!
# Payloads are conserved

Any number of events are handled at the same time, each under settings of its own,
while one uploader runs cycle after cycle. A move lets one of them take its next step,
or changes the clock and the store in whatever way; the moves come in any order, and
posts are answered by any status or by none.

No payload gets lost on the way: what was taken when it was offered is either in a batch
that a subscriber answered with 200, or still in the buffer. Payloads keep their order,
and what was not taken is counted.

## Main definitions

* `Traffic`: a pipeline, the events that it handles, its uploader, and what was offered,
  answered and removed so far.
* `TrafficMove`, `Traffic.run`: what can happen, and what comes of it.
* `Traffic.Balanced`, `Traffic.Recorded`: the invariants of all runs.
-/

namespace Chargeback

/-- An event whose handling has begun. -/
structure Handling where
  settings : Reconciler
  event : ResourceEvent
  /-- What is left to do. -/
  rest : ReconcilerProgram (Except ReconcileError Handler)
  /-- What has been asked for so far. -/
  asked : List ReconcilerRequest := []

/-- How the handling of an event has ended, if it has. -/
def Handling.result? (h : Handling) : Option (Except ReconcileError Handler) :=
  match h.rest with
  | .done result => some result
  | .call .. => none

theorem Handling.rest_of_result? {h : Handling} {result : Except ReconcileError Handler}
    (hresult : h.result? = some result) : h.rest = .done result := by
  rw [Handling.result?] at hresult
  split at hresult
  next result' hrest =>
    cases hresult
    exact hrest
  next => cases hresult

/-- The handling after the answer to its request. -/
def Handling.answered (h : Handling) (r : ReconcilerRequest)
    (next : ReconcilerInterface.Answer r → ReconcilerProgram (Except ReconcileError Handler))
    (a : ReconcilerInterface.Answer r) : Handling :=
  { h with rest := next a, asked := h.asked ++ [r] }

/-- A payload that was offered to the buffer. -/
structure Offer where
  /-- The place of the handling that made the offer. -/
  handling : Nat
  payload : Payload
  /-- The buffer took the payload. -/
  taken : Bool

/-- A pipeline with all that goes on in it. -/
structure Traffic where
  pipeline : Pipeline
  batchSize : Nat
  /-- All events so far, the handled ones too. -/
  handlings : List Handling := []
  /-- Where the uploader stands. -/
  cycle : Cycle := .start
  /-- All offers so far, in their order. -/
  offers : List Offer := []
  /-- The batches that were answered with 200, in their order. -/
  answered : List (List Payload) := []
  /-- What was removed from the buffer, batch by batch. -/
  committed : List (List Payload) := []

/-- What can happen next. -/
inductive TrafficMove where
  | begin (c : Reconciler) (e : ResourceEvent)
  /-- The handling of an event takes its next step. -/
  | advance (handling : Nat)
  /-- The uploader takes its next step. If it asks whether to stop, or posts a batch, it
  is answered as given. -/
  | upload (stop : Bool) (reply : Option Nat)
  /-- Time passes, and others work on the store. -/
  | disturb (now : Instant) (store : ScriptedStore)

namespace Traffic

/-- The offer that a request is, if it is one. -/
def offer? (p : Pipeline) (i : Nat) : ReconcilerRequest → Option Offer
  | .offer payload => some { handling := i, payload, taken := (p.enqueue payload).1 }
  | _ => none

/-- The answer to a request of the uploader. -/
def answerUpload (stop : Bool) (reply : Option Nat) :
    (r : UploadRequest) → Pipeline → UploadInterface.Answer r × Pipeline
  | .showBuffered, p => ((), p.showBuffered)
  | .subscribers, p =>
    let (a, store) := p.store.listSubscribers
    (a, { p with store })
  | .stopping, p => (stop, p)
  | .read n, p => (p.buffer.readN n, p)
  | .post .., p => (reply, p)
  | .commit s n, p => p.commit s n
  | .reportFailure name e, p => ((), p.uploadFailed name e)

/-- The batch that an answer reports as taken, if it does. -/
def answered? : (r : UploadRequest) → UploadInterface.Answer r → Option (List Payload)
  | .post _ batch, some code => if code = 200 then some batch else none
  | _, _ => none

/-- The batch that a request removes from the buffer, if it does. -/
def committed? (buffer : Ring Payload) : UploadRequest → Option (List Payload)
  | .commit _ n => some (buffer.readN n)
  | _ => none

/-- The next step of a handling at its place; none if it has finished. -/
def advance (w : Traffic) (i : Nat) (h : Handling) : Traffic :=
  match h.rest with
  | .done _ => w
  | .call r next =>
    let (a, pipeline) := Pipeline.answer r w.pipeline
    { w with
      pipeline
      handlings := w.handlings.set i (h.answered r next a)
      offers := w.offers ++ (offer? w.pipeline i r).toList }

/-- The next step of the uploader. A cycle that has ended is followed by another one. -/
def upload (w : Traffic) (stop : Bool) (reply : Option Nat) : Traffic :=
  match w.cycle.step w.batchSize with
  | .done _ => { w with cycle := .start }
  | .call r next =>
    let (a, pipeline) := answerUpload stop reply r w.pipeline
    { w with
      pipeline
      cycle := next a
      answered := w.answered ++ (answered? r a).toList
      committed := w.committed ++ (committed? w.pipeline.buffer r).toList }

/-- What comes of a move. -/
def move (w : Traffic) : TrafficMove → Traffic
  | .begin c e =>
    { w with handlings := w.handlings ++ [{ settings := c, event := e, rest := c.handle e }] }
  | .advance i =>
    match w.handlings[i]? with
    | some h => w.advance i h
    | none => w
  | .upload stop reply => w.upload stop reply
  | .disturb now store => { w with pipeline := { w.pipeline with now, store } }

/-- What comes of moves one after the other. -/
def run (w : Traffic) (moves : List TrafficMove) : Traffic := moves.foldl move w

/-! ## Balance -/

/-- The payloads that were taken, in the order of their offers. -/
def accepted (w : Traffic) : List Payload := (w.offers.filter Offer.taken).map Offer.payload

/-- The payloads that were not taken. -/
def rejected (w : Traffic) : List Payload :=
  (w.offers.filter fun o => !o.taken).map Offer.payload

/-- The payloads that the handling at a place has offered. -/
def offeredBy (w : Traffic) (i : Nat) : List Payload :=
  (w.offers.filter fun o => o.handling = i).map Offer.payload

/-- The batch that was answered with 200 and is about to be removed, if there is one. -/
def awaiting (w : Traffic) : List (List Payload) :=
  match w.cycle with
  | .committing _ _ n => [w.pipeline.buffer.readN n]
  | _ => []

/-- What the uploader has read is still in front of the buffer. -/
def InFront (items : List Payload) : Cycle → Prop
  | .posting _ _ batch => batch <+: items
  | .committing _ _ n => n ≤ items.length
  | _ => True

/-- What was taken is accounted for by a queue that the buffer holds. -/
structure Balanced (w : Traffic) (q : BoundedQueue Payload) : Prop where
  holds : w.pipeline.buffer.Holds q
  accepted_eq : w.accepted = w.committed.flatten ++ q.items
  dropped_eq : q.dropped = w.rejected.length
  eventsDropped_eq : w.pipeline.metrics.eventsDropped = w.rejected.length
  payloadsExported_eq : w.pipeline.metrics.payloadsExported = w.committed.flatten.length
  inFront : InFront q.items w.cycle
  answered_eq : w.answered = w.committed ++ w.awaiting

/-- What was offered is what the handlings have asked for, each in its place. -/
structure Recorded (w : Traffic) : Prop where
  obeys : ∀ h ∈ w.handlings,
    h.rest.Obeys (h.settings.offering h.event) (fun m _ => h.settings.HasOffered h.event m) h.asked
  begun : ∀ h ∈ w.handlings, offersIn h.asked <+: (h.settings.payload? h.event).toList
  silent : ∀ h ∈ w.handlings, h.event.object = none →
    h.asked = [] ∧ h.rest = .done (.error (.missingObject h.event.key))
  offered : ∀ i h, w.handlings[i]? = some h → w.offeredBy i = offersIn h.asked
  placed : ∀ o ∈ w.offers, o.handling < w.handlings.length

variable {w w' : Traffic} {q : BoundedQueue Payload} {p p' : Pipeline} {i : Nat} {h : Handling}

/-! ## The buffer and its counters -/

/-- The buffer and the two counters of it are the same. -/
structure SameAccounts (p p' : Pipeline) : Prop where
  buffer_eq : p'.buffer = p.buffer
  eventsDropped_eq : p'.metrics.eventsDropped = p.metrics.eventsDropped
  payloadsExported_eq : p'.metrics.payloadsExported = p.metrics.payloadsExported

theorem SameAccounts.refl (p : Pipeline) : SameAccounts p p := ⟨rfl, rfl, rfl⟩

theorem sameAccounts_answerGroup (r : AggregatorRequest) (p : Pipeline) :
    SameAccounts p (Pipeline.answerGroup r p).2 := by
  cases r with
  | pause n => exact ⟨rfl, rfl, rfl⟩
  | clock => exact .refl p
  | store r =>
    cases r with
    | get name => exact ⟨rfl, rfl, rfl⟩
    | create g => exact ⟨rfl, rfl, rfl⟩
    | list => exact ⟨rfl, rfl, rfl⟩
    | replace g =>
      refine ⟨rfl, ?_, ?_⟩
      all_goals
        simp only [Pipeline.answerGroup, Pipeline.answerStore, Pipeline.countAnswer,
          Pipeline.countReplacement]
        split <;> rfl

/-- Only an offer concerns the buffer. -/
theorem sameAccounts_answer {r : ReconcilerRequest} (hr : r.offered? = none) (p : Pipeline) :
    SameAccounts p (Pipeline.answer r p).2 := by
  cases r with
  | offer payload => cases hr
  | track action object => exact ⟨rfl, rfl, rfl⟩
  | countEvent kind action => exact ⟨rfl, rfl, rfl⟩
  | claimedBytes keys => exact .refl p
  | group r => exact sameAccounts_answerGroup r p

@[simp] theorem enqueue_fst (p : Pipeline) (a : Payload) : (p.enqueue a).1 = (p.buffer.put a).1 :=
  rfl

@[simp] theorem enqueue_buffer (p : Pipeline) (a : Payload) :
    (p.enqueue a).2.buffer = (p.buffer.put a).2 := by
  simp only [Pipeline.enqueue, Pipeline.showBuffered]
  split <;> rfl

theorem enqueue_eventsDropped (p : Pipeline) (a : Payload) :
    (p.enqueue a).2.metrics.eventsDropped =
      p.metrics.eventsDropped + if (p.buffer.put a).1 then 0 else 1 := by
  simp only [Pipeline.enqueue, Pipeline.showBuffered]
  split <;> rfl

@[simp] theorem enqueue_payloadsExported (p : Pipeline) (a : Payload) :
    (p.enqueue a).2.metrics.payloadsExported = p.metrics.payloadsExported := by
  simp only [Pipeline.enqueue, Pipeline.showBuffered]
  split <;> rfl

/-! ## Steps of handlings -/

/-- A step that leaves the buffer and its counters as they are only has to show that the
uploader still stands in step with the buffer. -/
theorem Balanced.cycle (H : Balanced w q) (hs : SameAccounts w.pipeline w'.pipeline)
    (hoffers : w'.offers = w.offers) (hcommitted : w'.committed = w.committed)
    (hfront : InFront q.items w'.cycle) (hanswered : w'.answered = w'.committed ++ w'.awaiting) :
    Balanced w' q where
  holds := by rw [hs.buffer_eq]; exact H.holds
  accepted_eq := by rw [accepted, hoffers, hcommitted]; exact H.accepted_eq
  dropped_eq := by rw [rejected, hoffers]; exact H.dropped_eq
  eventsDropped_eq := by rw [rejected, hoffers, hs.eventsDropped_eq]; exact H.eventsDropped_eq
  payloadsExported_eq := by rw [hcommitted, hs.payloadsExported_eq]; exact H.payloadsExported_eq
  inFront := hfront
  answered_eq := hanswered

/-- The balance stays as long as the buffer and its counters do. -/
theorem Balanced.frame (H : Balanced w q) (hs : SameAccounts w.pipeline w'.pipeline)
    (hcycle : w'.cycle = w.cycle) (hoffers : w'.offers = w.offers)
    (hanswered : w'.answered = w.answered) (hcommitted : w'.committed = w.committed) :
    Balanced w' q := by
  refine H.cycle hs hoffers hcommitted (hcycle ▸ H.inFront) ?_
  rw [hanswered, hcommitted, awaiting, hcycle, hs.buffer_eq]
  exact H.answered_eq

/-- A batch in front of the buffer stays there when a payload is offered. -/
theorem InFront.put {c : Cycle} (hc : InFront q.items c) (a : Payload) :
    InFront (q.put a).2.items c := by
  have happend : q.items <+: (q.put a).2.items := by
    rw [BoundedQueue.put_items]
    exact List.prefix_append _ _
  cases c with
  | posting s exported batch => exact List.IsPrefix.trans hc happend
  | committing s exported n => exact Nat.le_trans hc happend.length_le
  | _ => trivial

/-- The batch that is about to be removed does not change when a payload is offered. -/
theorem Balanced.awaiting_put (H : Balanced w q) (a : Payload)
    (hbuffer : w'.pipeline.buffer = (w.pipeline.buffer.put a).2) (hcycle : w'.cycle = w.cycle) :
    w'.awaiting = w.awaiting := by
  have hfront := H.inFront
  rw [awaiting, awaiting, hcycle, hbuffer]
  cases hc : w.cycle with
  | committing s exported n =>
    rw [hc] at hfront
    simp only [(H.holds.put a).2.readN_eq, H.holds.readN_eq, BoundedQueue.readN_put hfront a]
  | _ => rfl

theorem accepted_of_append {o : Offer} (h : w'.offers = w.offers ++ [o]) :
    w'.accepted = w.accepted ++ if o.taken then [o.payload] else [] := by
  rw [accepted, accepted, h, List.filter_append, List.map_append]
  cases ho : o.taken <;> simp [ho]

theorem length_rejected_of_append {o : Offer} (h : w'.offers = w.offers ++ [o]) :
    w'.rejected.length = w.rejected.length + if o.taken then 0 else 1 := by
  rw [rejected, rejected, h, List.filter_append, List.map_append, List.length_append]
  cases ho : o.taken <;> simp [ho]

/-- An offer is taken into the buffer, or counted. -/
theorem Balanced.offer (H : Balanced w q) (a : Payload)
    (hpipeline : w'.pipeline = (w.pipeline.enqueue a).2) (hcycle : w'.cycle = w.cycle)
    (hoffers : w'.offers =
      w.offers ++ [{ handling := i, payload := a, taken := (w.pipeline.enqueue a).1 }])
    (hanswered : w'.answered = w.answered) (hcommitted : w'.committed = w.committed) :
    Balanced w' (q.put a).2 := by
  obtain ⟨htaken, hholds⟩ := H.holds.put a
  have hbuffer : w'.pipeline.buffer = (w.pipeline.buffer.put a).2 := by
    rw [hpipeline, enqueue_buffer]
  have haccepted := accepted_of_append hoffers
  have hrejected := length_rejected_of_append hoffers
  have hdropped := enqueue_eventsDropped w.pipeline a
  rw [← hpipeline] at hdropped
  simp only [enqueue_fst, htaken] at haccepted hrejected hdropped
  refine ⟨hbuffer ▸ hholds, ?_, ?_, ?_, ?_, ?_, ?_⟩
  · rw [haccepted, hcommitted, H.accepted_eq, List.append_assoc, BoundedQueue.put_items]
  · rw [hrejected, ← H.dropped_eq, BoundedQueue.put_dropped]
  · rw [hrejected, ← H.eventsDropped_eq, hdropped]
  · rw [hpipeline, enqueue_payloadsExported, hcommitted]
    exact H.payloadsExported_eq
  · rw [hcycle]
    exact H.inFront.put a
  · rw [hanswered, hcommitted, H.awaiting_put a hbuffer hcycle]
    exact H.answered_eq

/-! ## Steps of the uploader -/

theorem commit_buffer (p : Pipeline) (s : Subscriber) (n : Nat) :
    (p.commit s n).2.buffer = (p.buffer.removeN n).2 := rfl

theorem commit_eventsDropped (p : Pipeline) (s : Subscriber) (n : Nat) :
    (p.commit s n).2.metrics.eventsDropped = p.metrics.eventsDropped := rfl

theorem commit_payloadsExported (p : Pipeline) (s : Subscriber) (n : Nat) :
    (p.commit s n).2.metrics.payloadsExported =
      p.metrics.payloadsExported + (p.buffer.removeN n).1 := rfl

/-- What a commit removes is what it reads of the buffer, and is counted as exported. -/
theorem Balanced.commit (H : Balanced w q) {s s' : Subscriber} {exported exported' n : Nat}
    (hcycle : w.cycle = .committing s exported n) (hcycle' : w'.cycle = .between s' exported')
    (hpipeline : w'.pipeline = (w.pipeline.commit s n).2) (hoffers : w'.offers = w.offers)
    (hanswered : w'.answered = w.answered)
    (hcommitted : w'.committed = w.committed ++ [w.pipeline.buffer.readN n]) :
    Balanced w' (q.removeN n).2 := by
  obtain ⟨hremoved, hholds⟩ := H.holds.removeN n
  have hread : w.pipeline.buffer.readN n = q.items.take (min n q.items.length) :=
    H.holds.readN_eq n
  have hcount : (w.pipeline.buffer.readN n).length = min n q.items.length := by
    rw [hread, List.length_take, Nat.min_eq_left (Nat.min_le_right _ _)]
  have hflatten : w'.committed.flatten = w.committed.flatten ++ w.pipeline.buffer.readN n := by
    rw [hcommitted, List.flatten_append, List.flatten_singleton]
  refine ⟨?_, ?_, ?_, ?_, ?_, ?_, ?_⟩
  · rw [hpipeline, commit_buffer]
    exact hholds
  · have hsplit : q.items.take (min n q.items.length) ++ (q.removeN n).2.items = q.items :=
      List.take_append_drop _ _
    rw [accepted, hoffers, ← accepted, H.accepted_eq, hflatten, hread, List.append_assoc, hsplit]
  · rw [rejected, hoffers]
    exact H.dropped_eq
  · rw [rejected, hoffers, hpipeline, commit_eventsDropped]
    exact H.eventsDropped_eq
  · rw [hpipeline, commit_payloadsExported, H.payloadsExported_eq, hremoved, hflatten,
      List.length_append, hcount]
    rfl
  · rw [hcycle']
    trivial
  · have hanswer := H.answered_eq
    rw [awaiting, hcycle] at hanswer
    rw [hanswered, hanswer, hcommitted, awaiting, hcycle', List.append_nil]

/-- The uploader holds no batch. -/
def AtRest : Cycle → Prop
  | .posting .. => False
  | .committing .. => False
  | _ => True

theorem AtRest.inFront {c : Cycle} (hc : AtRest c) (items : List Payload) : InFront items c := by
  cases c with
  | posting s exported batch => exact hc.elim
  | committing s exported n => exact hc.elim
  | _ => trivial

theorem awaiting_of_atRest (hw : AtRest w.cycle) : w.awaiting = [] := by
  rw [awaiting]
  cases hc : w.cycle with
  | committing s exported n => rw [hc] at hw; exact hw.elim
  | _ => rfl

/-- A step after which the uploader holds no batch, and with which none is answered. -/
theorem Balanced.atRest (H : Balanced w q) (hawaiting : w.awaiting = [])
    (hs : SameAccounts w.pipeline w'.pipeline) (hoffers : w'.offers = w.offers)
    (hanswered : w'.answered = w.answered ++ []) (hcommitted : w'.committed = w.committed ++ [])
    (hrest : AtRest w'.cycle) : Balanced w' q := by
  rw [List.append_nil] at hanswered hcommitted
  refine H.cycle hs hoffers hcommitted (hrest.inFront q.items) ?_
  rw [hanswered, hcommitted, awaiting_of_atRest hrest, H.answered_eq, hawaiting]

theorem atRest_resolved (a : Except StoreError (List Subscriber)) : AtRest (Cycle.resolved a) := by
  rcases a with e | _ | ⟨s, rest⟩
  · trivial
  · trivial
  · trivial

/-- A batch that has been read is in front of the buffer. -/
theorem inFront_batchRead (H : w.pipeline.buffer.Holds q) (s : Subscriber) (exported n : Nat) :
    InFront q.items (Cycle.batchRead s exported (w.pipeline.buffer.readN n)) := by
  rw [Cycle.batchRead]
  split
  · trivial
  · change w.pipeline.buffer.readN n <+: q.items
    rw [H.readN_eq]
    exact List.take_prefix _ _

theorem awaiting_of_batchRead {s : Subscriber} {exported : Nat} {batch : List Payload}
    (hw : w.cycle = Cycle.batchRead s exported batch) : w.awaiting = [] := by
  rw [awaiting, hw, Cycle.batchRead]
  cases batch.isEmpty with
  | true => rfl
  | false => rfl

/-- A batch in front of the buffer is what the buffer reads for its length. -/
theorem readN_of_prefix {r : Ring Payload} (H : r.Holds q) {batch : List Payload}
    (hbatch : batch <+: q.items) : r.readN batch.length = batch := by
  rw [H.readN_eq, BoundedQueue.readN, Nat.min_eq_left hbatch.length_le]
  exact (List.prefix_iff_eq_take.mp hbatch).symm

theorem upload_call {r : UploadRequest} {next : UploadInterface.Answer r → Cycle}
    (hstep : w.cycle.step w.batchSize = .call r next) (stop : Bool) (reply : Option Nat) :
    w.upload stop reply =
      { w with
        pipeline := (answerUpload stop reply r w.pipeline).2
        cycle := next (answerUpload stop reply r w.pipeline).1
        answered := w.answered ++ (answered? r (answerUpload stop reply r w.pipeline).1).toList
        committed := w.committed ++ (committed? w.pipeline.buffer r).toList } := by
  rw [upload, hstep]

/-- A batch that was answered is about to be removed, or stays where it is. -/
theorem Balanced.reply (H : Balanced w q) {s : Subscriber} {exported : Nat} {batch : List Payload}
    (hc : w.cycle = .posting s exported batch) (stop : Bool) (reply : Option Nat) :
    Balanced (w.upload stop reply) q := by
  have hstep : w.cycle.step w.batchSize =
      .call (.post s batch) (Cycle.answered s exported batch) := by rw [hc]; rfl
  have hawaiting : w.awaiting = [] := by rw [awaiting, hc]
  have hfront : batch <+: q.items := by
    have h := H.inFront
    rwa [hc] at h
  rw [upload_call hstep]
  cases reply with
  | none => exact H.atRest hawaiting (.refl _) rfl rfl rfl trivial
  | some code =>
    by_cases hcode : code = 200
    · subst hcode
      refine H.cycle (.refl _) rfl (List.append_nil _) hfront.length_le ?_
      have hread := readN_of_prefix H.holds hfront
      have hanswer := H.answered_eq
      rw [hawaiting, List.append_nil] at hanswer
      change w.answered ++ [batch] = w.committed ++ [] ++ [w.pipeline.buffer.readN batch.length]
      rw [hread, hanswer, List.append_nil]
    · have hnone : answered? (.post s batch) (some code) = none := if_neg hcode
      have hnext : Cycle.answered s exported batch (some code) =
          .failing s.name exported (.status code) := if_neg hcode
      refine H.atRest hawaiting (.refl _) rfl ?_ rfl ?_
      · change w.answered ++ (answered? (.post s batch) (some code)).toList = _
        rw [hnone]
        rfl
      · change AtRest (Cycle.answered s exported batch (some code))
        rw [hnext]
        trivial

/-- Whatever the uploader does next, all stays balanced. -/
theorem Balanced.upload (H : Balanced w q) (stop : Bool) (reply : Option Nat) :
    ∃ q', Balanced (w.upload stop reply) q' := by
  cases hc : w.cycle with
  | start =>
    rw [Traffic.upload, hc]
    exact ⟨q, H.atRest (by rw [awaiting, hc]) ⟨rfl, rfl, rfl⟩ rfl rfl rfl trivial⟩
  | resolving =>
    rw [Traffic.upload, hc]
    exact ⟨q, H.atRest (by rw [awaiting, hc]) ⟨rfl, rfl, rfl⟩ rfl rfl rfl (atRest_resolved _)⟩
  | between s exported =>
    rw [Traffic.upload, hc]
    refine ⟨q, H.atRest (by rw [awaiting, hc]) ⟨rfl, rfl, rfl⟩ rfl rfl rfl ?_⟩
    cases stop with
    | true => trivial
    | false => trivial
  | reading s exported =>
    have hstep : w.cycle.step w.batchSize =
        .call (.read w.batchSize) (Cycle.batchRead s exported) := by rw [hc]; rfl
    have hbatch := inFront_batchRead H.holds s exported w.batchSize
    have hanswer := H.answered_eq
    rw [awaiting, hc, List.append_nil] at hanswer
    rw [upload_call hstep]
    refine ⟨q, H.cycle (.refl _) rfl (List.append_nil _) hbatch ?_⟩
    rw [awaiting_of_batchRead rfl, hanswer]
    exact (List.append_nil _).symm
  | posting s exported batch => exact ⟨q, H.reply hc stop reply⟩
  | committing s exported n =>
    rw [Traffic.upload, hc]
    exact ⟨_, H.commit hc rfl rfl rfl (List.append_nil _) rfl⟩
  | failing name exported e =>
    rw [Traffic.upload, hc]
    exact ⟨q, H.atRest (by rw [awaiting, hc]) ⟨rfl, rfl, rfl⟩ rfl rfl rfl trivial⟩
  | ended outcome =>
    rw [Traffic.upload, hc]
    refine ⟨q, H.cycle (.refl _) rfl rfl trivial ?_⟩
    rw [H.answered_eq, awaiting, hc]
    rfl

/-! ## Records of the handlings -/

theorem advance_call {r : ReconcilerRequest}
    {next : ReconcilerInterface.Answer r → ReconcilerProgram (Except ReconcileError Handler)}
    (hrest : h.rest = .call r next) :
    w.advance i h =
      { w with
        pipeline := (Pipeline.answer r w.pipeline).2
        handlings := w.handlings.set i (h.answered r next (Pipeline.answer r w.pipeline).1)
        offers := w.offers ++ (offer? w.pipeline i r).toList } := by
  rw [advance, hrest]

theorem Balanced.advance (H : Balanced w q) (i : Nat) (h : Handling) :
    ∃ q', Balanced (w.advance i h) q' := by
  cases hrest : h.rest with
  | done result =>
    rw [Traffic.advance, hrest]
    exact ⟨q, H⟩
  | call r next =>
    rw [advance_call hrest]
    cases r with
    | offer a => exact ⟨_, H.offer a rfl rfl rfl rfl rfl⟩
    | track action object =>
      exact ⟨q, H.frame (sameAccounts_answer rfl _) rfl (List.append_nil _) rfl rfl⟩
    | countEvent kind action =>
      exact ⟨q, H.frame (sameAccounts_answer rfl _) rfl (List.append_nil _) rfl rfl⟩
    | claimedBytes keys =>
      exact ⟨q, H.frame (sameAccounts_answer rfl _) rfl (List.append_nil _) rfl rfl⟩
    | group r =>
      exact ⟨q, H.frame (sameAccounts_answer rfl _) rfl (List.append_nil _) rfl rfl⟩

theorem Balanced.move (H : Balanced w q) (e : TrafficMove) : ∃ q', Balanced (w.move e) q' := by
  cases e with
  | begin c e => exact ⟨q, H.frame (.refl _) rfl rfl rfl rfl⟩
  | disturb now store => exact ⟨q, H.frame ⟨rfl, rfl, rfl⟩ rfl rfl rfl rfl⟩
  | upload stop reply => exact H.upload stop reply
  | advance i =>
    rw [Traffic.move]
    cases hi : w.handlings[i]? with
    | none => exact ⟨q, H⟩
    | some h => exact H.advance i h

/-- An offer is recorded for the handling that made it. -/
theorem offeredBy_of_append {r : ReconcilerRequest}
    (hw : w'.offers = w.offers ++ (offer? p i r).toList) (j : Nat) :
    w'.offeredBy j = w.offeredBy j ++ if i = j then r.offered?.toList else [] := by
  rw [offeredBy, offeredBy, hw, List.filter_append, List.map_append]
  cases r with
  | offer a =>
    by_cases hj : i = j
    · simp [offer?, ReconcilerRequest.offered?, hj]
    · simp [offer?, hj]
  | _ => simp [offer?, ReconcilerRequest.offered?]

theorem Recorded.begin (H : Recorded w) (c : Reconciler) (e : ResourceEvent) :
    Recorded (w.move (.begin c e)) := by
  refine ⟨?_, ?_, ?_, ?_, ?_⟩
  · intro h hh
    rcases List.mem_append.mp hh with hh | hh
    · exact H.obeys h hh
    · rw [List.mem_singleton.mp hh]
      exact c.handle_obeys e
  · intro h hh
    rcases List.mem_append.mp hh with hh | hh
    · exact H.begun h hh
    · rw [List.mem_singleton.mp hh]
      exact List.nil_prefix
  · intro h hh hobject
    rcases List.mem_append.mp hh with hh | hh
    · exact H.silent h hh hobject
    · rw [List.mem_singleton.mp hh] at hobject ⊢
      exact ⟨rfl, Reconciler.handle_of_no_object hobject⟩
  · intro i h hi
    simp only [Traffic.move, List.getElem?_append, List.getElem?_singleton] at hi
    split at hi
    next => exact H.offered i h hi
    next hge =>
      -- Nothing has been offered by the new handling, which stands behind all others.
      have hnone : w.offeredBy i = [] := by
        rw [offeredBy, List.map_eq_nil_iff, List.filter_eq_nil_iff]
        intro o ho
        have hlt := H.placed o ho
        simp only [decide_eq_true_eq]
        omega
      split at hi
      next => cases hi; exact hnone
      next => cases hi
  · intro o ho
    have hlt := H.placed o ho
    simp only [Traffic.move, List.length_append, List.length_singleton]
    omega

theorem Recorded.advance (H : Recorded w) (hi : w.handlings[i]? = some h) :
    Recorded (w.advance i h) := by
  have hmem : h ∈ w.handlings := List.mem_of_getElem? hi
  have hlt : i < w.handlings.length := (List.getElem?_eq_some_iff.mp hi).1
  cases hrest : h.rest with
  | done result => rwa [Traffic.advance, hrest]
  | call r next =>
    have hobeys := H.obeys h hmem
    rw [hrest] at hobeys
    obtain ⟨⟨hobject, hprefix⟩, hnext⟩ := hobeys
    rw [advance_call hrest]
    refine ⟨?_, ?_, ?_, ?_, ?_⟩
    · intro h' hh'
      rcases List.mem_or_eq_of_mem_set hh' with hh' | rfl
      · exact H.obeys h' hh'
      · exact hnext _
    · intro h' hh'
      rcases List.mem_or_eq_of_mem_set hh' with hh' | rfl
      · exact H.begun h' hh'
      · exact hprefix
    · intro h' hh' hnone
      rcases List.mem_or_eq_of_mem_set hh' with hh' | rfl
      · exact H.silent h' hh' hnone
      · change h.event.object = none at hnone
        rw [hnone] at hobject
        cases hobject
    · intro j h' hj
      rw [offeredBy_of_append rfl]
      rw [List.getElem?_set] at hj
      by_cases hij : i = j
      · subst hij
        rw [if_pos rfl, if_pos hlt] at hj
        cases hj
        rw [if_pos rfl, H.offered i h hi]
        exact (offersIn_append h.asked r).symm
      · rw [if_neg hij] at hj
        rw [if_neg hij, List.append_nil]
        exact H.offered j h' hj
    · intro o ho
      rw [List.length_set]
      rcases List.mem_append.mp ho with ho | ho
      · exact H.placed o ho
      · cases r with
        | offer a => rw [List.mem_singleton.mp ho]; exact hlt
        | _ => cases ho

/-- Only handlings have something to record. -/
theorem Recorded.upload (H : Recorded w) (stop : Bool) (reply : Option Nat) :
    Recorded (w.upload stop reply) := by
  rw [Traffic.upload]
  split
  · exact ⟨H.obeys, H.begun, H.silent, H.offered, H.placed⟩
  · exact ⟨H.obeys, H.begun, H.silent, H.offered, H.placed⟩

theorem Recorded.move (H : Recorded w) (e : TrafficMove) : Recorded (w.move e) := by
  cases e with
  | begin c e => exact H.begin c e
  | disturb now store => exact ⟨H.obeys, H.begun, H.silent, H.offered, H.placed⟩
  | upload stop reply => exact H.upload stop reply
  | advance i =>
    rw [Traffic.move]
    cases hi : w.handlings[i]? with
    | none => exact H
    | some h => exact H.advance hi

/-! ## Runs -/

theorem balanced_new (settings : PipelineSettings) (now : Instant) (batchSize : Nat) :
    Balanced { pipeline := .new settings now, batchSize }
      { limit := max settings.capacity 2 - 1 } where
  holds := Ring.holds_new settings.capacity
  accepted_eq := rfl
  dropped_eq := rfl
  eventsDropped_eq := rfl
  payloadsExported_eq := rfl
  inFront := trivial
  answered_eq := rfl

theorem recorded_new (p : Pipeline) (batchSize : Nat) : Recorded { pipeline := p, batchSize } where
  obeys _ hh := nomatch hh
  begun _ hh := nomatch hh
  silent _ hh := nomatch hh
  offered _ _ hi := nomatch hi
  placed _ ho := nomatch ho

/-- By induction on the moves. -/
theorem balanced_run (H : Balanced w q) (moves : List TrafficMove) :
    ∃ q', Balanced (w.run moves) q' := by
  induction moves generalizing w q with
  | nil => exact ⟨q, H⟩
  | cons e moves ih =>
    obtain ⟨q', H'⟩ := H.move e
    exact ih H'

theorem recorded_run (H : Recorded w) (moves : List TrafficMove) : Recorded (w.run moves) := by
  induction moves generalizing w with
  | nil => exact H
  | cons e moves ih => exact ih (H.move e)

/-- Each offer was taken or not. -/
theorem length_offers (w : Traffic) :
    w.offers.length = w.accepted.length + w.rejected.length := by
  rw [accepted, rejected, List.length_map, List.length_map]
  exact List.length_eq_length_filter_add Offer.taken

/-- A handling has offered what it should. -/
structure Exports (w : Traffic) (i : Nat) (h : Handling) : Prop where
  /-- Once it has finished, with whatever result, exactly one payload has been offered that
  describes the event, if this carries an object and is not to be ignored. -/
  exported : ∀ result object, h.rest = .done result → h.event.object = some object →
    ¬h.settings.Ignores h.event →
      ∃ payload, w.offeredBy i = [payload] ∧ h.settings.Describes h.event object payload
  /-- No other payload has been offered, and not more than one. -/
  only : ∀ payload ∈ w.offeredBy i, ∃ object, h.event.object = some object ∧
    ¬h.settings.Ignores h.event ∧ h.settings.Describes h.event object payload
  once : (w.offeredBy i).length ≤ 1
  /-- Without an object nothing has been asked for at all. -/
  silent : h.event.object = none →
    h.asked = [] ∧ h.rest = .done (.error (.missingObject h.event.key))

theorem Recorded.exports (H : Recorded w) (hi : w.handlings[i]? = some h) : Exports w i h := by
  have hmem : h ∈ w.handlings := List.mem_of_getElem? hi
  have hoffered := H.offered i h hi
  have hbegun : w.offeredBy i <+: (h.settings.payload? h.event).toList := hoffered ▸ H.begun h hmem
  refine ⟨fun result object hrest hobject hcounts => ?_, fun payload hpayload => ?_, ?_,
    H.silent h hmem⟩
  · have hobeys := H.obeys h hmem
    rw [hrest] at hobeys
    have hall : w.offeredBy i = (h.settings.payload? h.event).toList := hoffered.trans hobeys
    obtain ⟨payload, hsome⟩ : ∃ payload, h.settings.payload? h.event = some payload := by
      rw [Reconciler.payload?, hobject]
      exact ⟨_, if_neg hcounts⟩
    obtain ⟨object', hobject', -, hdescribes⟩ := Reconciler.payload?_eq_some_iff.mp hsome
    cases hobject.symm.trans hobject'
    exact ⟨payload, by rw [hall, hsome]; rfl, hdescribes⟩
  · have hsome := hbegun.subset hpayload
    rw [Option.mem_toList] at hsome
    exact Reconciler.payload?_eq_some_iff.mp hsome
  · exact Nat.le_trans hbegun.length_le Option.length_toList_le

theorem Balanced.awaiting_prefix (H : Balanced w q) :
    w.awaiting.flatten <+: w.pipeline.buffer.toList := by
  rw [awaiting, H.holds.toList_eq]
  cases w.cycle with
  | committing s exported n =>
    simp only [List.flatten_singleton]
    rw [H.holds.readN_eq]
    exact List.take_prefix _ _
  | _ => exact List.nil_prefix

/-- The payloads that were taken are those of the removed batches, followed by what the
buffer holds; the removed batches are those that were answered with 200, up to the one
that is about to be removed from the front of the buffer. The counters say how many were
not taken and how many were removed, and all offers are accounted for by them. Each
event has offered its payload, and nobody else has offered any. -/
theorem run_conserves (settings : PipelineSettings) (now : Instant) (batchSize : Nat)
    (moves : List TrafficMove) :
    let w := Traffic.run { pipeline := .new settings now, batchSize } moves
    (w.accepted = w.committed.flatten ++ w.pipeline.buffer.toList ∧
      w.answered = w.committed ++ w.awaiting ∧
      w.awaiting.flatten <+: w.pipeline.buffer.toList ∧
      w.pipeline.buffer.dropped = w.rejected.length ∧
      w.pipeline.metrics.eventsDropped = w.rejected.length ∧
      w.pipeline.metrics.payloadsExported = w.committed.flatten.length ∧
      w.offers.length = w.pipeline.metrics.payloadsExported + w.pipeline.buffer.len +
        w.pipeline.metrics.eventsDropped) ∧
      (∀ i h, w.handlings[i]? = some h → Exports w i h) ∧
      ∀ o ∈ w.offers, o.handling < w.handlings.length := by
  intro w
  obtain ⟨q, H⟩ := balanced_run (balanced_new settings now batchSize) moves
  have hrecorded : Recorded w := recorded_run (recorded_new _ _) moves
  have hlength : w.accepted.length = w.committed.flatten.length + w.pipeline.buffer.len := by
    rw [H.accepted_eq, List.length_append, H.holds.len_eq]
  refine ⟨⟨?_, H.answered_eq, H.awaiting_prefix, ?_, H.eventsDropped_eq, H.payloadsExported_eq,
    ?_⟩, fun i h hi => hrecorded.exports hi, hrecorded.placed⟩
  · rw [H.holds.toList_eq]
    exact H.accepted_eq
  · rw [H.holds.dropped_eq]
    exact H.dropped_eq
  · rw [length_offers, hlength, H.payloadsExported_eq, H.eventsDropped_eq]

/-! ## A payload sent twice -/

/-- A pod of a shop. -/
def shopPod (name : String) : Resource where
  metadata := { name := some name, namespaceName := some "shop" }
  content := .pod none none

/-- Whoever takes the payloads of the shop. -/
def shopSubscriber : Subscriber := { name := "sub", url := "http://sub.test/" }

/-- Two pods appear, and the store of groups fails for the first one. The buffer is full when the
second one is offered. The first post is not answered, and the second one is. -/
def sentTwice : List TrafficMove :=
  [.disturb ⟨1700000000, 0⟩
      { ScriptedStore.order {} .get [.fail .other] with
        memory := { subscribers := [shopSubscriber] } },
    .begin {} (.new .create (shopPod "web-0") ⟨1700000000, 0⟩),
    .begin {} (.new .create (shopPod "web-1") ⟨1700000000, 0⟩)] ++
    .replicate 5 (.advance 0) ++ .replicate 3 (.advance 1) ++
    .replicate 7 (.upload false none) ++ .replicate 6 (.upload false (some 200))

/-- The payload of the first pod is offered though the groups fail, and is posted twice before it
is removed; the payload of the second pod is counted as dropped. -/
theorem posted_again_and_dropped :
    let start : Traffic := { pipeline := .new { capacity := 2 } ⟨1700000000, 0⟩, batchSize := 5 }
    let w := start.run sentTwice
    ∃ h payload, w.handlings[0]? = some h ∧
      h.rest = .done (.error (.aggregate (.store (.other "scripted for ns-shop")))) ∧
      w.offeredBy 0 = [payload] ∧ h.settings.Describes h.event (shopPod "web-0") payload ∧
      ((start.run (sentTwice.take 15)).cycle = .posting shopSubscriber 0 [payload] ∧
        (start.run (sentTwice.take 22)).cycle = .posting shopSubscriber 0 [payload]) ∧
      w.answered = [[payload]] ∧ w.accepted = w.committed.flatten ++ w.pipeline.buffer.toList ∧
      w.offers.length = 2 ∧ w.pipeline.metrics.eventsDropped = 1 := by
  intro start w
  have hrun : Traffic.run
      { pipeline := .new { capacity := 2 } ⟨1700000000, 0⟩, batchSize := 5 } sentTwice = w := rfl
  obtain ⟨⟨haccepted, -, -, -, hdropped, -, -⟩, hexports, -⟩ :=
    run_conserves { capacity := 2 } ⟨1700000000, 0⟩ 5 sentTwice
  rw [hrun] at haccepted hdropped
  simp only [hrun] at hexports
  have hresult : w.handlings[0]?.bind Handling.result? =
      some (.error (.aggregate (.store (.other "scripted for ns-shop")))) := by decide +kernel
  have hevent : w.handlings[0]?.map Handling.event =
      some (.new .create (shopPod "web-0") ⟨1700000000, 0⟩) := by decide +kernel
  obtain ⟨h, hh, hdone⟩ := Option.bind_eq_some_iff.mp hresult
  rw [hh, Option.map_some, Option.some_inj] at hevent
  have hrest := Handling.rest_of_result? hdone
  have hcounts : ¬h.settings.Ignores h.event := by
    rw [hevent]
    exact fun hignored => nomatch hignored.1
  obtain ⟨payload, hoffered, hdescribes⟩ :=
    (hexports 0 h hh).exported _ (shopPod "web-0") hrest (by rw [hevent]; rfl) hcounts
  have hposted : (start.run (sentTwice.take 15)).cycle = .posting shopSubscriber 0 (w.offeredBy 0) ∧
      (start.run (sentTwice.take 22)).cycle = .posting shopSubscriber 0 (w.offeredBy 0) := by
    decide +kernel
  have hanswered : w.answered = [w.offeredBy 0] := by decide +kernel
  rw [hoffered] at hposted hanswered
  have hcount : w.offers.length = 2 ∧ w.rejected.length = 1 := by decide +kernel
  exact ⟨h, payload, hh, hrest, hoffered, hdescribes, hposted, hanswered, haccepted, hcount.1,
    hdropped.trans hcount.2⟩

end Traffic

end Chargeback
