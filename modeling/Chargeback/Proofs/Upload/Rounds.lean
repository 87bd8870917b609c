import Chargeback.Upload.Cycle
import Mathlib.Data.List.Basic

/-!
# The rounds of a cycle

A cycle with a subscriber works in rounds: it asks whether to stop, reads a batch from
the front of the buffer, posts it, and removes it if the answer is 200. What a cycle has
done when it stands at a given stage is what it has done in a number of whole rounds, and
in the one that it is in. All that it posts, removes and reports can be read off them.

## Main definitions

* `CycleEvent`, `PostedBatch`: what a step of a cycle has done.
* `Rounds`: whole rounds.
* `Opening`, `InRound`, `Tells`: what a cycle has done when it stands at a given stage.
-/

namespace Chargeback

/-- A batch that was posted. -/
structure PostedBatch where
  subscriber : Subscriber
  /-- What the buffer held when the batch was read. -/
  found : List Payload
  batch : List Payload
  /-- The status of the answer, if there was one. -/
  reply : Option Nat

/-- What a step of a cycle has done. -/
inductive CycleEvent where
  | showed
  /-- The subscribers were listed, or could not be. -/
  | listed (a : Except StoreError (List Subscriber))
  /-- The cycle asked whether to stop. -/
  | asked (stop : Bool)
  | read
  | posted (p : PostedBatch)
  | removed (batch : List Payload)
  | reported (subscriber : String) (e : UploadError)

namespace CycleEvent

/-- The batch that was posted, if one was. -/
def posted? : CycleEvent → Option PostedBatch
  | posted p => some p
  | _ => none

/-- The batch that was removed, if one was. -/
def removed? : CycleEvent → Option (List Payload)
  | removed batch => some batch
  | _ => none

/-- All batches that were posted. -/
def posts (events : List CycleEvent) : List PostedBatch := events.filterMap posted?

/-- All batches that were removed. -/
def removals (events : List CycleEvent) : List (List Payload) := events.filterMap removed?

@[simp] theorem posts_append (l l' : List CycleEvent) : posts (l ++ l') = posts l ++ posts l' := by
  simp [posts]

@[simp] theorem removals_append (l l' : List CycleEvent) :
    removals (l ++ l') = removals l ++ removals l' := by
  simp [removals]

end CycleEvent

open CycleEvent

/-! ## What a cycle has done at each stage -/

/-- The failure that an answer other than 200 is. -/
def UploadError.ofReply : Option Nat → UploadError
  | some code => .status code
  | none => .transport

/-- What a cycle with batches of a given size has behind it once it knows its subscriber:
the rounds in which a batch was removed. -/
structure Rounds (batchSize : Nat) where
  subscriber : Subscriber
  /-- The other subscribers, which nothing is sent to. -/
  others : List Subscriber
  /-- What the buffer held at the read of each round. -/
  founds : List (List Payload)
  filled : ∀ found ∈ founds, found.take batchSize ≠ []

namespace Rounds

variable {b : Nat} (t : Rounds b)

/-- The post of a round. -/
def post (found : List Payload) (reply : Option Nat) : PostedBatch :=
  { subscriber := t.subscriber, found, batch := found.take b, reply }

/-- What was done in a round. -/
def round (found : List Payload) : List CycleEvent :=
  [.asked false, .read, .posted (t.post found (some 200)), .removed (found.take b)]

/-- What was done before the rounds and in them. -/
def events : List CycleEvent :=
  [.showed, .listed (.ok (t.subscriber :: t.others))] ++ t.founds.flatMap t.round

/-- The posts of the rounds. -/
def acknowledged : List PostedBatch := t.founds.map fun found => t.post found (some 200)

/-- The batches of the rounds. -/
def batches : List (List Payload) := t.founds.map (·.take b)

/-- The number of payloads that were removed. -/
def exported : Nat := t.batches.flatten.length

/-- One more round. -/
def next {found : List Payload} (h : found.take b ≠ []) : Rounds b where
  subscriber := t.subscriber
  others := t.others
  founds := t.founds ++ [found]
  filled := by
    intro found' hfound'
    rcases List.mem_append.mp hfound' with hmem | hmem
    · exact t.filled found' hmem
    · rwa [List.mem_singleton.mp hmem]

variable {found : List Payload}

@[simp] theorem exported_next (h : found.take b ≠ []) :
    (t.next h).exported = t.exported + (found.take b).length := by
  simp [exported, batches, next]

theorem events_next (h : found.take b ≠ []) :
    (t.next h).events = t.events ++ t.round found := by
  have hround : (t.next h).round = t.round := rfl
  rw [events, events, hround]
  simp [next]

@[simp] theorem posts_events : CycleEvent.posts t.events = t.acknowledged := by
  have hrounds (l : List (List Payload)) :
      CycleEvent.posts (l.flatMap t.round) = l.map fun found => t.post found (some 200) := by
    induction l with
    | nil => rfl
    | cons found l ih =>
      rw [List.flatMap_cons, posts_append, ih]
      rfl
  simp only [events, posts_append, hrounds]
  rfl

@[simp] theorem removals_events : removals t.events = t.batches := by
  have hrounds (l : List (List Payload)) : removals (l.flatMap t.round) = l.map (·.take b) := by
    induction l with
    | nil => rfl
    | cons found l ih =>
      rw [List.flatMap_cons, removals_append, ih]
      rfl
  simp only [events, removals_append, hrounds]
  rfl

theorem asked_true_not_mem_events : .asked true ∉ t.events := by
  simp [events, round]

theorem eq_of_listed_mem_events {a : Except StoreError (List Subscriber)}
    (ha : .listed a ∈ t.events) : a = .ok (t.subscriber :: t.others) := by
  simpa [events, round] using ha

@[simp] theorem filter_acknowledged :
    (t.acknowledged.filter fun p => p.reply = some 200) = t.acknowledged := by
  simp [acknowledged, post, List.filter_eq_self]

theorem reply_of_mem_acknowledged {p : PostedBatch} (hp : p ∈ t.acknowledged) :
    p.reply = some 200 := by
  obtain ⟨found, -, rfl⟩ := List.mem_map.mp hp
  rfl

@[simp] theorem map_batch_acknowledged : t.acknowledged.map PostedBatch.batch = t.batches := by
  simp [acknowledged, batches, post]

end Rounds

/-- A batch read from what the buffer held is still in front of it. -/
structure StillInFront (b : Nat) (found items : List Payload) : Prop where
  filled : found.take b ≠ []
  found_in_front : found <+: items

/-- Where a cycle stands before it knows a subscriber, or without one, and what it has
done. -/
inductive Opening : Cycle → List CycleEvent → Prop where
  | start : Opening .start []
  | resolving : Opening .resolving [.showed]
  | unsubscribed : Opening (.ended .noSubscriber) [.showed, .listed (.ok [])]
  | unlisted (e : StoreError) : Opening (.failing "" 0 (.store e)) [.showed, .listed (.error e)]
  | unlistedEnd (e : StoreError) :
    Opening (.ended (.failed 0 (.store e)))
      [.showed, .listed (.error e), .reported "" (.store e)]

/-- Where a cycle stands after a number of rounds, and what it has done since. The buffer
held `found` at the last read, and holds `items` now. -/
inductive InRound {b : Nat} (t : Rounds b) (found items : List Payload) :
    Cycle → List CycleEvent → Prop where
  | between : InRound t found items (.between t.subscriber t.exported) []
  | stopped : InRound t found items (.ended (.stopped t.exported)) [.asked true]
  | reading : InRound t found items (.reading t.subscriber t.exported) [.asked false]
  | drained (h : found = []) :
    InRound t found items (.ended (.drained t.exported)) [.asked false, .read]
  | posting (h : StillInFront b found items) :
    InRound t found items (.posting t.subscriber t.exported (found.take b)) [.asked false, .read]
  | committing (h : StillInFront b found items) :
    InRound t found items (.committing t.subscriber t.exported (found.take b).length)
      [.asked false, .read, .posted (t.post found (some 200))]
  | failing (h : StillInFront b found items) {reply : Option Nat} (hreply : reply ≠ some 200) :
    InRound t found items (.failing t.subscriber.name t.exported (.ofReply reply))
      [.asked false, .read, .posted (t.post found reply)]
  | failed (h : StillInFront b found items) {reply : Option Nat} (hreply : reply ≠ some 200) :
    InRound t found items (.ended (.failed t.exported (.ofReply reply)))
      [.asked false, .read, .posted (t.post found reply),
        .reported t.subscriber.name (.ofReply reply)]

/-- Where a cycle stands, and what it has done. -/
inductive Tells (b : Nat) (found items : List Payload) (stage : Cycle) (events : List CycleEvent) :
    Prop where
  | opening (h : Opening stage events)
  | inRound (t : Rounds b) (tail : List CycleEvent) (h : InRound t found items stage tail)
    (hevents : events = t.events ++ tail)

theorem StillInFront.append {b : Nat} {found items : List Payload}
    (h : StillInFront b found items) (more : List Payload) :
    StillInFront b found (items ++ more) :=
  ⟨h.filled, h.found_in_front.trans (List.prefix_append _ _)⟩

theorem StillInFront.batch_in_front {b : Nat} {found items : List Payload}
    (h : StillInFront b found items) : found.take b <+: items := by
  have htake : found.take b <+: found := List.take_prefix b found
  exact htake.trans h.found_in_front

/-- What a cycle has done does not depend on what arrives behind the front of the buffer. -/
theorem Tells.append {b : Nat} {found items : List Payload} {stage : Cycle}
    {events : List CycleEvent} (h : Tells b found items stage events) (more : List Payload) :
    Tells b found (items ++ more) stage events := by
  cases h with
  | opening h => exact .opening h
  | inRound t tail h hevents =>
    refine .inRound t tail ?_ hevents
    cases h with
    | between => exact .between
    | stopped => exact .stopped
    | reading => exact .reading
    | drained h => exact .drained h
    | posting h => exact .posting (h.append more)
    | committing h => exact .committing (h.append more)
    | failing h hreply => exact .failing (h.append more) hreply
    | failed h hreply => exact .failed (h.append more) hreply

namespace Opening

variable {stage : Cycle} {events : List CycleEvent}

theorem posts_eq (h : Opening stage events) : posts events = [] := by cases h <;> rfl

theorem removals_eq (h : Opening stage events) : removals events = [] := by cases h <;> rfl

theorem asked_true_not_mem (h : Opening stage events) : .asked true ∉ events := by
  cases h <;> simp

end Opening

namespace InRound

variable {b : Nat} {t : Rounds b} {found items : List Payload} {stage : Cycle}
  {tail : List CycleEvent}

theorem removals_eq (h : InRound t found items stage tail) : removals tail = [] := by
  cases h <;> rfl

theorem listed_not_mem (h : InRound t found items stage tail)
    (a : Except StoreError (List Subscriber)) : .listed a ∉ tail := by
  cases h <;> simp

/-- The one post of an unfinished round is of what the last read found. -/
theorem of_mem_posts (h : InRound t found items stage tail) {p : PostedBatch}
    (hp : p ∈ posts tail) : StillInFront b found items ∧ ∃ reply, p = t.post found reply := by
  cases h with
  | committing h => exact ⟨h, _, List.mem_singleton.mp hp⟩
  | failing h hreply => exact ⟨h, _, List.mem_singleton.mp hp⟩
  | failed h hreply => exact ⟨h, _, List.mem_singleton.mp hp⟩
  | _ => cases hp

theorem batches_in_front (h : InRound t found items stage tail) :
    ((posts tail).map PostedBatch.batch).flatten <+: items := by
  have hpost (h : StillInFront b found items) (reply : Option Nat) :
      ([t.post found reply].map PostedBatch.batch).flatten <+: items := by
    simpa [Rounds.post] using h.batch_in_front
  cases h with
  | committing h => exact hpost h _
  | failing h hreply => exact hpost h _
  | failed h hreply => exact hpost h _
  | _ => exact List.nil_prefix

theorem of_refused (h : InRound t found items stage tail) {p : PostedBatch}
    (hp : p ∈ posts tail) (hreply : p.reply ≠ some 200) :
    posts tail = [p] ∧ p.batch <+: items ∧
      (stage = .failing p.subscriber.name t.exported (.ofReply p.reply) ∨
        stage = .ended (.failed t.exported (.ofReply p.reply))) := by
  cases h with
  | committing h =>
    rw [List.mem_singleton.mp hp] at hreply
    exact absurd rfl hreply
  | failing h hreply' =>
    rw [List.mem_singleton.mp hp]
    exact ⟨rfl, h.batch_in_front, .inl rfl⟩
  | failed h hreply' =>
    rw [List.mem_singleton.mp hp]
    exact ⟨rfl, h.batch_in_front, .inr rfl⟩
  | _ => cases hp

theorem of_asked_true (h : InRound t found items stage tail) (hasked : .asked true ∈ tail) :
    tail = [.asked true] ∧ stage = .ended (.stopped t.exported) := by
  cases h <;> simp_all

end InRound

end Chargeback
