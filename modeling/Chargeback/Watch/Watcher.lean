import Chargeback.Health
import Chargeback.Watch.Stream

/-!
# Watchers

A watcher follows the stream of one kind and hands on the changes that it means.
While the stream fails it reports the stage that handles events as degraded, and
as healthy again with the next event. It ends when nobody takes its changes any
more.

## Main definitions

* `Watcher`: the objects known so far, and what was reported.
* `Watcher.observe`: what a watcher makes of an item.
* `WatchRun`: a watcher at work on a stream, with what it has sent.
* `Change.deletionsInOrder`: changes without an order among deletions.
-/

namespace Chargeback

/-- A watcher of a kind. -/
structure Watcher where
  kind : ResourceKind
  known : KnownObjects := {}
  degraded : Bool := false

namespace Watcher

/-- What a watcher makes of an item: its reports first, and then the changes that
it hands on. -/
structure Observation where
  reports : List HealthReport := []
  changes : List Change := []
  watcher : Watcher

/-- The message about a failing stream. -/
def failureMessage (kind : ResourceKind) (f : WatchFailure) : String :=
  kind.name ++ " watch failing: " ++ f.message

/-- What a watcher makes of an item. -/
def observe (w : Watcher) : WatchItem → Observation
  | .event e =>
    let (changes, known) := w.known.observe e
    { reports := if w.degraded then [.healthy Component.reconciler] else []
      changes
      watcher := { w with known, degraded := false } }
  | .failure f =>
    { reports := [.degraded Component.reconciler (failureMessage w.kind f)]
      watcher := { w with degraded := true } }

end Watcher

/-- A watcher at work on a stream. -/
structure WatchRun where
  watcher : Watcher
  stream : WatchStream := .start
  health : HealthRegistry := {}
  /-- The changes that were handed on so far. -/
  sent : List Change := []
  /-- Nobody takes the changes any more. -/
  receiverGone : Bool := false
  /-- The watcher has ended by itself. -/
  ended : Bool := false

namespace WatchRun

/-- An item arrives at a given time. -/
def observe (now : Int) (run : WatchRun) (item : WatchItem) : WatchRun :=
  if run.ended then run
  else
    let o := run.watcher.observe item
    let run := { run with watcher := o.watcher, health := run.health.applyAll now o.reports }
    if run.receiverGone then { run with ended := !o.changes.isEmpty }
    else { run with sent := run.sent ++ o.changes }

/-- A reply to the stream's request arrives at a given time. -/
def receive (now : Int) (run : WatchRun) (reply : Reply) : WatchRun :=
  let (items, stream) := run.stream.receive run.watcher.kind reply
  items.foldl (observe now) { run with stream }

/-- Replies arrive one after another. -/
def receiveAll (now : Int) (run : WatchRun) (replies : List Reply) : WatchRun :=
  replies.foldl (receive now) run

end WatchRun

namespace Change

/-- Put a deletion in its place among the deletions in front, by key. -/
def insertDeletion (c : Change) : List Change → List Change
  | [] => [c]
  | d :: rest =>
    if d.action = .delete && d.object.key < c.object.key then d :: insertDeletion c rest
    else c :: d :: rest

/-- Changes in which deletions that follow one another are ordered by key. -/
def deletionsInOrder : List Change → List Change
  | [] => []
  | c :: rest =>
    if c.action = .delete then insertDeletion c (deletionsInOrder rest)
    else c :: deletionsInOrder rest

end Change

end Chargeback
