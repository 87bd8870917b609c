import Chargeback.KeyMap

/-!
# Locks of groups

Changes of one group take turns. The first change of a group puts a lock into a
table, under the name of the group; those that come meanwhile wait for the same
lock; and the last one takes the lock out of the table again, so that the table
does not grow with the groups that were ever changed.

A change goes through its stages in single steps, and between any two of them
other changes may take theirs.

## Main definitions

* `LockStage`, `LockCall`: where a change stands.
* `LockTable`: the locks by name, and all changes so far.
* `LockTable.advance`: the next step of a change, if it can take one.
* `LockTable.Reachable`: the tables that come about.
-/

namespace Chargeback

/-- Where a change stands with regard to the lock of its group. -/
inductive LockStage where
  /-- It has not asked for the lock yet. -/
  | arriving
  /-- It refers to a lock that it does not hold. -/
  | waiting (lock : Nat)
  /-- It holds the lock, and is about to write. -/
  | holding (lock : Nat)
  /-- It has written, and holds the lock still. -/
  | written (lock : Nat)
  /-- It has given the lock back but still refers to it. -/
  | released (lock : Nat)
  /-- It does not refer to the lock any more, but has not looked yet whether
  anybody does. -/
  | leaving
  | finished
deriving DecidableEq, Repr

namespace LockStage

/-- The lock that a change refers to. -/
def lock? : LockStage → Option Nat
  | waiting l | holding l | written l | released l => some l
  | arriving | leaving | finished => none

/-- The lock that a change holds. -/
def held? : LockStage → Option Nat
  | holding l | written l => some l
  | arriving | waiting _ | released _ | leaving | finished => none

/-- The change has asked for the lock, and has not cleared the table yet. -/
def isUnderWay : LockStage → Bool
  | arriving | finished => false
  | waiting _ | holding _ | written _ | released _ | leaving => true

theorem lock?_of_held? {s : LockStage} {lock : Nat} (h : s.held? = some lock) :
    s.lock? = some lock := by
  cases s <;> first | exact h | cases h

theorem isUnderWay_of_lock? {s : LockStage} {lock : Nat} (h : s.lock? = some lock) :
    s.isUnderWay := by
  cases s <;> first | rfl | cases h

end LockStage

/-- A change of a group. -/
structure LockCall where
  group : String
  stage : LockStage := .arriving
deriving DecidableEq, Repr

/-- The locks of groups by name, and all changes so far. -/
structure LockTable where
  locks : KeyMap Nat := .empty
  /-- The number of the next new lock. -/
  fresh : Nat := 0
  calls : List LockCall := []

namespace LockTable

/-- No change refers to the lock. -/
def isUnused (t : LockTable) (lock : Nat) : Bool :=
  t.calls.all fun c => c.stage.lock? ≠ some lock

/-- No change holds the lock. -/
def isFree (t : LockTable) (lock : Nat) : Bool :=
  t.calls.all fun c => c.stage.held? ≠ some lock

/-- A change of a group begins. -/
def begin (t : LockTable) (group : String) : LockTable :=
  { t with calls := t.calls ++ [{ group }] }

/-- Bring a change to a stage. -/
def setStage (t : LockTable) (i : Nat) (c : LockCall) (stage : LockStage) : LockTable :=
  { t with calls := t.calls.set i { c with stage } }

/-- The lock of a group, put into the table if it is not there. -/
def lockFor (t : LockTable) (group : String) : Nat × LockTable :=
  match t.locks.get? group with
  | some lock => (lock, t)
  | none => (t.fresh, { t with locks := t.locks.insert group t.fresh, fresh := t.fresh + 1 })

/-- Take the lock of a group out of the table if nobody refers to it. -/
def evict (t : LockTable) (group : String) : LockTable :=
  match t.locks.get? group with
  | some lock => if t.isUnused lock then { t with locks := t.locks.erase group } else t
  | none => t

/-- The next step of a change at its place: it asks for the lock, takes it as soon as
it is free, writes, gives the lock back, lets go of it, and clears the table. -/
def advanceCall (t : LockTable) (i : Nat) (c : LockCall) : Option LockTable :=
  match c.stage with
  | .arriving =>
    let (lock, t) := t.lockFor c.group
    some (t.setStage i c (.waiting lock))
  | .waiting lock => if t.isFree lock then some (t.setStage i c (.holding lock)) else none
  | .holding lock => some (t.setStage i c (.written lock))
  | .written lock => some (t.setStage i c (.released lock))
  | .released _ => some (t.setStage i c .leaving)
  | .leaving => some ((t.evict c.group).setStage i c .finished)
  | .finished => none

/-- The next step of the change at a place, if it can take one. -/
def advance (t : LockTable) (i : Nat) : Option LockTable :=
  (t.calls[i]?).bind (t.advanceCall i)

/-- The tables that come about when changes begin and take their steps in any
order. -/
inductive Reachable : LockTable → Prop where
  | empty : Reachable {}
  | begin {t : LockTable} (group : String) (h : Reachable t) : Reachable (t.begin group)
  | advance {t u : LockTable} (i : Nat) (h : Reachable t) (step : t.advance i = some u) :
    Reachable u

end LockTable

end Chargeback
