/-!
# Ring buffers

A first-in first-out queue in a fixed number of slots. One slot always stays
empty, which tells a full buffer from an empty one. A full buffer rejects new
items and counts them; what it holds is never given up for something newer.
Items are read without being removed, so that a batch can be sent first and
removed once it has arrived.

## Main definitions

* `Ring α`: slots, the position of the oldest item and the next free position.
* `Ring.put`, `Ring.get`, `Ring.removeN`: the updates.
* `Ring.readN`, `Ring.toList`: the views.
-/

namespace Chargeback

variable {α : Type}

/-- A circular queue. -/
structure Ring (α : Type) where
  slots : Array (Option α)
  /-- The position of the oldest item. -/
  start : Nat
  /-- The next free position. -/
  stop : Nat
  /-- The number of items rejected so far. -/
  dropped : Nat
deriving DecidableEq, Repr, Inhabited

/-- Where a ring stands. -/
structure Ring.Stats where
  len : Nat
  capacity : Nat
  start : Nat
  stop : Nat
  dropped : Nat
deriving DecidableEq, Repr

namespace Ring

/-- The number of slots unless another one is asked for. -/
def defaultCapacity : Nat := 1000

/-- An empty ring with the given number of slots, and with two at least. -/
def new (capacity : Nat) : Ring α :=
  { slots := Array.replicate (max capacity 2) none, start := 0, stop := 0, dropped := 0 }

/-- The number of slots. -/
def capacity (r : Ring α) : Nat := r.slots.size

/-- The position behind a given one. -/
def next (r : Ring α) (i : Nat) : Nat := (i + 1) % r.capacity

/-- No item is held. -/
def isEmpty (r : Ring α) : Bool := r.start = r.stop

/-- No further item can be held. -/
def isFull (r : Ring α) : Bool := r.next r.stop = r.start

/-- The number of items held. -/
def len (r : Ring α) : Nat := (r.stop + r.capacity - r.start) % r.capacity

/-- What the slot at a position holds. -/
def slot? (r : Ring α) (i : Nat) : Option α := (r.slots[i]?).join

/-- Append an item; a full ring rejects it and only counts it. The flag tells
whether the item was taken. -/
def put (r : Ring α) (a : α) : Bool × Ring α :=
  if r.isFull then (false, { r with dropped := r.dropped + 1 })
  else
    let stop := r.next r.stop
    (true, { r with slots := r.slots.setIfInBounds r.stop (some a), stop })

/-- Empty the slot of the oldest item. -/
def advance (r : Ring α) : Ring α :=
  let start := r.next r.start
  { r with slots := r.slots.setIfInBounds r.start none, start }

/-- Take the oldest item out. -/
def get (r : Ring α) : Option α × Ring α :=
  if r.isEmpty then (none, r) else (r.slot? r.start, r.advance)

/-- Remove up to `n` of the oldest items and tell how many there were. -/
def removeN (r : Ring α) : Nat → Nat × Ring α
  | 0 => (0, r)
  | n + 1 =>
    if r.isEmpty then (0, r)
    else
      let (removed, r) := removeN r.advance n
      (removed + 1, r)

/-- Up to `n` of the oldest items, the oldest one first. -/
def readN (r : Ring α) (n : Nat) : List α :=
  (List.range (min n r.len)).filterMap fun k => r.slot? ((r.start + k) % r.capacity)

/-- All items, the oldest one first. -/
def toList (r : Ring α) : List α := r.readN r.len

/-- Where the ring stands. -/
def stats (r : Ring α) : Stats :=
  { len := r.len, capacity := r.capacity, start := r.start, stop := r.stop, dropped := r.dropped }

end Ring

end Chargeback
