import Chargeback.Buffer.Ring
import Chargeback.Proofs.Program.Serve
import Mathlib.Data.Nat.ModEq

/-!
# Ring buffers are bounded queues

A ring keeps its items in slots that it uses over and over. Seen from outside it is
a list with a limit: items are appended at the end, and rejected once the limit is
reached; they leave at the front. The list has no positions. The positions that a
ring shows are the numbers of items that have left the queue and that have entered
it, counted around the ring.

## Main definitions

* `BoundedQueue`: a list with a limit, and its operations.
* `BufferCall`: the calls of a buffer, answered by rings and by bounded queues.
* `Ring.Holds`: the ring that holds a bounded queue.
* `Ring.Between`: the slots of a circular range.
-/

namespace Chargeback

variable {α : Type}

/-! ## Queues with a limit -/

/-- A first-in first-out queue that holds at most `limit` items. -/
structure BoundedQueue (α : Type) where
  limit : Nat
  /-- The items, the oldest one first. -/
  items : List α := []
  /-- The number of items that have left the queue. -/
  gone : Nat := 0
  /-- The number of items that were rejected. -/
  dropped : Nat := 0

namespace BoundedQueue

/-- Append an item, or count it as dropped when the limit is reached. -/
def put (q : BoundedQueue α) (a : α) : Bool × BoundedQueue α :=
  if q.items.length < q.limit then (true, { q with items := q.items ++ [a] })
  else (false, { q with dropped := q.dropped + 1 })

/-- Drop up to `n` of the first items, and tell how many there were. -/
def removeN (q : BoundedQueue α) (n : Nat) : Nat × BoundedQueue α :=
  let removed := min n q.items.length
  (removed, { q with items := q.items.drop removed, gone := q.gone + removed })

/-- Take the first item out. -/
def get (q : BoundedQueue α) : Option α × BoundedQueue α :=
  (q.items.head?, (q.removeN 1).2)

variable {q : BoundedQueue α} {a : α} {rest : List α}

theorem removeN_of_nil (h : q.items = []) (n : Nat) : q.removeN n = (0, q) := by
  cases q
  subst h
  simp [removeN]

theorem removeN_of_cons (h : q.items = a :: rest) (n : Nat) :
    q.removeN (n + 1) =
      (({ q with items := rest, gone := q.gone + 1 }.removeN n).1 + 1,
        ({ q with items := rest, gone := q.gone + 1 }.removeN n).2) := by
  simp [removeN, h, Nat.succ_min_succ, Nat.add_assoc, Nat.add_comm 1]

theorem get_of_nil (h : q.items = []) : q.get = (none, q) := by
  rw [get, removeN_of_nil h, h, List.head?_nil]

theorem get_of_cons (h : q.items = a :: rest) :
    q.get = (some a, { q with items := rest, gone := q.gone + 1 }) := by
  rw [get, removeN_of_cons h, h, List.head?_cons]
  simp [removeN]

/-- The first `n` items, or all if there are fewer. -/
def readN (q : BoundedQueue α) (n : Nat) : List α := q.items.take (min n q.items.length)

theorem put_items (q : BoundedQueue α) (a : α) :
    (q.put a).2.items = q.items ++ if (q.put a).1 then [a] else [] := by
  rw [put]
  split
  · rfl
  · exact (List.append_nil _).symm

theorem put_dropped (q : BoundedQueue α) (a : α) :
    (q.put a).2.dropped = q.dropped + if (q.put a).1 then 0 else 1 := by
  rw [put]
  split
  · rfl
  · rfl

/-- What is read of a queue does not change when an item is put behind it. -/
theorem readN_put {n : Nat} (hn : n ≤ q.items.length) (a : α) :
    (q.put a).2.readN n = q.readN n := by
  have hle : n ≤ (q.put a).2.items.length := by
    rw [put_items, List.length_append]
    exact Nat.le_add_right_of_le hn
  rw [readN, readN, Nat.min_eq_left hle, Nat.min_eq_left hn, put_items,
    List.take_append_of_le_length hn]

/-- What the positions of a ring are when its slots hold the queue. -/
def stats (q : BoundedQueue α) : Ring.Stats where
  len := q.items.length
  capacity := q.limit + 1
  start := q.gone % (q.limit + 1)
  stop := (q.gone + q.items.length) % (q.limit + 1)
  dropped := q.dropped

end BoundedQueue

/-! ## Calls -/

/-- A call of a buffer. -/
inductive BufferCall (α : Type) where
  | put (a : α)
  | get
  | readN (n : Nat)
  | removeN (n : Nat)
  | len
  | isEmpty
  | stats
  | dropped

/-- The interface of buffers. Nothing in a call tells who makes it. -/
abbrev BufferInterface (α : Type) : Interface where
  Request := BufferCall α
  Answer
    | .put _ => Bool
    | .get => Option α
    | .readN _ => List α
    | .removeN _ => Nat
    | .len => Nat
    | .isEmpty => Bool
    | .stats => Ring.Stats
    | .dropped => Nat

/-- The answer of a ring to a call, with the ring after it. -/
def Ring.answer : (c : BufferCall α) → Ring α → (BufferInterface α).Answer c × Ring α
  | .put a, r => r.put a
  | .get, r => r.get
  | .readN n, r => (r.readN n, r)
  | .removeN n, r => r.removeN n
  | .len, r => (r.len, r)
  | .isEmpty, r => (r.isEmpty, r)
  | .stats, r => (r.stats, r)
  | .dropped, r => (r.dropped, r)

/-- The answer of a bounded queue to a call, with the queue after it. -/
def BoundedQueue.answer :
    (c : BufferCall α) → BoundedQueue α → (BufferInterface α).Answer c × BoundedQueue α
  | .put a, q => q.put a
  | .get, q => q.get
  | .readN n, q => (q.readN n, q)
  | .removeN n, q => q.removeN n
  | .len, q => (q.items.length, q)
  | .isEmpty, q => (q.items.isEmpty, q)
  | .stats, q => (q.stats, q)
  | .dropped, q => (q.dropped, q)

namespace Ring

/-! ## Positions around a ring -/

/-- The position lies in the circular range from `start` up to, and without, `stop`. -/
def Between (start stop i : Nat) : Prop :=
  if start ≤ stop then start ≤ i ∧ i < stop else start ≤ i ∨ i < stop

instance (start stop i : Nat) : Decidable (Between start stop i) := by
  unfold Between; infer_instance

theorem add_mod_of_lt {a b c : Nat} (ha : a < c) (hb : b ≤ c) :
    (a + b) % c = if a + b < c then a + b else a + b - c := by
  split
  next h => exact Nat.mod_eq_of_lt h
  next h => rw [Nat.mod_eq_sub_mod (by omega), Nat.mod_eq_of_lt (by omega)]

/-- Going on from one position by less than a round leads to different positions. -/
theorem add_mod_inj {a k n c : Nat} (ha : a < c) (hk : k < c) (hn : n < c) :
    (a + k) % c = (a + n) % c ↔ k = n := by
  rw [add_mod_of_lt ha hk.le, add_mod_of_lt ha hn.le]
  constructor
  · intro h; split at h <;> split at h <;> omega
  · intro h; rw [h]

/-- A position is in the range exactly when it comes less than `n` behind its start. -/
theorem between_iff {a n k c : Nat} (ha : a < c) (hn : n < c) (hk : k < c) :
    Between a ((a + n) % c) ((a + k) % c) ↔ k < n := by
  rw [add_mod_of_lt ha hn.le, add_mod_of_lt ha hk.le, Between]
  split <;> split <;> split <;> omega

/-! ## Slots -/

@[simp] theorem slot?_setIfInBounds (r : Ring α) (i j start stop dropped : Nat) (v : Option α) :
    slot? ⟨r.slots.setIfInBounds i v, start, stop, dropped⟩ j =
      if i = j ∧ j < r.capacity then v else r.slot? j := by
  simp only [slot?, capacity, Array.getElem?_setIfInBounds]
  by_cases hij : i = j
  · subst hij
    by_cases hi : i < r.slots.size <;> simp [hi]
  · simp [hij]

/-- The ring that has taken an item into the slot at the next free position. -/
def stored (r : Ring α) (a : α) : Ring α :=
  ⟨r.slots.setIfInBounds r.stop (some a), r.start, r.next r.stop, r.dropped⟩

/-- The slots of a ring hold the items of a queue, one after another from the start,
and nothing else. -/
structure Holds (r : Ring α) (q : BoundedQueue α) : Prop where
  capacity_eq : r.capacity = q.limit + 1
  length_le : q.items.length ≤ q.limit
  start_eq : r.start = q.gone % r.capacity
  stop_eq : r.stop = (r.start + q.items.length) % r.capacity
  slot_eq : ∀ k, k < r.capacity → r.slot? ((r.start + k) % r.capacity) = q.items[k]?
  dropped_eq : r.dropped = q.dropped

namespace Holds

variable {r : Ring α} {q : BoundedQueue α}

theorem capacity_pos (H : Holds r q) : 0 < r.capacity := by
  have := H.capacity_eq
  omega

theorem length_lt (H : Holds r q) : q.items.length < r.capacity := by
  have := H.capacity_eq
  have := H.length_le
  omega

theorem start_lt (H : Holds r q) : r.start < r.capacity := by
  rw [H.start_eq]; exact Nat.mod_lt _ H.capacity_pos

theorem stop_lt (H : Holds r q) : r.stop < r.capacity := by
  rw [H.stop_eq]; exact Nat.mod_lt _ H.capacity_pos

theorem len_eq (H : Holds r q) : r.len = q.items.length := by
  have hs := H.start_lt
  have hn := H.length_lt
  rw [len, H.stop_eq, add_mod_of_lt hs hn.le]
  split
  · have h : r.start + q.items.length + r.capacity - r.start = q.items.length + r.capacity := by
      omega
    rw [h, Nat.add_mod_right, Nat.mod_eq_of_lt hn]
  · have h : r.start + q.items.length - r.capacity + r.capacity - r.start = q.items.length := by
      omega
    rw [h, Nat.mod_eq_of_lt hn]

/-- The number of items is the difference of the positions around the ring. -/
theorem len_eq_sub (H : Holds r q) :
    (r.len : Int) = ((r.stop : Int) - r.start) % r.capacity := by
  have hs := H.start_lt
  have h : ((r.stop + r.capacity - r.start : Nat) : Int) = r.stop - r.start + r.capacity := by
    omega
  rw [len, Int.natCast_emod, h, Int.add_emod_right]

theorem isEmpty_eq (H : Holds r q) : r.isEmpty = q.items.isEmpty := by
  have h := add_mod_inj H.start_lt H.capacity_pos H.length_lt
  rw [Nat.add_zero, Nat.mod_eq_of_lt H.start_lt, ← H.stop_eq] at h
  rw [isEmpty, Bool.eq_iff_iff, decide_eq_true_iff, h, eq_comm, List.length_eq_zero_iff,
    List.isEmpty_iff]

theorem next_stop (H : Holds r q) :
    r.next r.stop = (r.start + (q.items.length + 1)) % r.capacity := by
  rw [next, H.stop_eq, Nat.mod_add_mod, Nat.add_assoc]

/-- The next free position is the start only when the limit is reached. -/
theorem isFull_iff (H : Holds r q) : r.isFull = true ↔ q.items.length = q.limit := by
  have hs := H.start_lt
  have hc := H.capacity_eq
  have hn := H.length_le
  rw [isFull, decide_eq_true_iff, H.next_stop, add_mod_of_lt hs (by omega)]
  split <;> omega

/-- Reading takes the items one after another and meets no empty slot. -/
theorem readN_eq (H : Holds r q) (n : Nat) : r.readN n = q.readN n := by
  have hn := H.length_lt
  rw [readN, BoundedQueue.readN, H.len_eq]
  have hm : min n q.items.length ≤ q.items.length := Nat.min_le_right _ _
  generalize min n q.items.length = m at hm ⊢
  induction m with
  | zero => simp
  | succ m ih =>
    rw [List.range_succ, List.filterMap_append, ih (by omega), List.take_add_one]
    simp [H.slot_eq m (by omega), List.getElem?_eq_getElem (show m < q.items.length by omega)]

theorem toList_eq (H : Holds r q) : r.toList = q.items := by
  rw [toList, H.readN_eq, BoundedQueue.readN, H.len_eq, Nat.min_self, List.take_length]

theorem stats_eq (H : Holds r q) : r.stats = q.stats := by
  simp only [Ring.stats, BoundedQueue.stats, H.len_eq, H.dropped_eq, H.stop_eq, H.start_eq,
    H.capacity_eq, Nat.mod_add_mod]

/-- A slot is occupied exactly when its position lies in the circular range. -/
theorem isSome_slot?_iff (H : Holds r q) {i : Nat} (hi : i < r.capacity) :
    (r.slot? i).isSome ↔ Between r.start r.stop i := by
  obtain ⟨k, hk, rfl⟩ : ∃ k, k < r.capacity ∧ (r.start + k) % r.capacity = i := by
    have hs := H.start_lt
    refine ⟨(i + (r.capacity - r.start)) % r.capacity, Nat.mod_lt _ H.capacity_pos, ?_⟩
    have h : r.start + (i + (r.capacity - r.start)) = i + r.capacity := by omega
    rw [Nat.add_mod_mod, h, Nat.add_mod_right, Nat.mod_eq_of_lt hi]
  rw [H.slot_eq k hk, H.stop_eq, between_iff H.start_lt H.length_lt hk]
  simp

/-! ## Updates -/

/-- An item goes into a slot that holds no other one: there are fewer items than slots. -/
theorem stored (H : Holds r q) (a : α) (hn : q.items.length < q.limit) :
    Holds (r.stored a) { q with items := q.items ++ [a] } := by
  have hc := H.capacity_eq
  have hcap : (r.stored a).capacity = r.capacity := by simp [Ring.stored, capacity]
  have hstart : (r.stored a).start = r.start := rfl
  have hstop : (r.stored a).stop = (r.start + (q.items.length + 1)) % r.capacity := H.next_stop
  refine ⟨hcap ▸ H.capacity_eq, ?_, hcap ▸ H.start_eq, ?_, ?_, H.dropped_eq⟩
  · simp only [List.length_append, List.length_singleton]; omega
  · rw [hcap, hstop, hstart, List.length_append, List.length_singleton]
  · intro k hk
    rw [hcap] at hk ⊢
    have hlt : (r.start + k) % r.capacity < r.capacity := Nat.mod_lt _ H.capacity_pos
    rw [hstart, Ring.stored, slot?_setIfInBounds, H.slot_eq k hk, List.getElem?_append]
    have hat : r.stop = (r.start + k) % r.capacity ↔ q.items.length = k := by
      rw [H.stop_eq, add_mod_inj H.start_lt H.length_lt hk]
    rcases Nat.lt_trichotomy k q.items.length with h | rfl | h
    · rw [if_neg (by rw [hat]; omega), if_pos h]
    · rw [if_pos ⟨hat.mpr rfl, hlt⟩]; simp
    · rw [if_neg (by rw [hat]; omega), if_neg (by omega), List.getElem?_eq_none (by omega),
        List.getElem?_eq_none (by simp only [List.length_singleton]; omega)]

theorem put (H : Holds r q) (a : α) :
    (r.put a).1 = (q.put a).1 ∧ Holds (r.put a).2 (q.put a).2 := by
  have hle := H.length_le
  rw [Ring.put, BoundedQueue.put]
  by_cases hf : r.isFull
  · have hn : ¬q.items.length < q.limit := by rw [H.isFull_iff.mp hf]; omega
    rw [if_pos hf, if_neg hn]
    exact ⟨rfl, H.capacity_eq, H.length_le, H.start_eq, H.stop_eq, H.slot_eq,
      congrArg (· + 1) H.dropped_eq⟩
  · have hn : q.items.length < q.limit := by
      have hne : q.items.length ≠ q.limit := fun h => hf (H.isFull_iff.mpr h)
      omega
    rw [if_neg hf, if_pos hn]
    exact ⟨rfl, H.stored a hn⟩

/-- The slot of the oldest item is emptied, and every other item is one place nearer
to the start. -/
theorem advance (H : Holds r q) {a : α} {rest : List α} (hq : q.items = a :: rest) :
    Holds r.advance { q with items := rest, gone := q.gone + 1 } := by
  have hlen := H.length_lt
  have hle := H.length_le
  rw [hq, List.length_cons] at hlen hle
  have hcap : r.advance.capacity = r.capacity := by simp [Ring.advance, capacity]
  have hstart : r.advance.start = (r.start + 1) % r.capacity := rfl
  refine ⟨hcap ▸ H.capacity_eq, by simp only; omega, ?_, ?_, ?_, H.dropped_eq⟩
  · rw [hcap, hstart, H.start_eq, Nat.mod_add_mod]
  · rw [hcap, hstart, Nat.mod_add_mod]
    change r.stop = _
    rw [H.stop_eq, hq, List.length_cons, Nat.add_right_comm, Nat.add_assoc]
  · intro k hk
    rw [hcap] at hk ⊢
    rw [hstart, Nat.mod_add_mod, Nat.add_assoc, Nat.add_comm 1 k, Ring.advance,
      slot?_setIfInBounds]
    have hlt : (r.start + (k + 1)) % r.capacity < r.capacity := Nat.mod_lt _ H.capacity_pos
    by_cases hlast : k + 1 < r.capacity
    · have hne : r.start ≠ (r.start + (k + 1)) % r.capacity := by
        have h := add_mod_inj H.start_lt H.capacity_pos hlast
        rw [Nat.add_zero, Nat.mod_eq_of_lt H.start_lt] at h
        rw [Ne, h]; omega
      rw [if_neg (fun h => hne h.1), H.slot_eq (k + 1) hlast, hq, List.getElem?_cons_succ]
    · -- The place behind the last one is the slot that has just been emptied.
      have hround : (r.start + (k + 1)) % r.capacity = r.start := by
        have h : k + 1 = r.capacity := by omega
        rw [h, Nat.add_mod_right, Nat.mod_eq_of_lt H.start_lt]
      rw [if_pos ⟨hround.symm, hlt⟩, List.getElem?_eq_none (show rest.length ≤ k by omega)]

theorem removeN (H : Holds r q) (n : Nat) :
    (r.removeN n).1 = (q.removeN n).1 ∧ Holds (r.removeN n).2 (q.removeN n).2 := by
  induction n generalizing r q with
  | zero => simpa [Ring.removeN, BoundedQueue.removeN] using H
  | succ n ih =>
    cases hq : q.items with
    | nil =>
      have hempty : r.isEmpty = true := by rw [H.isEmpty_eq, hq]; rfl
      rw [Ring.removeN, if_pos hempty, BoundedQueue.removeN_of_nil hq]
      exact ⟨rfl, H⟩
    | cons a rest =>
      have hempty : ¬r.isEmpty = true := by rw [H.isEmpty_eq, hq]; simp
      obtain ⟨hcount, hrest⟩ := ih (H.advance hq)
      rw [Ring.removeN, if_neg hempty, BoundedQueue.removeN_of_cons hq]
      exact ⟨by rw [← hcount], hrest⟩

theorem get (H : Holds r q) :
    r.get.1 = q.get.1 ∧ Holds r.get.2 q.get.2 := by
  cases hq : q.items with
  | nil =>
    have hempty : r.isEmpty = true := by rw [H.isEmpty_eq, hq]; rfl
    rw [Ring.get, if_pos hempty, BoundedQueue.get_of_nil hq]
    exact ⟨rfl, H⟩
  | cons a rest =>
    have hempty : ¬r.isEmpty = true := by rw [H.isEmpty_eq, hq]; simp
    have hslot : r.slot? r.start = some a := by
      have h := H.slot_eq 0 H.capacity_pos
      rwa [Nat.add_zero, Nat.mod_eq_of_lt H.start_lt, hq] at h
    rw [Ring.get, if_neg hempty, hslot, BoundedQueue.get_of_cons hq]
    exact ⟨rfl, H.advance hq⟩

/-- A ring and the queue that it holds answer every call alike, and the ring then
holds the queue that the call leaves. -/
theorem answer (H : Holds r q) (c : BufferCall α) :
    (Ring.answer c r).1 = (BoundedQueue.answer c q).1 ∧
      Holds (Ring.answer c r).2 (BoundedQueue.answer c q).2 := by
  cases c with
  | put a => exact H.put a
  | get => exact H.get
  | readN n => exact ⟨H.readN_eq n, H⟩
  | removeN n => exact H.removeN n
  | len => exact ⟨H.len_eq, H⟩
  | isEmpty => exact ⟨H.isEmpty_eq, H⟩
  | stats => exact ⟨H.stats_eq, H⟩
  | dropped => exact ⟨H.dropped_eq, H⟩

end Holds

/-! ## All runs -/

theorem holds_new (capacity : Nat) :
    Holds (new capacity : Ring α) { limit := max capacity 2 - 1 } := by
  have hcap : (new capacity : Ring α).capacity = max capacity 2 := by
    simp [new, Ring.capacity]
  refine ⟨by rw [hcap]; simp only; omega, Nat.zero_le _, (Nat.zero_mod _).symm, ?_, ?_, rfl⟩
  · exact (Nat.zero_mod _).symm
  · intro k hk
    rw [List.getElem?_nil, slot?, new, Array.getElem?_replicate]
    split <;> rfl

/-- A new ring answers every list of calls as an empty queue with one place less than
the ring has slots. Whatever the calls were, the ring then holds the items of the
queue in order, both positions are below the capacity, a slot is occupied exactly
when it lies in the circular range between them, and the number of items is their
difference around the ring. -/
theorem serve_new (capacity : Nat) (calls : List (BufferCall α)) :
    let ring := (BufferInterface α).serve Ring.answer calls (new capacity)
    let queue := (BufferInterface α).serve BoundedQueue.answer calls
      { limit := max capacity 2 - 1 }
    ring.1 = queue.1 ∧ ring.2.toList = queue.2.items ∧ queue.2.items.length ≤ queue.2.limit ∧
      ring.2.start < ring.2.capacity ∧ ring.2.stop < ring.2.capacity ∧
      (∀ i < ring.2.capacity, (ring.2.slot? i).isSome ↔ Between ring.2.start ring.2.stop i) ∧
      (ring.2.len : Int) = ((ring.2.stop : Int) - ring.2.start) % ring.2.capacity := by
  intro ring queue
  obtain ⟨hanswers, H⟩ :=
    Interface.serve_simulates (I := BufferInterface α) (R := Holds)
      (fun c _ _ H => H.answer c) calls (holds_new capacity)
  refine ⟨hanswers, H.toList_eq, H.length_le, H.start_lt, H.stop_lt,
    fun i hi => H.isSome_slot?_iff hi, ?_⟩
  exact H.len_eq_sub

end Ring

end Chargeback
