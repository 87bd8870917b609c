import Chargeback.Proofs.Group.OwnHistory
import Chargeback.Proofs.Time.Lengths
import Mathlib.Algebra.GroupWithZero.Nat

/-!
# For which time a member is charged

A member comes and goes, and its record keeps one window for all its stays. When it comes back,
its window is reopened and begins where it has begun before. So a group is charged for the time
in which the member was there, and also for the time in which it was away, as far as its window
has not been forgotten; but for no time before it first came, or after it last left.

Lengths of time do not add up around leap seconds: such a second counts for an interval that
begins or ends in it, depending on the hours of the day. Each end of an interval that lies in
a leap second therefore leaves one second open.

## Main definitions

* `Stays`: when a member was in a group, as its history tells.
* `Stays.absences`: when it was away between two stays.
* `GroupSpec.charged_within_stays`: a member is charged for its stays and absences at most.
-/

namespace Chargeback

/-! ## Stays -/

/-- When a member was in a group: the stays that are over, from their beginnings to their ends,
and the beginning of the present one. -/
structure Stays where
  past : List (Instant × Instant) := []
  since : Option Instant := none

namespace Stays

/-- The stays after an edit of the record. A member that is there already stays, and one that
is away cannot leave. -/
def after (key : String) (v : Stays) : RecordEdit → Stays
  | .upsert k usage =>
    if k = key then { v with since := some (v.since.getD usage.started) } else v
  | .remove k ended =>
    if k = key then
      match v.since with
      | some begun => { past := v.past ++ [(begun, ended)] }
      | none => v
    else v
  | .prune _ => v

/-- The stays that a history tells of. -/
def ofHistory (key : String) (es : List RecordEdit) : Stays := es.foldl (after key) {}

/-- The stays as intervals, the present one until now. -/
def intervals (v : Stays) (now : Instant) : List (Instant × Instant) :=
  v.past ++ v.since.toList.map fun begun => (begun, now)

/-- From the end of each interval to the beginning of the next one. -/
def absences : List (Instant × Instant) → List (Instant × Instant)
  | (_, e) :: (b, e') :: rest => (e, b) :: absences ((b, e') :: rest)
  | _ => []

/-- The ends of intervals, in their order. -/
def ends (intervals : List (Instant × Instant)) : List Instant :=
  intervals.flatMap fun i => [i.1, i.2]

/-- How much of the intervals lies in the elapsed part of the month. -/
def nanosWithin (now : Instant) (intervals : List (Instant × Instant)) : Nat :=
  (intervals.map (Month.nanosWithin now)).sum

/-- How many seconds the ends of intervals leave open. -/
def openSeconds (intervals : List (Instant × Instant)) : Nat :=
  ((ends intervals).map Instant.openSeconds).sum

variable {now b e last : Instant} {i : Instant × Instant} {l rest : List (Instant × Instant)}

@[simp] theorem nanosWithin_nil (now : Instant) : nanosWithin now [] = 0 := rfl

@[simp] theorem nanosWithin_cons (now : Instant) (i : Instant × Instant)
    (l : List (Instant × Instant)) :
    nanosWithin now (i :: l) = Month.nanosWithin now i + nanosWithin now l := rfl

@[simp] theorem ends_cons (b e : Instant) (l : List (Instant × Instant)) :
    ends ((b, e) :: l) = b :: e :: ends l := rfl

@[simp] theorem openSeconds_cons (b e : Instant) (l : List (Instant × Instant)) :
    openSeconds ((b, e) :: l) = b.openSeconds + e.openSeconds + openSeconds l :=
  (Nat.add_assoc ..).symm

/-- The time from the beginning of the first interval to the end of the last one is made up of
the intervals and of what lies between them. -/
theorem span_le (horder : (ends ((b, e) :: rest) ++ [now]).Pairwise (· ≤ ·))
    (hlast : ((b, e) :: rest).getLast?.map Prod.snd = some last) :
    (Month.clipped now last).position - (Month.clipped now b).position +
        1000000000 * b.openSeconds ≤
      nanosWithin now ((b, e) :: rest) + nanosWithin now (absences ((b, e) :: rest)) +
        1000000000 * openSeconds ((b, e) :: rest) := by
  induction rest generalizing b e with
  | nil =>
    obtain rfl : e = last := by simpa using hlast
    obtain ⟨⟨hbe, -⟩, hnow⟩ : (b ≤ e ∧ b ≤ now) ∧ e ≤ now := by simpa [ends] using horder
    have hstay := Month.le_nanosWithin hbe hnow
    simp only [openSeconds_cons, nanosWithin_cons, absences, nanosWithin_nil]
    omega
  | cons i rest ih =>
    obtain ⟨c, d⟩ := i
    rw [ends_cons, List.cons_append, List.cons_append, List.pairwise_cons, List.pairwise_cons]
      at horder
    obtain ⟨hb, he, hrest⟩ := horder
    have hc : c ∈ ends ((c, d) :: rest) ++ [now] := by simp
    have hnow : now ∈ ends ((c, d) :: rest) ++ [now] := by simp
    have hlater : c ≤ now := hrest.rel_of_mem_append (by simp) (by simp)
    have hstay := Month.le_nanosWithin (hb e List.mem_cons_self) (he now hnow)
    have haway := Month.le_nanosWithin (he c hc) hlater
    have hspan := ih hrest (by simpa using hlast)
    rw [absences, nanosWithin_cons, nanosWithin_cons now (e, c), openSeconds_cons]
    rw [openSeconds_cons] at hspan ⊢
    omega

/-- Intervals that were over before the month do not count. -/
theorem nanosWithin_eq_zero (h : ∀ i ∈ l, i.2 ≤ Month.start now) : nanosWithin now l = 0 := by
  induction l with
  | nil => rfl
  | cons i l ih =>
    rw [List.forall_mem_cons] at h
    rw [nanosWithin_cons, Month.nanosWithin_of_le_start h.1, ih h.2]

theorem snd_mem_ends (h : (b, e) ∈ l) : e ∈ ends l :=
  List.mem_flatMap.mpr ⟨(b, e), h, by simp⟩

theorem nanosWithin_absences_le (now : Instant) (i : Instant × Instant)
    (l : List (Instant × Instant)) :
    nanosWithin now (absences l) ≤ nanosWithin now (absences (i :: l)) := by
  cases l with
  | nil => exact Nat.zero_le _
  | cons j l => exact Nat.le_add_left _ _

/-- The time from the beginning of any of the intervals to the end of the last one is no longer
than the intervals and what lies between them. -/
theorem nanosWithin_span_le (horder : (ends l ++ [now]).Pairwise (· ≤ ·))
    (hbegin : b ∈ l.map Prod.fst) (hlast : l.getLast?.map Prod.snd = some last) :
    Month.nanosWithin now (b, last) ≤
      nanosWithin now l + nanosWithin now (absences l) + 1000000000 * openSeconds l := by
  induction l with
  | nil => simp at hbegin
  | cons i rest ih =>
    obtain ⟨c, d⟩ := i
    rcases List.mem_cons.mp hbegin with rfl | hlater
    · have hspan := span_le horder hlast
      obtain ⟨⟨c', last'⟩, hget, hsnd⟩ := Option.map_eq_some_iff.mp hlast
      obtain rfl : last' = last := hsnd
      have hend := List.mem_of_getLast? hget
      have hnow : last' ≤ now := horder.rel_of_mem_append (snd_mem_ends hend) (List.mem_singleton_self now)
      have hbegun : b ≤ last' := by
        rw [ends_cons, List.cons_append, List.pairwise_cons] at horder
        refine horder.1 last' ?_
        rcases List.mem_cons.mp hend with hfirst | hrest
        · simp [(Prod.mk.inj hfirst).2]
        · simp [snd_mem_ends hrest]
      rcases Month.nanosWithin_le hbegun hnow with hnone | hle
      · omega
      · omega
    · obtain ⟨j, rest, rfl⟩ := List.exists_cons_of_ne_nil (l := rest) (by rintro rfl; simp at hlater)
      have hrest := ih (horder.sublist (by simp [ends])) hlater (by simpa using hlast)
      have haway := nanosWithin_absences_le now (c, d) (j :: rest)
      rw [nanosWithin_cons, openSeconds_cons]
      omega

/-! ## What a history tells of the window -/

/-- The beginnings of all stays. -/
def begins (v : Stays) : List Instant := v.past.map Prod.fst ++ v.since.toList

/-- When the member has left for the last time, if it is away. -/
def left (v : Stays) : Option Instant :=
  match v.since with
  | some _ => none
  | none => v.past.getLast?.map Prod.snd

/-- The window of a member that is there is open, and that of one that has left is closed. It
begins with one of the stays. -/
structure Accounts (v : Stays) (w : Option Activity) : Prop where
  kept : v.since.isSome → w.isSome
  start_mem : ∀ a, w = some a → a.start ∈ v.begins
  finish_eq : ∀ a, w = some a → a.finish = v.left

variable {key : String} {v : Stays} {w : Option Activity}

/-- A member that comes back has its window reopened, if it has one. -/
theorem Accounts.upsert (h : v.Accounts w) (usage : MemberUsage) :
    ({ v with since := some (v.since.getD usage.started) } : Stays).Accounts
      (some (.upsert usage w)) where
  kept _ := rfl
  start_mem := by
    rintro a ⟨⟩
    cases w with
    | none =>
      have hsince : v.since = none := by simpa using h.kept
      simp [hsince, begins, Activity.upsert]
    | some a₀ =>
      have hstart := h.start_mem a₀ rfl
      rw [begins, List.mem_append] at hstart ⊢
      refine hstart.imp_right fun hstart => ?_
      rw [Option.mem_toList] at hstart
      rw [Option.mem_toList, hstart]
      rfl
  finish_eq := by
    rintro a ⟨⟩
    exact Activity.upsert_finish usage w

/-- A member that leaves has its window closed. -/
theorem Accounts.leave {begun : Instant} (h : v.Accounts w) (hsince : v.since = some begun)
    (ended : Instant) :
    ({ past := v.past ++ [(begun, ended)] } : Stays).Accounts (w.map (.close ended)) where
  kept := nofun
  start_mem a ha := by
    obtain ⟨a₀, hw, rfl⟩ := Option.map_eq_some_iff.mp ha
    simpa [begins, hsince, Activity.close] using h.start_mem a₀ hw
  finish_eq a ha := by
    obtain ⟨a₀, hw, rfl⟩ := Option.map_eq_some_iff.mp ha
    have hopen : a₀.finish = none := by rw [h.finish_eq a₀ hw, left, hsince]
    simp [left, hopen]

/-- The window of a member that is away stays as it is when the member is taken out again. -/
theorem Accounts.map_close (h : v.Accounts w) (hsince : v.since = none) (ended : Instant) :
    w.map (.close ended) = w := by
  cases w with
  | none => rfl
  | some a =>
    have hpast : v.past ≠ [] := by
      rintro hnil
      simpa [begins, hsince, hnil] using h.start_mem a rfl
    have hclosed : a.finish.isSome := by simp [h.finish_eq a rfl, left, hsince, hpast]
    rw [Option.map_some, Activity.close_eq_self hclosed]

/-- A window that is open is not forgotten. -/
theorem Accounts.prune (h : v.Accounts w) (cutoff : Instant) :
    v.Accounts (w.filter (Activity.reaches cutoff)) where
  kept hsince := by
    obtain ⟨a, rfl⟩ := Option.isSome_iff_exists.mp (h.kept hsince)
    obtain ⟨begun, hbegun⟩ := Option.isSome_iff_exists.mp hsince
    have hopen : a.finish = none := by rw [h.finish_eq a rfl, left, hbegun]
    simp [Activity.reaches, hopen]
  start_mem a ha := h.start_mem a (Option.filter_eq_some_iff.mp ha).1
  finish_eq a ha := h.finish_eq a (Option.filter_eq_some_iff.mp ha).1

/-- One more edit, in each of the three ways. -/
theorem Accounts.after (h : v.Accounts w) (e : RecordEdit) :
    (v.after key e).Accounts (e.onWindow key w) := by
  cases e with
  | upsert k usage =>
    rw [Stays.after, RecordEdit.onWindow]
    split
    next => exact h.upsert usage
    next => exact h
  | remove k ended =>
    rw [Stays.after, RecordEdit.onWindow]
    split
    next =>
      cases hsince : v.since with
      | none =>
        rw [h.map_close hsince]
        exact h
      | some begun => exact h.leave hsince ended
    next => exact h
  | prune cutoff => exact h.prune cutoff

theorem ofHistory_append_singleton (key : String) (es : List RecordEdit) (e : RecordEdit) :
    ofHistory key (es ++ [e]) = (ofHistory key es).after key e := by
  simp [ofHistory]

/-- The stays account for the window of a member that had none at first. -/
theorem ofHistory_accounts {s : GroupSpec} (h : s.windows.get? key = none)
    (es : List RecordEdit) :
    (ofHistory key es).Accounts ((s.edited es).windows.get? key) := by
  induction es using List.reverseRecOn with
  | nil =>
    rw [GroupSpec.edited_nil, h]
    exact ⟨nofun, nofun, nofun⟩
  | append_singleton es e ih =>
    rw [ofHistory_append_singleton, GroupSpec.edited_append, GroupSpec.edited_cons,
      GroupSpec.edited_nil, RecordEdit.get?_windows_apply]
    exact ih.after e

end Stays

/-! ## Histories in order -/

namespace RecordEdit

/-- When a member comes or leaves by an edit, if it does. -/
def time? (key : String) : RecordEdit → Option Instant
  | upsert k usage => if k = key then some usage.started else none
  | remove k ended => if k = key then some ended else none
  | prune _ => none

/-- The times of a history at which a member comes or leaves. -/
def times (key : String) (es : List RecordEdit) : List Instant := es.filterMap (time? key)

end RecordEdit

namespace Stays

open RecordEdit

variable {key : String} {v : Stays} {es : List RecordEdit} {now : Instant}

/-- When the member has come and left, in this order. -/
def moves (v : Stays) : List Instant := ends v.past ++ v.since.toList

/-- An edit adds its time to those at which the member came and left, or it adds nothing. -/
theorem moves_after (key : String) (v : Stays) (e : RecordEdit) :
    (v.after key e).moves = v.moves ∨ (v.after key e).moves = v.moves ++ (e.time? key).toList := by
  cases e with
  | upsert k usage =>
    rw [after, time?]
    split
    next =>
      cases hsince : v.since with
      | none => exact .inr (by simp [moves, hsince])
      | some begun => exact .inl (by simp [moves, hsince])
    next => exact .inl rfl
  | remove k ended =>
    rw [after, time?]
    split
    next =>
      cases hsince : v.since with
      | none => exact .inl rfl
      | some begun => exact .inr (by simp [moves, hsince, ends])
    next => exact .inl rfl
  | prune cutoff => exact .inl rfl

/-- The beginnings and ends of the stays are among the times of the history. -/
theorem moves_ofHistory (key : String) (es : List RecordEdit) :
    (ofHistory key es).moves.Sublist (times key es) := by
  induction es using List.reverseRecOn with
  | nil => exact .slnil
  | append_singleton es e ih =>
    rw [ofHistory_append_singleton, times, List.filterMap_append]
    rcases moves_after key (ofHistory key es) e with hsame | hmore
    · rw [hsame]
      exact ih.trans (List.sublist_append_left _ _)
    · rw [hmore]
      refine ih.append ?_
      cases h : e.time? key <;> simp [h]

theorem ends_intervals (v : Stays) (now : Instant) :
    (ends (v.intervals now) ++ [now]).Sublist (v.moves ++ [now, now]) := by
  cases hsince : v.since with
  | none => simp [intervals, moves, hsince]
  | some begun => simp [intervals, moves, hsince, ends]

theorem intervals_inOrder (horder : (times key es ++ [now]).Pairwise (· ≤ ·)) :
    (ends ((ofHistory key es).intervals now) ++ [now]).Pairwise (· ≤ ·) := by
  have hmoves := horder.sublist ((moves_ofHistory key es).append_right [now])
  rw [List.pairwise_append] at hmoves
  obtain ⟨hmoves, -, hnow⟩ := hmoves
  refine List.Pairwise.sublist (ends_intervals _ now) (List.pairwise_append.mpr ⟨hmoves, ?_, ?_⟩)
  · simp [Instant.le_iff]
  · intro t ht t' ht'
    exact hnow t ht t' (by simpa using ht')

@[simp] theorem map_fst_intervals (v : Stays) (now : Instant) :
    (v.intervals now).map Prod.fst = v.begins := by
  cases hsince : v.since <;> simp [intervals, begins, hsince]

/-- The last stay ends when the member has left, or now. -/
theorem getLast?_intervals (v : Stays) (now : Instant) (h : v.begins ≠ []) :
    ((v.intervals now).getLast?.map Prod.snd) = some (v.left.getD now) := by
  cases hsince : v.since with
  | none =>
    have hpast : v.past ≠ [] := by simpa [begins, hsince] using h
    obtain ⟨last, hlast⟩ := Option.isSome_iff_exists.mp (List.getLast?_isSome.mpr hpast)
    simp [intervals, left, hsince, hlast]
  | some begun => simp [intervals, left, hsince]

/-- How much of the stays lies in the elapsed part of the month. -/
def present (v : Stays) (now : Instant) : Nat := nanosWithin now (v.intervals now)

/-- How much of the absences lies in the elapsed part of the month. -/
def away (v : Stays) (now : Instant) : Nat := nanosWithin now (absences (v.intervals now))

end Stays

namespace GroupSpec

open RecordEdit

variable {s : GroupSpec} {key : String} {es : List RecordEdit} {now : Instant}

/-- For how many seconds of the month a member is charged: those of its window. -/
def chargedSeconds (s : GroupSpec) (key : String) (now : Instant) : Int :=
  match s.windows.get? key with
  | some a => Month.activeSeconds a.start a.finish now
  | none => 0

/-- A member that was not known at first, and has come and left in the order of time, is not
charged for more than its stays and its absences between them, as far as they lie in the elapsed
part of the month. It is charged for its stays at most if all absences were over before. -/
theorem charged_within_stays (hs : s.windows.get? key = none)
    (horder : (times key es ++ [now]).Pairwise (· ≤ ·)) :
    let v := Stays.ofHistory key es
    let charged := 1000000000 * (s.edited es).chargedSeconds key now
    let slack := 1000000000 * Stays.openSeconds (v.intervals now)
    charged ≤ v.present now + v.away now + slack ∧
      ((∀ i ∈ Stays.absences (v.intervals now), i.2 ≤ Month.start now) →
        charged ≤ v.present now + slack) := by
  intro v charged slack
  have hcharged : charged ≤ v.present now + v.away now + slack := by
    have haccounts : v.Accounts _ := Stays.ofHistory_accounts hs es
    cases hw : (s.edited es).windows.get? key with
    | none =>
      have hnone : charged = 0 := by simp [charged, chargedSeconds, hw]
      omega
    | some a =>
      have hstart := haccounts.start_mem a hw
      have hcounted := Month.activeSeconds_le a.start a.finish now
      have hlast := v.getLast?_intervals now (List.ne_nil_of_mem hstart)
      have hspan := Stays.nanosWithin_span_le (Stays.intervals_inOrder horder)
        (v.map_fst_intervals now ▸ hstart) hlast
      have hwindow : charged = 1000000000 * Month.activeSeconds a.start a.finish now := by
        simp [charged, chargedSeconds, hw]
      rw [haccounts.finish_eq a hw] at hcounted hwindow
      change _ ≤ v.present now + v.away now + slack at hspan
      omega
  refine ⟨hcharged, fun hover => ?_⟩
  have hnone : v.away now = 0 := Stays.nanosWithin_eq_zero hover
  omega

/-- The start of a day of January. -/
def january (day : Nat) : Instant := Instant.ofDate { year := 2024, month := 1, day }

/-- A pod that is there on the first of January, and again from the tenth on. -/
def januaryHistory : List RecordEdit :=
  let usage (day : Nat) : MemberUsage :=
    { metric := { cpuRequest := 500 }, storageBytes := 0, started := january day }
  [.upsert "web-0" (usage 1), .remove "web-0" (january 2), .upsert "web-0" (usage 10)]

/-- On the eleventh it has been there for two days, and is charged for ten. -/
theorem january_charged_while_away :
    let s := GroupSpec.new "ns-shop" .byNamespace
    let v := Stays.ofHistory "web-0" januaryHistory
    (s.windows.get? "web-0" = none ∧
        (times "web-0" januaryHistory ++ [january 11]).Pairwise (· ≤ ·)) ∧
      v.intervals (january 11) = [(january 1, january 2), (january 10, january 11)] ∧
      v.present (january 11) = 2 * 86400 * 1000000000 ∧
      (s.edited januaryHistory).chargedSeconds "web-0" (january 11) = 10 * 86400 ∧
      ¬1000000000 * (s.edited januaryHistory).chargedSeconds "web-0" (january 11) ≤
        v.present (january 11) := by
  decide +kernel

theorem january_charged_within_stays :
    let s := GroupSpec.new "ns-shop" .byNamespace
    let v := Stays.ofHistory "web-0" januaryHistory
    (s.windows.get? "web-0" = none ∧
        (times "web-0" januaryHistory ++ [january 11]).Pairwise (· ≤ ·)) ∧
      1000000000 * (s.edited januaryHistory).chargedSeconds "web-0" (january 11) ≤
        v.present (january 11) + v.away (january 11) ∧
      v.away (january 11) = 8 * 86400 * 1000000000 := by
  have hs : (GroupSpec.new "ns-shop" .byNamespace).windows.get? "web-0" = none := rfl
  have horder : (times "web-0" januaryHistory ++ [january 11]).Pairwise (· ≤ ·) := by
    decide +kernel
  have hopen : Stays.openSeconds
      ((Stays.ofHistory "web-0" januaryHistory).intervals (january 11)) = 0 := by decide +kernel
  have hcharged := (charged_within_stays hs horder).1
  rw [hopen] at hcharged
  exact ⟨⟨hs, horder⟩, by simpa using hcharged, by decide +kernel⟩

end GroupSpec

end Chargeback
