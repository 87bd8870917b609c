import Chargeback.Proofs.Group.Change
import Chargeback.Proofs.Time.Month

/-!
# The window of a member

What becomes of the window of one member while the record of its group is changed again
and again. Changes of the member itself open its window and close it. Changes of others do
not touch it as long as it is open; but every change forgets the windows that ended before
its month. So others can make a difference in one case only: when the member comes back
after the month in which it left has passed. Then an upsert finds the old window and keeps
its start if it is the first change of the group in its month, and else it finds none.

## Main definitions

* `TimedChange`: a change of a membership, and the time at which it was made.
* `Activity.afterAll`: the window of a member after a history of changes.
* `TimedChange.ReopensInTime`: no upsert finds a window from a month that has passed.
* `Activity.agree_alone`: what others can have done to the window of a member.
-/

namespace Chargeback

/-- A change of a membership, and what the clock showed when it was made. -/
structure TimedChange where
  time : Instant
  change : GroupChange

namespace GroupChange

/-- The key of the member. -/
def key : GroupChange → String
  | upsert _ _ key _ => key
  | remove _ key _ => key

/-- The change is an upsert. -/
def isUpsert : GroupChange → Bool
  | upsert .. => true
  | remove .. => false

/-- What becomes of the window of the member. -/
def onWindow : GroupChange → Option Activity → Option Activity
  | upsert _ _ _ usage, w => some (.upsert usage w)
  | remove _ _ ended, w => w.map (.close ended)

/-- A change touches no window but that of its member. -/
theorem get?_windows_apply (c : GroupChange) (s : GroupSpec) (key : String) :
    (c.apply s).windows.get? key =
      if c.key = key then c.onWindow (s.windows.get? key) else s.windows.get? key := by
  by_cases hkey : c.key = key
  · subst hkey
    rw [if_pos rfl]
    cases c with
    | upsert name type key usage => exact KeyMap.get?_insert_self ..
    | remove name key ended => exact (KeyMap.get?_alter ..).trans (if_pos rfl)
  · rw [if_neg hkey]
    cases c with
    | upsert name type k usage => exact (KeyMap.get?_insert ..).trans (if_neg hkey)
    | remove name k ended => exact (KeyMap.get?_alter ..).trans (if_neg hkey)

end GroupChange

namespace TimedChange

/-- The first instant of the month in which the change was made. -/
def month (c : TimedChange) : Instant := Month.start c.time

/-- The change is one of a given member. -/
def concerns (name key : String) (c : TimedChange) : Bool :=
  c.change.name = name && c.change.key = key

/-- The changes of a given member, in their order. -/
def own (name key : String) (cs : List TimedChange) : List TimedChange :=
  cs.filter (concerns name key)

/-- The times do not decrease. -/
def Ordered (cs : List TimedChange) : Prop := cs.Pairwise fun c c' => c.time ≤ c'.time

instance (cs : List TimedChange) : Decidable (Ordered cs) :=
  inferInstanceAs (Decidable (cs.Pairwise _))

end TimedChange

namespace Activity

/-- What becomes of the window of a member when a change is written. -/
def after (name key : String) (w : Option Activity) (c : TimedChange) : Option Activity :=
  if c.change.name = name then
    (if c.change.key = key then c.change.onWindow w else w).filter (reaches c.month)
  else w

/-- The window of a member after a history of changes. -/
def afterAll (name key : String) (w : Option Activity) (cs : List TimedChange) : Option Activity :=
  cs.foldl (after name key) w

variable {name key : String} {w : Option Activity} {a : Activity} {c : TimedChange}
  {cs : List TimedChange}

theorem afterAll_append (name key : String) (w : Option Activity) (cs cs' : List TimedChange) :
    afterAll name key w (cs ++ cs') = afterAll name key (afterAll name key w cs) cs' :=
  List.foldl_append

/-- What has ended before a month has ended before all later ones. -/
theorem reaches_of_le {cutoff cutoff' : Instant} (h : cutoff ≤ cutoff') (hreach : a.reaches cutoff') :
    a.reaches cutoff := by
  unfold reaches at hreach ⊢
  split at hreach
  next e => exact decide_eq_true (Instant.le_trans h (of_decide_eq_true hreach))
  next => rfl

/-- A change of another group. -/
theorem after_of_name_ne (h : c.change.name ≠ name) : after name key w c = w := if_neg h

/-- A change of another member of the group. -/
theorem after_of_key_ne (hname : c.change.name = name) (h : c.change.key ≠ key) :
    after name key w c = w.filter (reaches c.month) := by
  rw [after, if_pos hname, if_neg h]

theorem after_own (hname : c.change.name = name) (hkey : c.change.key = key) :
    after name key w c = (c.change.onWindow w).filter (reaches c.month) := by
  rw [after, if_pos hname, if_pos hkey]

/-- An upsert opens the window, and keeps the start of the one that it finds. -/
theorem after_upsert {time : Instant} {type : GroupType} {usage : MemberUsage} :
    after name key w ⟨time, .upsert name type key usage⟩ = some (.upsert usage w) := by
  refine (after_own (c := ⟨time, .upsert name type key usage⟩) rfl rfl).trans ?_
  cases w <;> rfl

theorem afterAll_upsert {time : Instant} {type : GroupType} {usage : MemberUsage} :
    afterAll name key w (cs ++ [⟨time, .upsert name type key usage⟩]) =
      some (.upsert usage (afterAll name key w cs)) := by
  rw [afterAll_append]
  exact after_upsert

/-! ## A member by itself -/

/-- What others can have done to the window of a member, compared with a history of its own
changes alone: nothing; or they have made the group forget it, after the month in which it
ended has passed. -/
def Agree (cutoff : Instant) (w alone : Option Activity) : Prop :=
  w = alone ∨ w = none ∧ ∃ a, alone = some a ∧ a.reaches cutoff = false

theorem Agree.later {cutoff cutoff' : Instant} {alone : Option Activity}
    (h : Agree cutoff w alone) (hle : cutoff ≤ cutoff') : Agree cutoff' w alone := by
  rcases h with h | ⟨hw, a, halone, hreach⟩
  · exact .inl h
  · refine .inr ⟨hw, a, halone, ?_⟩
    cases hlater : a.reaches cutoff' with
    | false => rfl
    | true => rw [reaches_of_le hle hlater] at hreach; cases hreach

/-- A change of another member forgets the window only after its month. -/
theorem Agree.forget {cutoff : Instant} {alone : Option Activity} (h : Agree cutoff w alone) :
    Agree cutoff (w.filter (reaches cutoff)) alone := by
  rcases h with rfl | ⟨rfl, h⟩
  · cases w with
    | none => exact .inl rfl
    | some a =>
      cases hreach : a.reaches cutoff with
      | true => exact .inl (by rw [Option.filter_some, if_pos hreach])
      | false =>
        refine .inr ⟨?_, a, rfl, hreach⟩
        rw [Option.filter_some, hreach]
        rfl
  · exact .inr ⟨rfl, h⟩

/-- A change of the member itself brings both windows together again, if it does not reopen
one from a month that has passed. -/
theorem Agree.together {alone : Option Activity} (h : Agree c.month w alone)
    (hname : c.change.name = name) (hkey : c.change.key = key)
    (hintime : c.change.isUpsert → alone.all (reaches c.month)) :
    after name key w c = after name key alone c := by
  rcases h with rfl | ⟨rfl, a, rfl, hreach⟩
  · rfl
  · rw [after_own hname hkey, after_own hname hkey]
    cases hchange : c.change with
    | upsert name' type key' usage =>
      have hreaches : a.reaches c.month := hintime (by rw [hchange]; rfl)
      rw [hreaches] at hreach
      cases hreach
    | remove name' key' ended =>
      obtain ⟨start, finish, metric, storageBytes⟩ := a
      cases finish with
      | none => cases hreach
      | some e =>
        simp only [GroupChange.onWindow, Option.map_some, Option.map_none, close,
          Option.getD_some, Option.filter_some]
        rw [if_neg (by simpa [reaches] using hreach)]
        rfl

end Activity

namespace TimedChange

variable {name key : String} {w : Option Activity} {c : TimedChange} {cs cs' : List TimedChange}

/-- In a history of its own changes alone, a member never comes back to a window that ended
before the month in which it comes back. -/
def ReopensInTime (name key : String) : Option Activity → List TimedChange → Prop
  | _, [] => True
  | w, c :: cs =>
    (c.change.isUpsert → w.all (Activity.reaches c.month)) ∧
      ReopensInTime name key (Activity.after name key w c) cs

instance decidableReopensInTime (name key : String) :
    (w : Option Activity) → (cs : List TimedChange) → Decidable (ReopensInTime name key w cs)
  | _, [] => .isTrue trivial
  | w, c :: cs =>
    have := decidableReopensInTime name key (Activity.after name key w c) cs
    inferInstanceAs (Decidable (_ ∧ _))

theorem reopensInTime_append :
    ReopensInTime name key w (cs ++ cs') ↔
      ReopensInTime name key w cs ∧ ReopensInTime name key (Activity.afterAll name key w cs) cs' := by
  induction cs generalizing w with
  | nil => exact (iff_of_eq (true_and _)).symm
  | cons c cs ih =>
    simp only [List.cons_append, ReopensInTime, ih, and_assoc]
    rfl

theorem own_cons_of_concerns (h : concerns name key c) :
    own name key (c :: cs) = c :: own name key cs :=
  List.filter_cons_of_pos h

theorem own_cons_of_not_concerns (h : ¬concerns name key c) :
    own name key (c :: cs) = own name key cs :=
  List.filter_cons_of_neg h

theorem concerns_iff : concerns name key c ↔ c.change.name = name ∧ c.change.key = key := by
  simp [concerns]

end TimedChange

namespace Activity

open TimedChange

variable {name key : String} {w alone : Option Activity} {c : TimedChange}
  {cs : List TimedChange} {begin now : Instant}

/-- By induction on the history: whatever others do, they do to the window of a member no
more than make the group forget it after its month. -/
theorem Agree.afterAll (h : Agree (Month.start begin) w alone) (hordered : Ordered cs)
    (hbegin : ∀ c ∈ cs, begin ≤ c.time) (hnow : ∀ c ∈ cs, c.time ≤ now) (hle : begin ≤ now)
    (hintime : ReopensInTime name key alone (own name key cs)) :
    Agree (Month.start now) (afterAll name key w cs) (afterAll name key alone (own name key cs)) := by
  induction cs generalizing w alone begin with
  | nil => exact h.later (Month.start_mono hle)
  | cons c cs ih =>
    have hc : Agree c.month w alone := h.later (Month.start_mono (hbegin c List.mem_cons_self))
    obtain ⟨hlater, hordered⟩ := List.pairwise_cons.mp hordered
    have hcnow := hnow c List.mem_cons_self
    have hnow := fun c' hc' => hnow c' (List.mem_cons_of_mem c hc')
    by_cases hconcerns : concerns name key c
    · obtain ⟨hname, hkey⟩ := concerns_iff.mp hconcerns
      rw [own_cons_of_concerns hconcerns] at hintime ⊢
      exact ih (.inl (hc.together hname hkey hintime.1)) hordered hlater hnow hcnow hintime.2
    · rw [own_cons_of_not_concerns hconcerns] at hintime ⊢
      refine ih ?_ hordered hlater hnow hcnow hintime
      by_cases hname : c.change.name = name
      · rw [after_of_key_ne hname fun hkey => hconcerns (concerns_iff.mpr ⟨hname, hkey⟩)]
        exact hc.forget
      · rw [after_of_name_ne hname]
        exact hc

theorem agree_alone (hordered : Ordered cs) (hnow : ∀ c ∈ cs, c.time ≤ now)
    (hintime : ReopensInTime name key w (own name key cs)) :
    Agree (Month.start now) (afterAll name key w cs) (afterAll name key w (own name key cs)) := by
  cases cs with
  | nil => exact .inl rfl
  | cons c cs =>
    have hfirst : ∀ c' ∈ c :: cs, c.time ≤ c'.time := by
      intro c' hc'
      rcases List.mem_cons.mp hc' with rfl | hc'
      · exact .inr ⟨rfl, Nat.le_refl _⟩
      · exact List.rel_of_pairwise_cons hordered hc'
    exact Agree.afterAll (.inl rfl) hordered hfirst hnow (hnow c List.mem_cons_self) hintime

/-- After a change of the member itself, its window is what it would be by its own changes
alone. -/
theorem afterAll_own (hc : concerns name key c) (hordered : Ordered (cs ++ [c]))
    (hintime : ReopensInTime name key w (own name key cs ++ [c])) :
    afterAll name key w (cs ++ [c]) = afterAll name key w (own name key cs ++ [c]) := by
  obtain ⟨hname, hkey⟩ := concerns_iff.mp hc
  obtain ⟨hordered, -, hlast⟩ := List.pairwise_append.mp hordered
  obtain ⟨hbefore, hlastInTime, -⟩ := reopensInTime_append.mp hintime
  have H := agree_alone hordered (fun c' hc' => hlast c' hc' c List.mem_cons_self) hbefore
  rw [afterAll_append, afterAll_append]
  exact H.together hname hkey hlastInTime

end Activity

end Chargeback
