import Chargeback.Proofs.Group.Windows
import Chargeback.Proofs.Pipeline.History

/-!
# Windows of members in a pipeline

Changes of groups are made one after the other, while others set the clock and order
failures of the store between them. What the window of a member is then depends on the
changes of its own group only. After an upsert of the member its window is open, and has
the metric and the storage of this upsert, whatever others have done. Its start does not
depend on others either, as long as the member never comes back in a later month than that
in which it left. When it does, others decide about it: a change is written without the
windows that ended before its month, but an upsert is applied before these are forgotten.
So the old window is reopened, unless the group has been changed in the new month before.

## Main definitions

* `Pipeline.window?`: the window of a member.
* `Pipeline.Changed`: the pipelines after a history of changes that succeeded.
* `Pipeline.window_independent_of_others`: two histories with the same changes of a member.
-/

namespace Chargeback

namespace Pipeline

open TimedChange
open GroupSpec (basis)

variable {p p' p₀ : Pipeline} {name key : String} {cs cs' : List TimedChange} {c : TimedChange}
  {a : Activity}

/-- The window of a member of a group. -/
def window? (p : Pipeline) (name key : String) : Option Activity :=
  (p.spec? name).bind fun s => s.windows.get? key

/-- The record that a change starts from has the windows of the stored one. -/
theorem window?_of_basis {createAs : Option GroupType} {s : GroupSpec}
    (h : basis name createAs (p.spec? name) = some s) : p.window? name key = s.windows.get? key := by
  rw [window?]
  cases hs : p.spec? name with
  | some s₀ =>
    rw [hs] at h
    cases h
    rfl
  | none =>
    rw [hs] at h
    obtain ⟨type, -, rfl⟩ := Option.map_eq_some_iff.mp h
    rfl

/-- A change without a record to start from is the removal from a missing group. -/
theorem missing_of_basis {c : GroupChange} (h : basis c.name c.createAs (p.spec? c.name) = none) :
    p.spec? c.name = none ∧ c.onWindow none = none := by
  cases hs : p.spec? c.name with
  | some s => rw [basis, hs] at h; cases h
  | none =>
    refine ⟨rfl, ?_⟩
    rw [basis, hs] at h
    cases c with
    | upsert name type k usage => cases h
    | remove name k ended => rfl

/-- What a change that succeeds makes of a window. -/
theorem Rewritten.window?_eq {c : GroupChange} (R : Rewritten c.name c.createAs c.apply p p') :
    p'.window? name key = Activity.after name key (p.window? name key) ⟨p.now, c⟩ := by
  by_cases hname : c.name = name
  · subst hname
    rw [window?, R.spec?_eq, Activity.after, if_pos rfl]
    cases hbasis : basis c.name c.createAs (p.spec? c.name) with
    | some s =>
      rw [window?_of_basis hbasis, ← c.get?_windows_apply]
      exact KeyMap.get?_filter ..
    | none =>
      obtain ⟨hmissing, hremoves⟩ := missing_of_basis hbasis
      simp only [window?, hmissing, hremoves, Option.bind_none, ite_self, Option.map_none,
        Option.filter_none]
  · rw [Activity.after_of_name_ne hname, window?, window?, spec?_congr (R.others name (Ne.symm hname))]

/-- The pipelines after a history of changes, each of which succeeded. -/
inductive Changed (p₀ : Pipeline) : List TimedChange → Pipeline → Prop where
  | start : Changed p₀ [] p₀
  | between {cs : List TimedChange} {p p' : Pipeline} (h : Changed p₀ cs p) (hb : Between p p') :
    Changed p₀ cs p'
  | change {cs : List TimedChange} {p : Pipeline} (h : Changed p₀ cs p) (retry : RetryPolicy)
    (c : GroupChange) (hok : (p.onGroups (c.program retry)).1.isOk) :
    Changed p₀ (cs ++ [⟨p.now, c⟩]) (p.onGroups (c.program retry)).2

theorem Changed.orderly (h : Changed p₀ cs p) (hstart : Orderly p₀) : Orderly p := by
  induction h with
  | start => exact hstart
  | between _ hb ih => exact hb.orderly ih
  | change _ retry c hok ih => exact (change_run ih hok).orderly

/-- By induction on the history: the window of a member is what its changes make of it. -/
theorem Changed.window?_eq (h : Changed p₀ cs p) (hstart : Orderly p₀) (name key : String) :
    p.window? name key = Activity.afterAll name key (p₀.window? name key) cs := by
  induction h with
  | start => rfl
  | between _ hb ih => rw [← ih, window?, window?, hb.spec?_eq]
  | change h retry c hok ih =>
    rw [(change_run (h.orderly hstart) hok).window?_eq, ih, Activity.afterAll_append]
    rfl

/-- Two histories from the same beginning that have the same changes of a member, in the same
order and at the same times, and that end with an upsert of it. Whatever the changes of
others are, and whichever calls of the store fail on the way: the window of the member is
open in both, with the metric and the storage of the upsert. It is the very same in both
if the member never comes back to a window from a month that has passed. -/
theorem window_independent_of_others {time : Instant} {type : GroupType} {usage : MemberUsage}
    (h : Changed p₀ (cs ++ [⟨time, .upsert name type key usage⟩]) p)
    (h' : Changed p₀ (cs' ++ [⟨time, .upsert name type key usage⟩]) p')
    (hstore : p₀.store.memory.Reachable) (hscript : p₀.store.Honest)
    (hordered : Ordered (cs ++ [⟨time, .upsert name type key usage⟩]))
    (hordered' : Ordered (cs' ++ [⟨time, .upsert name type key usage⟩]))
    (hown : own name key cs = own name key cs') :
    ∃ a a', p.window? name key = some a ∧ p'.window? name key = some a' ∧
      (a.finish = none ∧ a'.finish = none) ∧
      (a.metric = usage.metric ∧ a'.metric = usage.metric) ∧
      (a.storageBytes = usage.storageBytes ∧ a'.storageBytes = usage.storageBytes) ∧
      (ReopensInTime name key (p₀.window? name key)
          (own name key cs ++ [⟨time, .upsert name type key usage⟩]) → a = a') := by
  have hstart : Orderly p₀ := ⟨hstore.sound, hscript⟩
  have hconcerns : concerns name key ⟨time, .upsert name type key usage⟩ :=
    concerns_iff.mpr ⟨rfl, rfl⟩
  have hw := h.window?_eq hstart name key
  have hw' := h'.window?_eq hstart name key
  rw [Activity.afterAll_upsert] at hw hw'
  refine ⟨_, _, hw, hw', by simp, by simp, by simp, fun hintime => ?_⟩
  have halone := Activity.afterAll_own hconcerns hordered hintime
  have halone' := Activity.afterAll_own hconcerns hordered' (hown ▸ hintime)
  rw [Activity.afterAll_upsert, Activity.afterAll_upsert] at halone halone'
  rw [← hown] at halone'
  exact Option.some_inj.mp (halone.trans halone'.symm)

/-! ## Members that come back -/

/-- A member that comes back as the first one of the group keeps the start of its window,
however long ago it left. -/
theorem start_of_first_return {time : Instant} {type : GroupType} {usage : MemberUsage}
    (h : Changed p₀ [⟨time, .upsert name type key usage⟩] p) (hstart : Orderly p₀)
    (hw : p₀.window? name key = some a) : (p.window? name key).map Activity.start = some a.start := by
  rw [h.window?_eq hstart, ← List.nil_append [_], Activity.afterAll_upsert, hw]
  rfl

/-- A member that comes back after another one of the group has been changed in the new month
begins a new window. -/
theorem start_of_later_return {time : Instant} {type : GroupType} {usage : MemberUsage}
    (h : Changed p₀ [c, ⟨time, .upsert name type key usage⟩] p) (hstart : Orderly p₀)
    (hw : p₀.window? name key = some a) (hname : c.change.name = name) (hkey : c.change.key ≠ key)
    (hended : a.reaches c.month = false) :
    (p.window? name key).map Activity.start = some usage.started := by
  have hforgotten : Activity.afterAll name key (some a) [c] = none := by
    rw [Activity.afterAll, List.foldl_cons, Activity.after_of_key_ne hname hkey,
      Option.filter_some, hended]
    rfl
  rw [h.window?_eq hstart, ← List.singleton_append, Activity.afterAll_upsert, hw, hforgotten]
  rfl

/-- Make changes one after the other, each of them at its time, as long as they succeed. -/
def makeAll (retry : RetryPolicy) (p : Pipeline) : List TimedChange → Option Pipeline
  | [] => some p
  | c :: cs =>
    let made := { p with now := c.time }.onGroups (c.change.program retry)
    if made.1.isOk then made.2.makeAll retry cs else none

theorem Changed.makeAll {retry : RetryPolicy} (h : Changed p₀ cs p) (hstart : Orderly p₀)
    (hmade : p.makeAll retry cs' = some p') : Changed p₀ (cs ++ cs') p' := by
  induction cs' generalizing cs p with
  | nil =>
    cases hmade
    rwa [List.append_nil]
  | cons c cs' ih =>
    have hclock : Changed p₀ cs { p with now := c.time } :=
      h.between ⟨rfl, .refl _, (h.orderly hstart).honest⟩
    rw [Pipeline.makeAll] at hmade
    split at hmade
    next hok =>
      rw [← List.singleton_append, ← List.append_assoc]
      exact ih (hclock.change retry c.change hok) hmade
    next => cases hmade

/-- A pod that is there from a time on. -/
def arrival (pod : String) (time : Instant) : TimedChange :=
  ⟨time, .upsert "ns-shop" .byNamespace pod
    { metric := { cpuRequest := 250 }, storageBytes := 0, started := time }⟩

/-- A pod that is gone from a time on. -/
def departure (pod : String) (time : Instant) : TimedChange :=
  ⟨time, .remove "ns-shop" pod time⟩

/-- A time in the winter of the year 2024. -/
def winter (month day : Nat) : Instant := .ofDate ⟨2024, month, day⟩

/-- A pipeline without any groups. -/
def winterStart : Pipeline := .new {} (winter 1 1)

theorem orderly_winterStart : Orderly winterStart :=
  ⟨(MemoryStore.Reachable.empty []).sound, fun _ _ h => nomatch h⟩

theorem exists_changed_winterStart (cs : List TimedChange)
    (hmade : (winterStart.makeAll {} cs).isSome) : ∃ p, Changed winterStart cs p := by
  obtain ⟨p, hp⟩ := Option.isSome_iff_exists.mp hmade
  exact ⟨p, Changed.start.makeAll orderly_winterStart hp⟩

/-- A pod leaves and comes back within January, with others around it or not. -/
theorem windows_of_january :
    let last := arrival "web-0" (winter 1 25)
    let before := [arrival "web-0" (winter 1 5), departure "web-0" (winter 1 20)]
    let crowded := [arrival "web-1" (winter 1 4), arrival "web-0" (winter 1 5),
      departure "web-0" (winter 1 20), departure "web-1" (winter 1 20)]
    ∃ p p' a, (Changed winterStart (before ++ [last]) p ∧ Changed winterStart (crowded ++ [last]) p' ∧
        winterStart.store.memory.Reachable ∧ winterStart.store.Honest ∧
        Ordered (before ++ [last]) ∧ Ordered (crowded ++ [last]) ∧
        own "ns-shop" "web-0" before = own "ns-shop" "web-0" crowded ∧
        ReopensInTime "ns-shop" "web-0" (winterStart.window? "ns-shop" "web-0")
          (own "ns-shop" "web-0" before ++ [last])) ∧
      p.window? "ns-shop" "web-0" = some a ∧ p'.window? "ns-shop" "web-0" = some a ∧
      a.finish = none := by
  intro last before crowded
  obtain ⟨p, hp⟩ := exists_changed_winterStart (before ++ [last]) (by decide +kernel)
  obtain ⟨p', hp'⟩ := exists_changed_winterStart (crowded ++ [last]) (by decide +kernel)
  have hstore : winterStart.store.memory.Reachable := .empty []
  have hscript : winterStart.store.Honest := fun _ _ h => nomatch h
  have hordered : Ordered (before ++ [last]) := by decide +kernel
  have hordered' : Ordered (crowded ++ [last]) := by decide +kernel
  have hown : own "ns-shop" "web-0" before = own "ns-shop" "web-0" crowded := by rfl
  have hintime : ReopensInTime "ns-shop" "web-0" (winterStart.window? "ns-shop" "web-0")
      (own "ns-shop" "web-0" before ++ [last]) := by
    decide +kernel
  obtain ⟨a, a', ha, ha', ⟨hopen, -⟩, -, -, hsame⟩ :=
    window_independent_of_others hp hp' hstore hscript hordered hordered' hown
  obtain rfl := hsame hintime
  exact ⟨p, p', a, ⟨hp, hp', hstore, hscript, hordered, hordered', hown, hintime⟩, ha, ha', hopen⟩

/-- A pod leaves in January and comes back in February. It is charged from January on if it is
the first one to be there in February, and else from February on. -/
theorem windows_of_february :
    let alone := [arrival "web-0" (winter 1 5), departure "web-0" (winter 1 20),
      arrival "web-0" (winter 2 3)]
    let crowded := [arrival "web-0" (winter 1 5), departure "web-0" (winter 1 20),
      arrival "web-1" (winter 2 1), arrival "web-0" (winter 2 3)]
    (Ordered alone ∧ Ordered crowded ∧ own "ns-shop" "web-0" alone = own "ns-shop" "web-0" crowded) ∧
    ∃ p p', Changed winterStart alone p ∧ Changed winterStart crowded p' ∧
      (p.window? "ns-shop" "web-0").map Activity.start = some (winter 1 5) ∧
      (p'.window? "ns-shop" "web-0").map Activity.start = some (winter 2 3) := by
  intro alone crowded
  obtain ⟨p, hp⟩ := exists_changed_winterStart alone (by decide +kernel)
  obtain ⟨p', hp'⟩ := exists_changed_winterStart crowded (by decide +kernel)
  refine ⟨⟨by decide +kernel, by decide +kernel, rfl⟩, p, p', hp, hp', ?_, ?_⟩
  · rw [hp.window?_eq orderly_winterStart]
    decide +kernel
  · rw [hp'.window?_eq orderly_winterStart]
    decide +kernel

end Pipeline

end Chargeback
