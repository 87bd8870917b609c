import Chargeback.Group.Spec
import Chargeback.Proofs.Histories

/-!
# What the history of a member tells of it

A record is edited in three ways: a member gets a usage, a member is taken out, and windows
that have ended are forgotten. What the record says of one member depends on the edits of this
member and on the prunings only, and it can be told from these without making them: by the last
upsert, by the first removal after it, and by the prunings that came later than this one.

All inductions are on a history with one more edit at its end.

## Main definitions

* `RecordEdit`, `GroupSpec.edited`: edits of a record, and what they make of it.
* `RecordEdit.LastUpsert`, `RecordEdit.firstRemoval`, `RecordEdit.Forgotten`: what a history
  tells of a member.
* `RecordEdit.FirstSinceAbsent`: the upsert that has begun the window.
* `GroupSpec.record_by_history`: members and windows by the history.
-/

namespace Chargeback

/-- An edit of a group record. -/
inductive RecordEdit where
  | upsert (key : String) (usage : MemberUsage)
  | remove (key : String) (ended : Instant)
  | prune (cutoff : Instant)
deriving DecidableEq

/-- A window does not reach a cutoff if it has ended before. -/
theorem Activity.reaches_eq_false_iff {a : Activity} {cutoff : Instant} :
    a.reaches cutoff = false ↔ ∃ ended, a.finish = some ended ∧ ended < cutoff := by
  cases h : a.finish with
  | none => simp [reaches, h]
  | some ended => simp [reaches, h, Instant.lt_iff_not_le]

/-- A window that has an end keeps it. -/
theorem Activity.close_eq_self {a : Activity} {ended : Instant} (h : a.finish.isSome) :
    a.close ended = a := by
  obtain ⟨e, he⟩ := Option.isSome_iff_exists.mp h
  rw [close, he, Option.getD_some, ← he]

namespace RecordEdit

/-- The record after an edit. -/
def apply : RecordEdit → GroupSpec → GroupSpec
  | upsert key usage, s => s.upsertMember key usage
  | remove key ended, s => s.removeMember key ended
  | prune cutoff, s => s.pruneActivity cutoff

/-- The key of the member that is edited. A pruning is of no particular member. -/
def key? : RecordEdit → Option String
  | upsert key _ => some key
  | remove key _ => some key
  | prune _ => none

/-- The edit is one of a given member, or a pruning. -/
def concerns (key : String) (e : RecordEdit) : Bool := e.key?.all (· = key)

/-- When the edit takes a given member out, if it does. -/
def removal? (key : String) : RecordEdit → Option Instant
  | remove k ended => if k = key then some ended else none
  | _ => none

@[simp] theorem removal?_upsert (key k : String) (usage : MemberUsage) :
    removal? key (upsert k usage) = none := rfl

@[simp] theorem removal?_remove (key k : String) (ended : Instant) :
    removal? key (remove k ended) = if k = key then some ended else none := rfl

@[simp] theorem removal?_prune (key : String) (cutoff : Instant) :
    removal? key (prune cutoff) = none := rfl

/-! ## Histories -/

/-- The usage of the last upsert of a member, and the edits after it. -/
def LastUpsert (key : String) (es : List RecordEdit) (usage : MemberUsage)
    (after : List RecordEdit) : Prop :=
  ∃ before, es = before ++ upsert key usage :: after ∧ ∀ u, upsert key u ∉ after

/-- When a member was first taken out. -/
def firstRemoval (key : String) (es : List RecordEdit) : Option Instant :=
  es.findSome? (removal? key)

/-- A window that was open at first has been forgotten: it had ended when a pruning came, and
its end lay before the cutoff. -/
def Forgotten (key : String) (after : List RecordEdit) : Prop :=
  ∃ between cutoff rest ended, after = between ++ prune cutoff :: rest ∧
    firstRemoval key between = some ended ∧ ended < cutoff

/-- There is a window of a member: it was upserted, and the window has not been forgotten since
the last upsert. -/
def KeepsWindow (key : String) (es : List RecordEdit) : Prop :=
  ∃ usage after, LastUpsert key es usage after ∧ ¬Forgotten key after

/-- The usage of the first upsert of a member since its window was last absent: the window was
absent before, and has been there ever since. -/
def FirstSinceAbsent (key : String) (es : List RecordEdit) (usage : MemberUsage) : Prop :=
  ∃ before after, es = before ++ upsert key usage :: after ∧ ¬KeepsWindow key before ∧
    ∀ part, part <+: after → KeepsWindow key (before ++ upsert key usage :: part)

variable {key : String} {es after after' : List RecordEdit} {e : RecordEdit}
  {usage usage' u : MemberUsage} {cutoff : Instant}

theorem not_lastUpsert_nil : ¬LastUpsert key [] usage after := by
  rintro ⟨before, h, -⟩
  simp at h

/-- An upsert at the end is the last one. -/
theorem lastUpsert_append_upsert :
    LastUpsert key (es ++ [upsert key u]) usage after ↔ usage = u ∧ after = [] := by
  constructor
  · rintro ⟨before, h, hnone⟩
    rcases append_singleton_eq_append_cons_iff.mp h with ⟨-, hlast, rfl⟩ | ⟨rest, -, rfl⟩
    · cases hlast
      exact ⟨rfl, rfl⟩
    · exact absurd (by simp) (hnone u)
  · rintro ⟨rfl, rfl⟩
    exact ⟨es, rfl, by simp⟩

/-- Any other edit at the end comes after the last upsert. -/
theorem lastUpsert_append_other (h : ∀ u, e ≠ upsert key u) :
    LastUpsert key (es ++ [e]) usage after ↔
      ∃ init, after = init ++ [e] ∧ LastUpsert key es usage init := by
  constructor
  · rintro ⟨before, hes, hnone⟩
    rcases append_singleton_eq_append_cons_iff.mp hes with ⟨-, hlast, -⟩ | ⟨init, rfl, rfl⟩
    · exact absurd hlast.symm (h usage)
    · exact ⟨init, rfl, before, rfl, fun u hu => hnone u (List.mem_append_left _ hu)⟩
  · rintro ⟨init, rfl, before, rfl, hnone⟩
    refine ⟨before, by simp, fun u hu => ?_⟩
    rcases List.mem_append.mp hu with hu | hu
    · exact hnone u hu
    · exact h u (List.mem_singleton.mp hu).symm

/-- A history has only one last upsert. -/
theorem LastUpsert.unique (h : LastUpsert key es usage after)
    (h' : LastUpsert key es usage' after') : usage = usage' ∧ after = after' := by
  induction es using List.reverseRecOn generalizing after after' with
  | nil => exact absurd h not_lastUpsert_nil
  | append_singleton es e ih =>
    by_cases hlast : ∃ u, e = upsert key u
    · obtain ⟨u, rfl⟩ := hlast
      obtain ⟨rfl, rfl⟩ := lastUpsert_append_upsert.mp h
      obtain ⟨rfl, rfl⟩ := lastUpsert_append_upsert.mp h'
      exact ⟨rfl, rfl⟩
    · have hother : ∀ u, e ≠ upsert key u := fun u hu => hlast ⟨u, hu⟩
      obtain ⟨init, rfl, hinit⟩ := (lastUpsert_append_other hother).mp h
      obtain ⟨init', rfl, hinit'⟩ := (lastUpsert_append_other hother).mp h'
      obtain ⟨rfl, rfl⟩ := ih hinit hinit'
      exact ⟨rfl, rfl⟩

theorem firstRemoval_append_singleton :
    firstRemoval key (es ++ [e]) = (firstRemoval key es).or (e.removal? key) := by
  simp [firstRemoval, List.findSome?_append]

theorem not_forgotten_nil : ¬Forgotten key [] := by
  rintro ⟨between, cutoff, rest, ended, h, -⟩
  simp at h

/-- A pruning forgets the window if it had ended, and before the cutoff. -/
theorem forgotten_append_prune :
    Forgotten key (es ++ [prune cutoff]) ↔
      Forgotten key es ∨ ∃ ended, firstRemoval key es = some ended ∧ ended < cutoff := by
  constructor
  · rintro ⟨between, c, rest, ended, h, hended, hlt⟩
    rcases append_singleton_eq_append_cons_iff.mp h with ⟨rfl, hlast, -⟩ | ⟨rest, rfl, -⟩
    · cases hlast
      exact .inr ⟨ended, hended, hlt⟩
    · exact .inl ⟨between, c, rest, ended, rfl, hended, hlt⟩
  · rintro (⟨between, c, rest, ended, rfl, hended, hlt⟩ | ⟨ended, hended, hlt⟩)
    · exact ⟨between, c, rest ++ [prune cutoff], ended, by simp, hended, hlt⟩
    · exact ⟨es, cutoff, [], ended, rfl, hended, hlt⟩

/-- Nothing but a pruning forgets windows. -/
theorem forgotten_append_other (h : ∀ c, e ≠ prune c) :
    Forgotten key (es ++ [e]) ↔ Forgotten key es := by
  constructor
  · rintro ⟨between, c, rest, ended, heq, hended⟩
    rcases append_singleton_eq_append_cons_iff.mp heq with ⟨-, hlast, -⟩ | ⟨rest, rfl, -⟩
    · exact absurd hlast.symm (h c)
    · exact ⟨between, c, rest, ended, rfl, hended⟩
  · rintro ⟨between, c, rest, ended, rfl, hended⟩
    exact ⟨between, c, rest ++ [e], ended, by simp, hended⟩

theorem not_keepsWindow_nil : ¬KeepsWindow key [] := by
  rintro ⟨usage, after, h, -⟩
  exact not_lastUpsert_nil h

theorem keepsWindow_append_upsert : KeepsWindow key (es ++ [upsert key u]) :=
  ⟨u, [], lastUpsert_append_upsert.mpr ⟨rfl, rfl⟩, not_forgotten_nil⟩

/-- Only an upsert brings a window about. -/
theorem KeepsWindow.of_append (h : KeepsWindow key (es ++ [e])) (hother : ∀ u, e ≠ upsert key u) :
    KeepsWindow key es := by
  obtain ⟨usage, after, hlast, hkept⟩ := h
  obtain ⟨init, rfl, hinit⟩ := (lastUpsert_append_other hother).mp hlast
  refine ⟨usage, init, hinit, fun hforgotten => hkept ?_⟩
  obtain ⟨between, cutoff, rest, ended, rfl, hended⟩ := hforgotten
  exact ⟨between, cutoff, rest ++ [e], ended, by simp, hended⟩

/-- As long as the window is there, the upsert that has begun it stays the same. -/
theorem FirstSinceAbsent.append (h : FirstSinceAbsent key es usage)
    (hkept : KeepsWindow key (es ++ [e])) : FirstSinceAbsent key (es ++ [e]) usage := by
  obtain ⟨before, after, rfl, habsent, hsince⟩ := h
  refine ⟨before, after ++ [e], by simp, habsent, fun part hpart => ?_⟩
  rcases List.prefix_concat_iff.mp hpart with rfl | hpart
  · simpa using hkept
  · exact hsince part hpart

theorem firstSinceAbsent_append_upsert (h : ¬KeepsWindow key es) :
    FirstSinceAbsent key (es ++ [upsert key u]) u := by
  refine ⟨es, [], rfl, h, fun part hpart => ?_⟩
  rw [List.prefix_nil.mp hpart]
  exact keepsWindow_append_upsert

/-! ## Edits of a member -/

/-- What an edit makes of the window of a member. -/
def onWindow (key : String) : RecordEdit → Option Activity → Option Activity
  | upsert k usage, w => if k = key then some (.upsert usage w) else w
  | remove k ended, w => if k = key then w.map (.close ended) else w
  | prune cutoff, w => w.filter (Activity.reaches cutoff)

/-- What an edit makes of the metric of a member. -/
def onMember (key : String) : RecordEdit → Option Metric → Option Metric
  | upsert k usage, m => if k = key then some usage.metric else m
  | remove k _, m => if k = key then none else m
  | prune _, m => m

theorem get?_windows_apply (e : RecordEdit) (s : GroupSpec) (key : String) :
    (e.apply s).windows.get? key = e.onWindow key (s.windows.get? key) := by
  cases e with
  | upsert k usage =>
    rw [apply, GroupSpec.upsertMember_windows, KeyMap.get?_insert, onWindow]
    split
    next hk => rw [hk]
    next => rfl
  | remove k ended =>
    rw [apply, GroupSpec.removeMember_windows, KeyMap.get?_alter, onWindow]
    split
    next hk => rw [hk]
    next => rfl
  | prune cutoff => exact KeyMap.get?_filter s.windows _ key

theorem get?_members_apply (e : RecordEdit) (s : GroupSpec) (key : String) :
    (e.apply s).members.get? key = e.onMember key (s.members.get? key) := by
  cases e with
  | upsert k usage => exact KeyMap.get?_insert s.members k key usage.metric
  | remove k ended => exact KeyMap.get?_erase s.members k key
  | prune cutoff => rfl

theorem onWindow_of_not_concerns (w : Option Activity) (e : RecordEdit)
    (h : e.concerns key = false) : e.onWindow key w = w := by
  cases e with
  | upsert k usage => exact if_neg (by simpa [concerns, key?] using h)
  | remove k ended => exact if_neg (by simpa [concerns, key?] using h)
  | prune cutoff => simp [concerns, key?] at h

theorem onMember_of_not_concerns (m : Option Metric) (e : RecordEdit)
    (h : e.concerns key = false) : e.onMember key m = m := by
  cases e with
  | upsert k usage => exact if_neg (by simpa [concerns, key?] using h)
  | remove k ended => exact if_neg (by simpa [concerns, key?] using h)
  | prune cutoff => rfl

/-! ## Windows -/

/-- What a history tells of the window of a member. -/
def TellsWindow (key : String) (es : List RecordEdit) : Option Activity → Prop
  | none => ¬KeepsWindow key es
  | some a => ∃ usage after first, LastUpsert key es usage after ∧ ¬Forgotten key after ∧
      FirstSinceAbsent key es first ∧
      a = { start := first.started, finish := firstRemoval key after
            metric := usage.metric, storageBytes := usage.storageBytes }

variable {w : Option Activity}

theorem TellsWindow.append_upsert (h : TellsWindow key es w) (u : MemberUsage) :
    TellsWindow key (es ++ [upsert key u]) (some (.upsert u w)) := by
  have hlast : LastUpsert key (es ++ [upsert key u]) u [] :=
    lastUpsert_append_upsert.mpr ⟨rfl, rfl⟩
  cases w with
  | none => exact ⟨u, [], u, hlast, not_forgotten_nil, firstSinceAbsent_append_upsert h, rfl⟩
  | some a =>
    obtain ⟨usage, after, first, -, -, hfirst, rfl⟩ := h
    exact ⟨u, [], first, hlast, not_forgotten_nil, hfirst.append keepsWindow_append_upsert, rfl⟩

/-- An edit that neither upserts the member nor prunes can only end the window. -/
theorem TellsWindow.append_other (h : TellsWindow key es w) (hupsert : ∀ u, e ≠ upsert key u)
    (hprune : ∀ c, e ≠ prune c) : TellsWindow key (es ++ [e])
      (w.map fun a => { a with finish := a.finish.or (e.removal? key) }) := by
  cases w with
  | none => exact fun hkept => h (hkept.of_append hupsert)
  | some a =>
    obtain ⟨usage, after, first, hlast, hkept, hfirst, rfl⟩ := h
    have hlast' := (lastUpsert_append_other hupsert).mpr ⟨after, rfl, hlast⟩
    have hkept' : ¬Forgotten key (after ++ [e]) := by rwa [forgotten_append_other hprune]
    refine ⟨usage, after ++ [e], first, hlast', hkept', hfirst.append ⟨usage, _, hlast', hkept'⟩, ?_⟩
    rw [firstRemoval_append_singleton]

theorem TellsWindow.append_prune (h : TellsWindow key es w) (cutoff : Instant) :
    TellsWindow key (es ++ [prune cutoff]) (w.filter (Activity.reaches cutoff)) := by
  have hupsert : ∀ u, prune cutoff ≠ upsert key u := by simp
  cases w with
  | none => exact fun hkept => h (hkept.of_append hupsert)
  | some a =>
    obtain ⟨usage, after, first, hlast, hkept, hfirst, ha⟩ := h
    have hfinish : a.finish = firstRemoval key after := by rw [ha]
    have hlast' := (lastUpsert_append_other hupsert).mpr ⟨after, rfl, hlast⟩
    have hforgets : Forgotten key (after ++ [prune cutoff]) ↔ _ := forgotten_append_prune
    rw [← hfinish, ← Activity.reaches_eq_false_iff] at hforgets
    cases hreaches : a.reaches cutoff with
    | false =>
      rw [Option.filter_some, hreaches]
      rintro ⟨usage', after', hlast'', hkept'⟩
      obtain ⟨-, rfl⟩ := hlast'.unique hlast''
      exact hkept' (hforgets.mpr (.inr hreaches))
    | true =>
      have hkept' : ¬Forgotten key (after ++ [prune cutoff]) := by
        simp [hforgets, hkept, hreaches]
      rw [Option.filter_some, if_pos hreaches]
      refine ⟨usage, after ++ [prune cutoff], first, hlast', hkept',
        hfirst.append ⟨usage, _, hlast', hkept'⟩, ?_⟩
      rw [firstRemoval_append_singleton, removal?_prune, Option.or_none, ha]

/-- One more edit, in each of the three ways. -/
theorem TellsWindow.append (h : TellsWindow key es w) (e : RecordEdit) :
    TellsWindow key (es ++ [e]) (e.onWindow key w) := by
  cases e with
  | upsert k usage =>
    by_cases hk : k = key
    · subst hk
      rw [onWindow, if_pos rfl]
      exact h.append_upsert usage
    · rw [onWindow, if_neg hk]
      have hkept := h.append_other (e := upsert k usage) (by simp [hk]) (by simp)
      simpa using hkept
  | remove k ended =>
    have hended := h.append_other (e := remove k ended) (by simp) (by simp)
    by_cases hk : k = key
    · rw [onWindow, if_pos hk]
      have hclose : Activity.close ended =
          fun a => { a with finish := a.finish.or (removal? key (remove k ended)) } := by
        funext a
        simp [Activity.close, hk]
      rw [hclose]
      exact hended
    · rw [onWindow, if_neg hk]
      simpa [hk] using hended
  | prune cutoff => exact h.append_prune cutoff

/-- A member has a window exactly if its history tells of one. -/
theorem TellsWindow.isSome_iff (h : TellsWindow key es w) : w.isSome ↔ KeepsWindow key es := by
  cases w with
  | none =>
    have hnone : ¬KeepsWindow key es := h
    simp [hnone]
  | some a =>
    obtain ⟨usage, after, first, hlast, hkept, -⟩ := h
    simpa using ⟨usage, after, hlast, hkept⟩

/-! ## Members -/

/-- What a history tells of the metric of a member. -/
def TellsMember (key : String) (es : List RecordEdit) : Option Metric → Prop
  | none => ∀ usage after, LastUpsert key es usage after → (firstRemoval key after).isSome
  | some metric => ∃ usage after, LastUpsert key es usage after ∧ firstRemoval key after = none ∧
      metric = usage.metric

variable {m : Option Metric}

theorem TellsMember.append_other (h : TellsMember key es m) (hupsert : ∀ u, e ≠ upsert key u)
    (hremoval : e.removal? key = none) : TellsMember key (es ++ [e]) m := by
  cases m with
  | none =>
    intro usage after hlast
    obtain ⟨init, rfl, hinit⟩ := (lastUpsert_append_other hupsert).mp hlast
    rw [firstRemoval_append_singleton, hremoval, Option.or_none]
    exact h usage init hinit
  | some metric =>
    obtain ⟨usage, after, hlast, hnone, hmetric⟩ := h
    refine ⟨usage, after ++ [e], (lastUpsert_append_other hupsert).mpr ⟨after, rfl, hlast⟩, ?_, hmetric⟩
    rw [firstRemoval_append_singleton, hnone, hremoval, Option.or_none]

/-- One more edit, in each of the three ways. -/
theorem TellsMember.append (h : TellsMember key es m) (e : RecordEdit) :
    TellsMember key (es ++ [e]) (e.onMember key m) := by
  cases e with
  | upsert k usage =>
    by_cases hk : k = key
    · subst hk
      rw [onMember, if_pos rfl]
      exact ⟨usage, [], lastUpsert_append_upsert.mpr ⟨rfl, rfl⟩, rfl, rfl⟩
    · rw [onMember, if_neg hk]
      exact h.append_other (by simp [hk]) rfl
  | remove k ended =>
    by_cases hk : k = key
    · rw [onMember, if_pos hk]
      intro usage after hlast
      obtain ⟨init, rfl, -⟩ := (lastUpsert_append_other (by simp)).mp hlast
      simp [firstRemoval_append_singleton, hk]
    · rw [onMember, if_neg hk]
      exact h.append_other (by simp) (by simp [hk])
  | prune cutoff => exact h.append_other (by simp) rfl

theorem TellsMember.eq_some_iff (h : TellsMember key es m) (metric : Metric) :
    m = some metric ↔
      ∃ usage after, LastUpsert key es usage after ∧ firstRemoval key after = none ∧
        metric = usage.metric := by
  cases m with
  | none =>
    constructor
    · exact nofun
    · rintro ⟨usage, after, hlast, hnone, -⟩
      simpa [hnone] using h usage after hlast
  | some metric' =>
    obtain ⟨usage, after, hlast, hnone, rfl⟩ := h
    constructor
    · rintro ⟨⟩
      exact ⟨usage, after, hlast, hnone, rfl⟩
    · rintro ⟨usage', after', hlast', -, rfl⟩
      rw [(hlast.unique hlast').1]

end RecordEdit

/-! ## Records -/

namespace GroupSpec

open RecordEdit

variable {s : GroupSpec} {key : String} {es es' : List RecordEdit} {e e' : RecordEdit}

/-- The record after a history of edits. -/
def edited (s : GroupSpec) (es : List RecordEdit) : GroupSpec := es.foldl (fun s e => e.apply s) s

@[simp] theorem edited_nil (s : GroupSpec) : s.edited [] = s := rfl

@[simp] theorem edited_cons (s : GroupSpec) (e : RecordEdit) (es : List RecordEdit) :
    s.edited (e :: es) = (e.apply s).edited es := rfl

theorem edited_append (s : GroupSpec) (es es' : List RecordEdit) :
    s.edited (es ++ es') = (s.edited es).edited es' := List.foldl_append

/-- The window of a member, edit by edit. -/
theorem get?_windows_edited (s : GroupSpec) (es : List RecordEdit) (key : String) :
    (s.edited es).windows.get? key =
      es.foldl (fun w e => e.onWindow key w) (s.windows.get? key) := by
  induction es generalizing s with
  | nil => rfl
  | cons e es ih => rw [edited_cons, ih, get?_windows_apply, List.foldl_cons]

/-- The metric of a member, edit by edit. -/
theorem get?_members_edited (s : GroupSpec) (es : List RecordEdit) (key : String) :
    (s.edited es).members.get? key =
      es.foldl (fun m e => e.onMember key m) (s.members.get? key) := by
  induction es generalizing s with
  | nil => rfl
  | cons e es ih => rw [edited_cons, ih, get?_members_apply, List.foldl_cons]

/-- Of the windows of a record without windows, a history tells. -/
theorem tellsWindow_edited (hwindows : s.windows = .empty) (es : List RecordEdit) (key : String) :
    TellsWindow key es ((s.edited es).windows.get? key) := by
  induction es using List.reverseRecOn with
  | nil =>
    rw [edited_nil, hwindows]
    exact not_keepsWindow_nil
  | append_singleton es e ih =>
    rw [edited_append, edited_cons, edited_nil, get?_windows_apply]
    exact ih.append e

/-- Of the members of a record without members, a history tells. -/
theorem tellsMember_edited (hmembers : s.members = .empty) (es : List RecordEdit) (key : String) :
    TellsMember key es ((s.edited es).members.get? key) := by
  induction es using List.reverseRecOn with
  | nil =>
    rw [edited_nil, hmembers]
    exact fun usage after hlast => absurd hlast not_lastUpsert_nil
  | append_singleton es e ih =>
    rw [edited_append, edited_cons, edited_nil, get?_members_apply]
    exact ih.append e

/-- What a record says of a member depends on the edits of this member and on the prunings. -/
theorem edited_own (h : es.filter (concerns key) = es'.filter (concerns key)) :
    (s.edited es).members.get? key = (s.edited es').members.get? key ∧
      (s.edited es).windows.get? key = (s.edited es').windows.get? key := by
  constructor
  · rw [get?_members_edited, get?_members_edited, ← foldl_filter_of_eq onMember_of_not_concerns, h,
      foldl_filter_of_eq onMember_of_not_concerns]
  · rw [get?_windows_edited, get?_windows_edited, ← foldl_filter_of_eq onWindow_of_not_concerns, h,
      foldl_filter_of_eq onWindow_of_not_concerns]

/-- An edit of a member leaves all but members, windows and total, and adds up the members. -/
theorem apply_eq (h : e.key? = some key) (s : GroupSpec) :
    e.apply s = { s with
      members := (e.apply s).members
      windows := (e.apply s).windows
      total := Metric.sum (e.apply s).members.values } := by
  cases e with
  | upsert k usage => rfl
  | remove k ended => rfl
  | prune cutoff => cases h

/-- Edits of different members commute. -/
theorem apply_comm {key' : String} (h : e.key? = some key) (h' : e'.key? = some key')
    (hne : key ≠ key') (s : GroupSpec) : e'.apply (e.apply s) = e.apply (e'.apply s) := by
  have hconcerns (k : String) : e.concerns k = false ∨ e'.concerns k = false := by
    by_cases hk : key = k
    · exact .inr (by simpa [concerns, h', ← hk] using Ne.symm hne)
    · exact .inl (by simpa [concerns, h] using hk)
  have hmembers : (e'.apply (e.apply s)).members = (e.apply (e'.apply s)).members := by
    ext1 k
    simp only [get?_members_apply]
    rcases hconcerns k with hk | hk
    · rw [onMember_of_not_concerns _ e hk, onMember_of_not_concerns _ e hk]
    · rw [onMember_of_not_concerns _ e' hk, onMember_of_not_concerns _ e' hk]
  have hwindows : (e'.apply (e.apply s)).windows = (e.apply (e'.apply s)).windows := by
    ext1 k
    simp only [get?_windows_apply]
    rcases hconcerns k with hk | hk
    · rw [onWindow_of_not_concerns _ e hk, onWindow_of_not_concerns _ e hk]
    · rw [onWindow_of_not_concerns _ e' hk, onWindow_of_not_concerns _ e' hk]
  rw [apply_eq h', apply_eq h (e'.apply s), hmembers, hwindows, apply_eq h s, apply_eq h' s]

/-- A member that has been taken out, and has not been upserted since, is not there, and its
window is closed. -/
theorem closed_of_removed {ended : Instant} {between : List RecordEdit}
    (hnone : ∀ u, .upsert key u ∉ between) (s : GroupSpec) :
    (s.edited (es ++ .remove key ended :: between)).members.get? key = none ∧
      ∀ a, (s.edited (es ++ .remove key ended :: between)).windows.get? key = some a →
        a.finish.isSome := by
  induction between using List.reverseRecOn with
  | nil =>
    simp only [edited_append, edited_cons, edited_nil, get?_members_apply, get?_windows_apply,
      onMember, onWindow, if_true, true_and]
    intro a ha
    obtain ⟨a₀, -, rfl⟩ := Option.map_eq_some_iff.mp ha
    rfl
  | append_singleton between e ih =>
    obtain ⟨hmember, hclosed⟩ := ih fun u hu => hnone u (List.mem_append_left _ hu)
    have hupsert (u : MemberUsage) : e ≠ .upsert key u :=
      fun he => hnone u (by simp [he])
    rw [← List.cons_append, ← List.append_assoc, edited_append, edited_cons, edited_nil,
      get?_members_apply, get?_windows_apply, hmember]
    cases e with
    | upsert k usage =>
      have hk : k ≠ key := fun hk => hupsert usage (by rw [hk])
      rw [onMember, onWindow, if_neg hk, if_neg hk]
      exact ⟨rfl, hclosed⟩
    | remove k ended' =>
      rw [onMember, onWindow, ite_self]
      refine ⟨rfl, fun a ha => ?_⟩
      split at ha
      next =>
        obtain ⟨a₀, -, rfl⟩ := Option.map_eq_some_iff.mp ha
        rfl
      next => exact hclosed a ha
    | prune cutoff =>
      refine ⟨rfl, fun a ha => ?_⟩
      exact hclosed a (Option.filter_eq_some_iff.mp ha).1

/-- Taking a member out again changes neither members nor windows. -/
theorem removed_again {ended ended' : Instant} {between : List RecordEdit}
    (hnone : ∀ u, .upsert key u ∉ between) (s : GroupSpec) :
    (s.edited (es ++ .remove key ended :: (between ++ [.remove key ended']))).members =
        (s.edited (es ++ .remove key ended :: between)).members ∧
      (s.edited (es ++ .remove key ended :: (between ++ [.remove key ended']))).windows =
        (s.edited (es ++ .remove key ended :: between)).windows := by
  obtain ⟨hmember, hclosed⟩ : (s.edited (es ++ .remove key ended :: between)).members.get? key =
    none ∧ _ := closed_of_removed hnone s
  rw [← List.cons_append, ← List.append_assoc, edited_append]
  generalize s.edited (es ++ .remove key ended :: between) = g at hmember hclosed
  constructor
  · exact KeyMap.erase_of_get? hmember
  · ext1 k
    rw [edited_cons, edited_nil, get?_windows_apply, onWindow]
    split
    next hk =>
      subst hk
      cases ha : g.windows.get? key with
      | none => rfl
      | some a => rw [Option.map_some, Activity.close_eq_self (hclosed a ha)]
    next => rfl

/-- Of a record that had no members and no windows, a history tells all about a member. It is
in the group exactly if it has not been taken out since its last upsert, with the metric of this
upsert. It has a window exactly if it was upserted and no pruning since its last upsert has
forgotten the window. The window then begins as the first upsert says since it was last absent,
has metric and storage from the last upsert, and ends with the first removal after this one, if
there is any. So edits of others make no difference, edits of different members commute, and
taking out a member again keeps what the first time has left. -/
theorem record_by_history (hmembers : s.members = .empty) (hwindows : s.windows = .empty)
    (es : List RecordEdit) (key : String) :
    (∀ metric, (s.edited es).members.get? key = some metric ↔
        ∃ usage after, LastUpsert key es usage after ∧ firstRemoval key after = none ∧
          metric = usage.metric) ∧
      (((s.edited es).windows.get? key).isSome ↔
        ∃ usage after, LastUpsert key es usage after ∧ ¬Forgotten key after) ∧
      (∀ a, (s.edited es).windows.get? key = some a →
        ∃ usage after first, LastUpsert key es usage after ∧ FirstSinceAbsent key es first ∧
          a = { start := first.started, finish := firstRemoval key after
                metric := usage.metric, storageBytes := usage.storageBytes }) ∧
      (∀ es', es.filter (concerns key) = es'.filter (concerns key) →
        (s.edited es).members.get? key = (s.edited es').members.get? key ∧
          (s.edited es).windows.get? key = (s.edited es').windows.get? key) ∧
      (∀ e e' key', e.key? = some key → e'.key? = some key' → key ≠ key' →
        s.edited (es ++ [e, e']) = s.edited (es ++ [e', e])) ∧
      ∀ ended ended' between, (∀ u, .upsert key u ∉ between) →
        (s.edited (es ++ .remove key ended :: (between ++ [.remove key ended']))).members =
            (s.edited (es ++ .remove key ended :: between)).members ∧
          (s.edited (es ++ .remove key ended :: (between ++ [.remove key ended']))).windows =
            (s.edited (es ++ .remove key ended :: between)).windows := by
  have hwindow := tellsWindow_edited hwindows es key
  refine ⟨(tellsMember_edited hmembers es key).eq_some_iff, hwindow.isSome_iff, ?_, ?_, ?_, ?_⟩
  · intro a ha
    rw [ha] at hwindow
    obtain ⟨usage, after, first, hlast, -, hfirst, rfl⟩ := hwindow
    exact ⟨usage, after, first, hlast, hfirst, rfl⟩
  · intro es' h
    exact edited_own h
  · intro e e' key' h h' hne
    simp only [edited_append, edited_cons, edited_nil]
    exact apply_comm h h' hne _
  · intro ended ended' between hnone
    exact removed_again hnone s

/-- A pod that comes and goes within a spring. Its deletion is reported twice, it is created
anew before its window is forgotten, and another pod of the group comes while it is away. -/
def springHistory : List RecordEdit :=
  let usage (cpu : UInt64) (started : Int) : MemberUsage :=
    { metric := { cpuRequest := cpu }, storageBytes := 7, started := ⟨started, 0⟩ }
  [.upsert "web-0" (usage 100 10), .remove "web-0" ⟨20, 0⟩, .prune ⟨15, 0⟩,
    .upsert "web-0" (usage 250 30), .remove "web-0" ⟨40, 0⟩, .upsert "web-1" (usage 50 45),
    .remove "web-0" ⟨50, 0⟩, .prune ⟨40, 0⟩]

theorem spring_by_history :
    let s := GroupSpec.new "ns-shop" .byNamespace
    let a : Activity :=
      { start := ⟨10, 0⟩, finish := some ⟨40, 0⟩, metric := { cpuRequest := 250 }, storageBytes := 7 }
    (s.members = .empty ∧ s.windows = .empty) ∧
      (s.edited springHistory).windows.get? "web-0" = some a ∧
      (∃ usage after first, LastUpsert "web-0" springHistory usage after ∧
        FirstSinceAbsent "web-0" springHistory first ∧
        a = { start := first.started, finish := firstRemoval "web-0" after
              metric := usage.metric, storageBytes := usage.storageBytes }) ∧
      ((s.edited (springHistory ++ [.prune ⟨41, 0⟩])).windows.get? "web-0").isNone := by
  intro s a
  have ha : (s.edited springHistory).windows.get? "web-0" = some a := by decide +kernel
  have h := record_by_history (s := s) rfl rfl springHistory "web-0"
  exact ⟨⟨rfl, rfl⟩, ha, h.2.2.1 a ha, by decide +kernel⟩

end GroupSpec

end Chargeback
