import Chargeback.Watch.Known

/-!
# Changes replayed

Whoever takes up the changes of a watch, stores the created and updated objects under their
keys and drops the deleted ones, knows after each report what the watch knows: the same
keys, and under each key an object in the same version. Nothing is created that was there,
nothing is updated that was not, and what is there in the same version is left alone. So
no change in the life of an object is lost, also when a new list skips over some of them.

A new list reports what it misses in an order that depends on nothing one can see. So the
deletions at the front of a report may be taken up in any order here.

## Main definitions

* `Change.replay`, `Change.replayAll`: what a reader makes of changes.
* `Change.AllFit`: every change fits what the reader has just before it.
* `KnownObjects.Mirrors`: the reader has the known objects, in their versions.
* `Replayed`: the known objects and those of the reader after a history of reports.
-/

namespace Chargeback

/-- The version of an object. -/
def Resource.version (r : Resource) : Option String := r.metadata.resourceVersion

namespace Change

/-- The key of the object that was changed. -/
def key (c : Change) : String := c.object.key

/-- What a reader makes of a change. -/
def replay (objects : KeyMap Resource) (c : Change) : KeyMap Resource :=
  match c.action with
  | .create | .update => objects.insert c.key c.object
  | .delete => objects.erase c.key

/-- What a reader makes of changes, one after the other. -/
def replayAll (objects : KeyMap Resource) (cs : List Change) : KeyMap Resource :=
  cs.foldl replay objects

/-- A change fits the objects that are there: only what is missing is created, and only
what is there in another version, or now has none, is updated. -/
def Fits (objects : KeyMap Resource) (c : Change) : Prop :=
  match c.action with
  | .create => objects.get? c.key = none
  | .update => ∃ old, objects.get? c.key = some old ∧
      (c.object.version = none ∨ c.object.version ≠ old.version)
  | .delete => True

/-- Every change fits what is there just before it. -/
def AllFit (objects : KeyMap Resource) : List Change → Prop
  | [] => True
  | c :: rest => c.Fits objects ∧ AllFit (c.replay objects) rest

/-- The changes are deletions. -/
def AllDelete (cs : List Change) : Prop := ∀ c ∈ cs, c.action = .delete

/-- There is no deletion among the changes. -/
def NoneDeletes (cs : List Change) : Prop := ∀ c ∈ cs, c.action ≠ .delete

/-- The same changes but for the order of deletions at the front. -/
def Reordered (cs cs' : List Change) : Prop :=
  ∃ deletions deletions' rest, cs = deletions ++ rest ∧ cs' = deletions' ++ rest ∧
    deletions.Perm deletions' ∧ AllDelete deletions

variable {objects : KeyMap Resource} {cs cs' deletions rest : List Change}

theorem replayAll_append (objects : KeyMap Resource) (cs cs' : List Change) :
    replayAll objects (cs ++ cs') = replayAll (replayAll objects cs) cs' :=
  List.foldl_append

theorem allFit_append : AllFit objects (cs ++ cs') ↔
    AllFit objects cs ∧ AllFit (replayAll objects cs) cs' := by
  induction cs generalizing objects with
  | nil => simp [AllFit, replayAll]
  | cons c cs ih => simp [AllFit, ih, and_assoc, replayAll]

theorem allFit_deletions (h : AllDelete cs) : AllFit objects cs := by
  induction cs generalizing objects with
  | nil => trivial
  | cons c cs ih =>
    refine ⟨?_, ih fun d hd => h d (List.mem_cons_of_mem c hd)⟩
    rw [Fits, h c List.mem_cons_self]
    trivial

/-- Deletions take out their keys, in whatever order they come. -/
theorem get?_replayAll_deletions (h : AllDelete cs) (k : String) :
    (replayAll objects cs).get? k = if k ∈ cs.map key then none else objects.get? k := by
  induction cs generalizing objects with
  | nil => simp [replayAll]
  | cons c cs ih =>
    have hc : c.replay objects = objects.erase c.key := by rw [replay, h c List.mem_cons_self]
    have hrest : (replayAll (c.replay objects) cs).get? k =
        if k ∈ cs.map key then none else (c.replay objects).get? k :=
      ih fun d hd => h d (List.mem_cons_of_mem c hd)
    rw [replayAll, List.foldl_cons, ← replayAll, hrest, hc, KeyMap.get?_erase]
    by_cases hk : k ∈ cs.map key
    · simp [hk]
    · simp [hk, eq_comm (a := k)]

theorem Reordered.refl (cs : List Change) : Reordered cs cs :=
  ⟨[], [], cs, rfl, rfl, .refl [], by simp [AllDelete]⟩

/-- The deletions at the front of a report come before all its other changes, whatever their
order is. -/
theorem Reordered.deletions_first (h : Reordered (deletions ++ rest) cs)
    (hrest : NoneDeletes rest) :
    ∃ deletions', cs = deletions' ++ rest ∧ deletions.Perm deletions' := by
  obtain ⟨front, front', others, heq, rfl, hperm, hfront⟩ := h
  rcases List.append_eq_append_iff.mp heq with ⟨more, rfl, rfl⟩ | ⟨more, rfl, rfl⟩
  · -- What was reordered reaches beyond the deletions: then it reaches by nothing.
    have hmore : more = [] := by
      refine List.eq_nil_iff_forall_not_mem.mpr fun c hc => ?_
      exact hrest c (List.mem_append_left others hc) (hfront c (List.mem_append_right deletions hc))
    subst hmore
    refine ⟨front', rfl, ?_⟩
    simpa using hperm
  · exact ⟨front' ++ more, (List.append_assoc front' more rest).symm, hperm.append_right more⟩

theorem Reordered.eq_singleton {c : Change} (h : Reordered [c] cs) : cs = [c] := by
  obtain ⟨deletions, deletions', rest, heq, rfl, hperm, -⟩ := h
  rcases List.append_eq_singleton_iff.mp heq.symm with ⟨rfl, rfl⟩ | ⟨rfl, rfl⟩
  · obtain rfl := hperm.nil_eq
    rfl
  · obtain rfl := List.singleton_perm.mp hperm
    rfl

theorem Reordered.eq_of_noneDeletes (h : Reordered cs cs') (hcs : NoneDeletes cs) : cs' = cs := by
  have hfront : Reordered ([] ++ cs) cs' := h
  obtain ⟨deletions, rfl, hperm⟩ := hfront.deletions_first hcs
  rw [← hperm.nil_eq, List.nil_append]

end Change

namespace KnownObjects

open Change

variable {known : KnownObjects} {objects : KeyMap Resource} {rs : List Resource} {r : Resource}

/-- The reader's object stands for the known one: it has the same version, and without a
version it is the same object. -/
def StandsFor (r r' : Resource) : Prop := r'.version = r.version ∧ (r.version = none → r' = r)

/-- The reader has the known objects, in their versions. -/
structure Mirrors (known : KnownObjects) (objects : KeyMap Resource) : Prop where
  keyed : ∀ {k r}, known.objects.get? k = some r → r.key = k
  present : ∀ k, (objects.get? k).isSome = (known.objects.get? k).isSome
  alike : ∀ {k r r'}, known.objects.get? k = some r → objects.get? k = some r' → StandsFor r r'

theorem mirrors_empty : Mirrors {} .empty where
  keyed h := nomatch h
  present _ := rfl
  alike h := nomatch h

theorem Mirrors.eq_none_iff (h : Mirrors known objects) (k : String) :
    objects.get? k = none ↔ known.objects.get? k = none := by
  rw [← Option.not_isSome_iff_eq_none, ← Option.not_isSome_iff_eq_none, h.present k]

theorem Mirrors.exists_of_known (h : Mirrors known objects) {k : String}
    (hr : known.objects.get? k = some r) : ∃ r', objects.get? k = some r' ∧ StandsFor r r' := by
  have hpresent := h.present k
  rw [hr, Option.isSome_some, Option.isSome_iff_exists] at hpresent
  obtain ⟨r', hr'⟩ := hpresent
  exact ⟨r', hr', h.alike hr hr'⟩

/-- An object that is applied is known from then on; the reader either stores it too, or has
one that stands for it. -/
theorem Mirrors.insert (h : Mirrors known objects) {objects' : KeyMap Resource} {r' : Resource}
    (hobjects : ∀ k, objects'.get? k = if r.key = k then some r' else objects.get? k)
    (hr : StandsFor r r') : Mirrors { objects := known.objects.insert r.key r } objects' := by
  refine ⟨?_, ?_, ?_⟩
  · intro k s hs
    rw [KeyMap.get?_insert] at hs
    split at hs
    next hk => cases hs; exact hk
    next => exact h.keyed hs
  · intro k
    rw [hobjects, KeyMap.get?_insert]
    split
    next => rfl
    next => exact h.present k
  · intro k s s' hs hs'
    rw [KeyMap.get?_insert] at hs
    rw [hobjects] at hs'
    split at hs
    next hk =>
      rw [if_pos hk] at hs'
      cases hs
      cases hs'
      exact hr
    next hk =>
      rw [if_neg hk] at hs'
      exact h.alike hs hs'

/-- What is taken out on both sides does not matter. -/
theorem Mirrors.filter (h : Mirrors known objects) {p : String → Bool} {m m' : KeyMap Resource}
    (hm : ∀ k, m.get? k = if p k then known.objects.get? k else none)
    (hm' : ∀ k, m'.get? k = if p k then objects.get? k else none) :
    Mirrors { objects := m } m' := by
  refine ⟨?_, ?_, ?_⟩
  · intro k s hs
    rw [hm] at hs
    split at hs
    next => exact h.keyed hs
    next => cases hs
  · intro k
    rw [hm, hm']
    split
    next => exact h.present k
    next => rfl
  · intro k s s' hs hs'
    rw [hm] at hs
    rw [hm'] at hs'
    split at hs
    next hk =>
      rw [if_pos hk] at hs'
      exact h.alike hs hs'
    next => cases hs

/-! ## Reports -/

theorem standsFor_self (r : Resource) : StandsFor r r := ⟨rfl, fun _ => rfl⟩

theorem sameVersion_eq_true_iff {a b : Resource} :
    sameVersion a b = true ↔ a.version ≠ none ∧ a.version = b.version := by
  simp [sameVersion, Resource.version, Option.isSome_iff_ne_none]

theorem applied_snd (known : KnownObjects) (r : Resource) :
    (known.applied r).2 = { objects := known.objects.insert r.key r } := rfl

/-- An object that is known in its version brings no change. -/
theorem applied_fst_of_same {old : Resource} (hold : known.objects.get? r.key = some old)
    (hsame : sameVersion r old = true) : (known.applied r).1 = [] := by
  simp only [applied, hold, hsame, if_true]

theorem applied_fst_of_changed {old : Resource} (hold : known.objects.get? r.key = some old)
    (hsame : ¬sameVersion r old = true) :
    (known.applied r).1 = [{ action := .update, object := r }] := by
  simp only [applied, hold, hsame]
  rfl

theorem applied_fst_of_new (hnew : known.objects.get? r.key = none) :
    (known.applied r).1 = [{ action := .create, object := r }] := by
  simp only [applied, hnew]

/-- What a report comes to: its changes fit, and the reader still has the known objects. -/
structure Reported (objects : KeyMap Resource) (cs : List Change) (known : KnownObjects) : Prop where
  fit : AllFit objects cs
  mirrors : Mirrors known (replayAll objects cs)

theorem reported_applied (h : Mirrors known objects) (r : Resource) :
    Reported objects (known.applied r).1 (known.applied r).2 := by
  have hstored := h.insert (fun k => KeyMap.get?_insert objects r.key k r) (standsFor_self r)
  rw [applied_snd]
  cases hold : known.objects.get? r.key with
  | none =>
    rw [applied_fst_of_new hold]
    exact ⟨⟨(h.eq_none_iff r.key).mpr hold, trivial⟩, hstored⟩
  | some old =>
    obtain ⟨r', hr', hversion, -⟩ := h.exists_of_known hold
    by_cases hsame : sameVersion r old = true
    · obtain ⟨hsome, heq⟩ := sameVersion_eq_true_iff.mp hsame
      have hstands : StandsFor r r' := ⟨hversion.trans heq.symm, fun hnone => absurd hnone hsome⟩
      rw [applied_fst_of_same hold hsame]
      refine ⟨trivial, h.insert (fun k => ?_) hstands⟩
      split
      next hk => rw [← hk]; exact hr'
      next => rfl
    · rw [applied_fst_of_changed hold hsame]
      refine ⟨⟨⟨r', hr', ?_⟩, trivial⟩, hstored⟩
      by_cases hnone : r.version = none
      · exact .inl hnone
      · refine .inr fun heq => hsame (sameVersion_eq_true_iff.mpr ⟨hnone, heq.trans hversion⟩)

theorem noneDeletes_applied (known : KnownObjects) (r : Resource) :
    NoneDeletes (known.applied r).1 := by
  rw [applied]
  split
  · simp [NoneDeletes]
  · split <;> simp [NoneDeletes]

theorem Reported.append {cs cs' : List Change} {known' : KnownObjects}
    (hfit : AllFit objects cs) (h : Reported (replayAll objects cs) cs' known') :
    Reported objects (cs ++ cs') known' where
  fit := allFit_append.mpr ⟨hfit, h.fit⟩
  mirrors := by
    rw [replayAll_append]
    exact h.mirrors

/-- By induction on the list: what is reported of its first object is a report, and so is
what comes after. -/
theorem reported_appliedAll (h : Mirrors known objects) (rs : List Resource) :
    Reported objects (known.appliedAll rs).1 (known.appliedAll rs).2 := by
  induction rs generalizing known objects with
  | nil => exact ⟨trivial, h⟩
  | cons r rs ih =>
    have hfirst := reported_applied h r
    exact (ih hfirst.mirrors).append hfirst.fit

theorem noneDeletes_appliedAll (known : KnownObjects) (rs : List Resource) :
    NoneDeletes (known.appliedAll rs).1 := by
  induction rs generalizing known with
  | nil => simp [appliedAll, NoneDeletes]
  | cons r rs ih =>
    intro c hc
    rcases List.mem_append.mp hc with hc | hc
    · exact noneDeletes_applied known r c hc
    · exact ih (known.applied r).2 c hc

/-- Of applied objects with the same key the last one is known, and what was known under other keys
still is. -/
theorem get?_appliedAll (known : KnownObjects) (rs : List Resource) (k : String) :
    (known.appliedAll rs).2.objects.get? k =
      (rs.reverse.find? (·.key = k)).or (known.objects.get? k) := by
  induction rs generalizing known with
  | nil => rfl
  | cons r rs ih =>
    have hrest : (known.appliedAll (r :: rs)).2 = ((known.applied r).2.appliedAll rs).2 := rfl
    rw [hrest, ih, applied_snd, KeyMap.get?_insert, List.reverse_cons, List.find?_append,
      Option.or_assoc]
    by_cases hk : r.key = k
    · simp [hk]
    · simp [hk]

/-! ## New lists -/

/-- The deletions that a new list means. -/
def missing (known : KnownObjects) (rs : List Resource) : List Change :=
  (known.objects.filter fun k _ => !(rs.map Resource.key).contains k).values.map fun r =>
    { action := .delete, object := r }

/-- What a new list leaves of the known objects. -/
def kept (known : KnownObjects) (rs : List Resource) : KnownObjects :=
  { objects := known.objects.filter fun k _ => (rs.map Resource.key).contains k }

theorem restarted_eq (known : KnownObjects) (rs : List Resource) :
    known.restarted rs =
      (known.missing rs ++ ((known.kept rs).appliedAll rs).1,
        ((known.kept rs).appliedAll rs).2) := rfl

theorem allDelete_missing (known : KnownObjects) (rs : List Resource) :
    AllDelete (known.missing rs) := by
  simp [AllDelete, missing]

theorem get?_kept (known : KnownObjects) (rs : List Resource) (k : String) :
    (known.kept rs).objects.get? k =
      if (rs.map Resource.key).contains k then known.objects.get? k else none := by
  rw [kept, KeyMap.get?_filter]
  cases known.objects.get? k with
  | none => simp
  | some r => rw [Option.filter_some]

/-- One object for each key: the keys of the deletions are those of the missing objects. -/
theorem map_key_missing (h : Mirrors known objects) (rs : List Resource) :
    (known.missing rs).map key =
      (known.objects.filter fun k _ => !(rs.map Resource.key).contains k).keys := by
  rw [missing, KeyMap.values, KeyMap.keys, List.map_map, List.map_map]
  refine List.map_congr_left fun e he => ?_
  have hentry := (KeyMap.mem_entries_iff _ e.1 e.2).mp he
  rw [KeyMap.get?_filter, Option.filter_eq_some_iff] at hentry
  exact h.keyed hentry.1

theorem mem_map_key_missing (h : Mirrors known objects) (rs : List Resource) (k : String) :
    k ∈ (known.missing rs).map key ↔
      (known.objects.get? k).isSome ∧ k ∉ rs.map Resource.key := by
  rw [map_key_missing h, KeyMap.mem_keys_iff, KeyMap.get?_filter]
  cases known.objects.get? k with
  | none => simp
  | some r => by_cases hk : k ∈ rs.map Resource.key <;> simp [Option.filter_some, hk]

theorem nodup_map_key_missing (h : Mirrors known objects) (rs : List Resource) :
    ((known.missing rs).map key).Nodup := by
  rw [map_key_missing h]
  exact KeyMap.nodup_keys _

/-! The deletions may come in any order. -/

variable {deletions cs : List Change}

/-- What a new list is reported as: deletions of what it misses, and what comes of its objects. -/
theorem exists_deletions (hcs : Reordered (known.restarted rs).1 cs) :
    ∃ deletions, cs = deletions ++ ((known.kept rs).appliedAll rs).1 ∧
      (known.missing rs).Perm deletions :=
  Reordered.deletions_first hcs (noneDeletes_appliedAll (known.kept rs) rs)

theorem allDelete_of_perm (hperm : (known.missing rs).Perm deletions) : AllDelete deletions :=
  fun c hc => allDelete_missing known rs c (hperm.mem_iff.mpr hc)

theorem mem_map_key_of_perm (h : Mirrors known objects)
    (hperm : (known.missing rs).Perm deletions) (k : String) :
    k ∈ deletions.map key ↔ (known.objects.get? k).isSome ∧ k ∉ rs.map Resource.key := by
  rw [← (hperm.map key).mem_iff]
  exact mem_map_key_missing h rs k

/-- After the deletions the reader has what is left of the known objects. -/
theorem mirrors_kept (h : Mirrors known objects) (hperm : (known.missing rs).Perm deletions) :
    Mirrors (known.kept rs) (replayAll objects deletions) := by
  refine h.filter (get?_kept known rs) fun k => ?_
  have hkeys := mem_map_key_of_perm h hperm k
  rw [get?_replayAll_deletions (allDelete_of_perm hperm)]
  by_cases hlisted : k ∈ rs.map Resource.key
  · rw [if_neg fun hk => (hkeys.mp hk).2 hlisted, if_pos (List.contains_iff_mem.mpr hlisted)]
  · rw [if_neg fun hk => hlisted (List.contains_iff_mem.mp hk)]
    split
    next => rfl
    next hk =>
      have hunknown : known.objects.get? k = none :=
        Option.not_isSome_iff_eq_none.mp fun hsome => hk (hkeys.mpr ⟨hsome, hlisted⟩)
      exact (h.eq_none_iff k).mpr hunknown

/-! ## Histories -/

/-- What a report comes to, whatever the order of its deletions is. -/
theorem reported_observe (h : Mirrors known objects) (e : WatchEvent) {cs : List Change}
    (hcs : Reordered (known.observe e).1 cs) : Reported objects cs (known.observe e).2 := by
  cases e with
  | applied r =>
    rw [hcs.eq_of_noneDeletes (noneDeletes_applied known r)]
    exact reported_applied h r
  | deleted r =>
    obtain rfl := hcs.eq_singleton
    have herase (m : KeyMap Resource) (k : String) :
        (m.erase r.key).get? k = if k != r.key then m.get? k else none := by
      rw [KeyMap.get?_erase]
      by_cases hk : r.key = k
      · simp [hk]
      · simp [hk, Ne.symm hk]
    exact ⟨⟨trivial, trivial⟩, h.filter (herase _) (herase _)⟩
  | restarted rs =>
    obtain ⟨deletions, rfl, hperm⟩ := exists_deletions hcs
    exact (reported_appliedAll (mirrors_kept h hperm) rs).append
      (allFit_deletions (allDelete_of_perm hperm))

end KnownObjects

/-- The known objects after a history of reports, and those of a reader of the changes. -/
inductive Replayed : List WatchEvent → KnownObjects → KeyMap Resource → Prop where
  | start : Replayed [] {} .empty
  | report {events : List WatchEvent} {known : KnownObjects} {objects : KeyMap Resource}
    (h : Replayed events known objects) (e : WatchEvent) {cs : List Change}
    (hcs : Change.Reordered (known.observe e).1 cs) :
    Replayed (events ++ [e]) (known.observe e).2 (Change.replayAll objects cs)

/-- What a watch knows and what a reader has who takes up all its changes as they come. -/
def watchAndReplay (known : KnownObjects) (objects : KeyMap Resource) :
    List WatchEvent → KnownObjects × KeyMap Resource
  | [] => (known, objects)
  | e :: rest =>
    watchAndReplay (known.observe e).2 (Change.replayAll objects (known.observe e).1) rest

/-- Every history can be replayed. -/
theorem Replayed.extend {before : List WatchEvent} {known : KnownObjects}
    {objects : KeyMap Resource} (h : Replayed before known objects) (events : List WatchEvent) :
    Replayed (before ++ events) (watchAndReplay known objects events).1
      (watchAndReplay known objects events).2 := by
  induction events generalizing before known objects with
  | nil => rwa [List.append_nil]
  | cons e events ih =>
    have hrest := ih (h.report e (.refl _))
    rwa [List.append_assoc] at hrest

open Change KnownObjects

variable {events : List WatchEvent} {known : KnownObjects} {objects : KeyMap Resource}

theorem Replayed.mirrors (h : Replayed events known objects) : Mirrors known objects := by
  induction h with
  | start => exact mirrors_empty
  | report _ e hcs ih => exact (reported_observe ih e hcs).mirrors

/-- An object that the reader has in its version brings no change. -/
theorem KnownObjects.Mirrors.observe_same (h : Mirrors known objects) {r old : Resource}
    (hold : objects.get? r.key = some old) (hsome : r.version ≠ none)
    (hversion : r.version = old.version) : (known.observe (.applied r)).1 = [] := by
  have hknown : (known.objects.get? r.key).isSome := by
    rw [← h.present, hold]
    rfl
  obtain ⟨s, hs⟩ := Option.isSome_iff_exists.mp hknown
  have hsame : sameVersion r s = true :=
    sameVersion_eq_true_iff.mpr ⟨hsome, hversion.trans (h.alike hs hold).1⟩
  exact applied_fst_of_same hs hsame

/-- After a new list each listed key is known with the last object that is listed under it. -/
theorem KnownObjects.get?_restarted (known : KnownObjects) (rs : List Resource) (k : String) :
    (known.observe (.restarted rs)).2.objects.get? k = rs.reverse.find? (·.key = k) := by
  rw [observe, restarted_eq, get?_appliedAll, get?_kept]
  by_cases hk : k ∈ rs.map Resource.key
  · obtain ⟨r, hr, hkey⟩ := List.mem_map.mp hk
    have hfound : (rs.reverse.find? (·.key = k)).isSome :=
      List.find?_isSome.mpr ⟨r, List.mem_reverse.mpr hr, decide_eq_true hkey⟩
    exact Option.or_of_isSome hfound
  · rw [if_neg fun hlisted => hk (List.contains_iff_mem.mp hlisted), Option.or_none]

/-- The known keys after a new list are exactly those that are listed. -/
theorem KnownObjects.isSome_restarted (known : KnownObjects) (rs : List Resource) (k : String) :
    ((known.observe (.restarted rs)).2.objects.get? k).isSome ↔ k ∈ rs.map Resource.key := by
  simp [get?_restarted, List.find?_isSome]

/-- Whatever a watch reports, and in whatever order the deletions of a new list come: the
reader always has the known keys, and under each of them an object in the known version, or
the known object itself if it has no version. Each change fits what the reader has just
before it, and an object that the reader has in its version already brings no change. An applied
object is known then, a deleted one is not and is reported as deleted, and nothing else is known in
another way than before. After a new list exactly the listed keys are known, each with its last
object, and its report begins with one deletion for each known key that the list misses. -/
theorem replayed_reports (h : Replayed events known objects) :
    (∀ k, (objects.get? k).isSome = (known.objects.get? k).isSome) ∧
    (∀ k r r', known.objects.get? k = some r → objects.get? k = some r' →
      r'.version = r.version ∧ (r.version = none → r' = r)) ∧
    ∀ e cs, Reordered (known.observe e).1 cs →
      AllFit objects cs ∧
      (∀ r old, e = .applied r → objects.get? r.key = some old → r.version ≠ none →
        r.version = old.version → cs = []) ∧
      (∀ r k, e = .applied r → (known.observe e).2.objects.get? k =
        if r.key = k then some r else known.objects.get? k) ∧
      (∀ r, e = .deleted r → cs = [{ action := .delete, object := r }] ∧
        ∀ k, (known.observe e).2.objects.get? k =
          if r.key = k then none else known.objects.get? k) ∧
      ∀ rs, e = .restarted rs →
        (∀ k, ((known.observe e).2.objects.get? k).isSome ↔ k ∈ rs.map Resource.key) ∧
        (∀ k, (known.observe e).2.objects.get? k = rs.reverse.find? (·.key = k)) ∧
        ∃ deletions rest, cs = deletions ++ rest ∧ AllDelete deletions ∧ NoneDeletes rest ∧
          (deletions.map key).Nodup ∧
          ∀ k, k ∈ deletions.map key ↔
            (known.objects.get? k).isSome ∧ k ∉ rs.map Resource.key := by
  have H := h.mirrors
  refine ⟨H.present, fun k r r' => H.alike, fun e cs hcs => ⟨?_, ?_, ?_, ?_, ?_⟩⟩
  · exact (reported_observe H e hcs).fit
  · rintro r old rfl hold hsome hversion
    rw [H.observe_same hold hsome hversion] at hcs
    exact hcs.eq_of_noneDeletes (by simp [NoneDeletes])
  · rintro r k rfl
    rw [observe, applied_snd, KeyMap.get?_insert]
  · rintro r rfl
    exact ⟨hcs.eq_singleton, fun k => KeyMap.get?_erase ..⟩
  · rintro rs rfl
    obtain ⟨deletions, rfl, hperm⟩ := exists_deletions hcs
    refine ⟨known.isSome_restarted rs, known.get?_restarted rs, deletions, _, rfl,
      allDelete_of_perm hperm, noneDeletes_appliedAll _ rs, ?_, mem_map_key_of_perm H hperm⟩
    exact (hperm.map key).nodup_iff.mp (nodup_map_key_missing H rs)

/-- A pod in some version. -/
def watchedPod (name : String) (version : Option String) : Resource where
  metadata := { name := some name, namespaceName := some "shop", resourceVersion := version }
  content := .pod none none

/-- Three pods are applied, one of them without a version. -/
def watchedStart : List WatchEvent :=
  [.applied (watchedPod "web-0" (some "3")), .applied (watchedPod "web-1" none),
    .applied (watchedPod "web-2" (some "5"))]

/-- A new list misses the first two pods and has the third one twice. -/
def watchedList : List Resource :=
  [watchedPod "web-2" (some "5"), watchedPod "web-2" (some "8"), watchedPod "web-3" none]

/-- What the list means, with the deletions in another order than that of their keys. -/
def watchedChanges : List Change :=
  [{ action := .delete, object := watchedPod "web-1" none },
    { action := .delete, object := watchedPod "web-0" (some "3") },
    { action := .update, object := watchedPod "web-2" (some "8") },
    { action := .create, object := watchedPod "web-3" none }]

/-- The first pod, as it was last. -/
def goneWeb : Resource := watchedPod "web-0" (some "4")

/-- The new list is taken up in this order too. If the first pod is reported as deleted instead, it
is not known any more, and the third one still is. -/
theorem replayed_watchedList :
    let (known, objects) := watchAndReplay {} .empty watchedStart
    (Replayed watchedStart known objects ∧
      Reordered (known.observe (.restarted watchedList)).1 watchedChanges ∧
      Reordered (known.observe (.deleted goneWeb)).1 [{ action := .delete, object := goneWeb }]) ∧
    AllFit objects watchedChanges ∧
    ((known.observe (.restarted watchedList)).2.objects.get? "shop/web-1").isSome = false ∧
    (known.observe (.restarted watchedList)).2.objects.get? "shop/web-2" =
      some (watchedPod "web-2" (some "8")) ∧
    (known.observe (.deleted goneWeb)).2.objects.get? "shop/web-0" = none ∧
    (known.observe (.deleted goneWeb)).2.objects.get? "shop/web-2" =
      some (watchedPod "web-2" (some "5")) := by
  have hreplayed := Replayed.start.extend watchedStart
  have hordered : Reordered ((watchAndReplay {} .empty watchedStart).1.observe
      (.restarted watchedList)).1 watchedChanges := by
    refine ⟨[watchedChanges[1], watchedChanges[0]], [watchedChanges[0], watchedChanges[1]],
      watchedChanges.drop 2, by decide +kernel, by decide +kernel, .swap _ _ [], ?_⟩
    simp [AllDelete, watchedChanges]
  obtain ⟨-, -, hreports⟩ := replayed_reports hreplayed
  obtain ⟨hfit, -, -, -, hlist⟩ := hreports _ _ hordered
  obtain ⟨-, -, -, hdeleted, -⟩ := hreports (.deleted goneWeb) _ (.refl _)
  obtain ⟨hlisted, hlast, -⟩ := hlist _ rfl
  obtain ⟨-, herased⟩ := hdeleted _ rfl
  refine ⟨⟨hreplayed, hordered, .refl _⟩, hfit, Bool.eq_false_iff.mpr fun hsome => ?_, ?_, ?_, ?_⟩
  · exact absurd ((hlisted "shop/web-1").mp hsome) (by decide +kernel)
  · exact (hlast "shop/web-2").trans (by decide +kernel)
  · exact (herased "shop/web-0").trans (if_pos (by decide +kernel))
  · refine (herased "shop/web-2").trans ((if_neg (by decide +kernel)).trans ?_)
    decide +kernel

end Chargeback
