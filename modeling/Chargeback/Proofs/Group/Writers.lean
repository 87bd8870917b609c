import Chargeback.Proofs.Group.Change
import Chargeback.Proofs.Store.Memory

/-!
# Changes at the same time

Any number of changes, of any groups and under any policies, run at the same time over
one store. A move lets one of them take its next step, makes the store conflict or
fail, or begins a further change; the moves come in any order. Changes that share a
process wait for each other besides, which only leaves out some of the orders.

A replacement that succeeds finds the record that its change has read. So what is
stored of a group is its first record with the replaced changes applied to it in turn:
none is lost and none is made twice.

## Main definitions

* `Writers`: a store, the changes that run over it, and the replacements so far.
* `WritersMove`, `Writers.run`: what can happen, and what comes of it.
* `Writers.Accounts`, `Writers.Tallied`: what a stored record says of the replacements,
  and what a call says of them.
* `Writers.Accounted`: the invariant of all runs.
-/

namespace Chargeback

/-- A change that has begun. -/
structure ChangeCall where
  change : GroupChange
  /-- What is left to do. -/
  rest : GroupProgram (Except AggregateError (Option StoredGroup))
  note : ChangeNote := {}

/-- The call after the answer to its request. -/
def ChangeCall.answered (c : ChangeCall) (r : AggregatorRequest)
    (next : AggregatorInterface.Answer r → GroupProgram (Except AggregateError (Option StoredGroup)))
    (a : AggregatorInterface.Answer r) : ChangeCall :=
  { c with rest := next a, note := c.note.after r a }

@[simp] theorem ChangeCall.answered_change (c : ChangeCall) (r : AggregatorRequest)
    (next : AggregatorInterface.Answer r → GroupProgram (Except AggregateError (Option StoredGroup)))
    (a : AggregatorInterface.Answer r) : (c.answered r next a).change = c.change := rfl

/-- A replacement that succeeded. -/
structure Replacement where
  /-- The place of the call among all calls. -/
  call : Nat
  change : GroupChange
  /-- What the clock had shown to the call. -/
  time : Instant

/-- What a replacement makes of the record: the change, and the forgetting of windows
that ended before the month. -/
def Replacement.apply (s : GroupSpec) (e : Replacement) : GroupSpec :=
  (e.change.apply s).pruneActivity (Month.start e.time)

/-- The replacement that an answer stands for, if it does. -/
def ChangeCall.replacement? (c : ChangeCall) (i : Nat) :
    (r : AggregatorRequest) → AggregatorInterface.Answer r → Option Replacement
  | .store (.replace _), .ok _ => c.note.time.map fun time => { call := i, change := c.change, time }
  | _, _ => none

theorem ChangeCall.replacement?_error (c : ChangeCall) (i : Nat) (r : StoreRequest)
    (e : StoreError) : c.replacement? i (.store r) (.error e) = none := by
  cases r <;> rfl

/-- A store in memory, and the changes that run over it. -/
structure Writers where
  memory : MemoryStore
  /-- All calls so far, the finished ones too. -/
  calls : List ChangeCall := []
  /-- The replacements that succeeded, in their order. -/
  replaced : List Replacement := []

/-- What can happen next. -/
inductive WritersMove where
  | begin (p : RetryPolicy) (c : GroupChange)
  /-- A call takes its next step, while the clock shows the given time. -/
  | advance (call : Nat) (now : Instant)
  | injectConflicts (n : Nat)
  | injectFailures (n : Nat)

namespace Writers

/-- The answer to a request of a call. -/
def answer (now : Instant) :
    (r : AggregatorRequest) → MemoryStore → AggregatorInterface.Answer r × MemoryStore
  | .store r, m => m.answer r
  | .pause _, m => ((), m)
  | .clock, m => (now, m)

/-- The next step of a call at its place; none if it has finished. -/
def advance (w : Writers) (i : Nat) (c : ChangeCall) (now : Instant) : Writers :=
  match c.rest with
  | .done _ => w
  | .call r next =>
    let (a, memory) := answer now r w.memory
    { memory
      calls := w.calls.set i (c.answered r next a)
      replaced := w.replaced ++ (c.replacement? i r a).toList }

/-- What comes of a move. -/
def move (w : Writers) : WritersMove → Writers
  | .begin p c => { w with calls := w.calls ++ [{ change := c, rest := c.program p }] }
  | .advance i now =>
    match w.calls[i]? with
    | some c => w.advance i c now
    | none => w
  | .injectConflicts n => { w with memory := w.memory.injectConflicts n }
  | .injectFailures n => { w with memory := w.memory.injectFailures n }

/-- What comes of moves one after the other. -/
def run (w : Writers) (moves : List WritersMove) : Writers := moves.foldl move w

/-! ## Accounts -/

/-- The changes that have been asked for. -/
def changes (w : Writers) : List GroupChange := w.calls.map ChangeCall.change

/-- The replacements of one group, in their order. -/
def replacedIn (w : Writers) (name : String) : List Replacement :=
  w.replaced.filter fun e => e.change.name = name

/-- The number of replacements that a call has made. -/
def timesReplaced (w : Writers) (i : Nat) : Nat := w.replaced.countP fun e => e.call = i

/-- The first record of a group: the one that was stored from the beginning, or else
the empty one that some change of the group created. -/
def Origin (m₀ : MemoryStore) (changes : List GroupChange) (name : String) (s : GroupSpec) : Prop :=
  match m₀.groups.get? name with
  | some g => s = g.spec
  | none => ∃ c ∈ changes, c.name = name ∧ ∃ type, c.createAs = some type ∧ s = .new name type

/-- What is stored of a group is its first record with all its replacements applied in
turn; and what is not stored has neither been there nor been replaced. -/
def Accounts (m₀ : MemoryStore) (w : Writers) (name : String) : Prop :=
  match w.memory.groups.get? name with
  | some g =>
    ∃ s, Origin m₀ w.changes name s ∧ g.spec = (w.replacedIn name).foldl Replacement.apply s
  | none => m₀.groups.get? name = none ∧ w.replacedIn name = []

/-- The invariant of all runs from a store. -/
structure Accounted (m₀ : MemoryStore) (w : Writers) : Prop where
  sound : w.memory.Sound
  obeys : ∀ c ∈ w.calls, c.rest.Obeys c.change.protocol c.change.Ended c.note
  remembers : ∀ c ∈ w.calls, ∀ g, c.note.read = some (some g) →
    w.memory.Remembers c.change.name g
  counted : ∀ i c, w.calls[i]? = some c → w.timesReplaced i = c.note.written
  asked : ∀ e ∈ w.replaced, w.changes[e.call]? = some e.change
  accounts : ∀ name, Accounts m₀ w name

variable {m₀ memory : MemoryStore} {w : Writers} {i : Nat} {c c' : ChangeCall} {name : String}

theorem Origin.mono {cs ds : List GroupChange} {s : GroupSpec} (h : Origin m₀ cs name s)
    (hsub : ∀ c ∈ cs, c ∈ ds) : Origin m₀ ds name s := by
  unfold Origin at h ⊢
  split
  next g hg => rwa [hg] at h
  next hg =>
    rw [hg] at h
    obtain ⟨c, hc, hrest⟩ := h
    exact ⟨c, hsub c hc, hrest⟩

theorem accounts_of_stored {g : StoredGroup} (s : GroupSpec)
    (hg : w.memory.groups.get? name = some g) (hs : Origin m₀ w.changes name s)
    (hspec : g.spec = (w.replacedIn name).foldl Replacement.apply s) : Accounts m₀ w name := by
  rw [Accounts, hg]
  exact ⟨s, hs, hspec⟩

/-- An account stays right when nothing of the group is written. -/
theorem Accounts.frame {w' : Writers} (h : Accounts m₀ w name)
    (hgroup : w'.memory.groups.get? name = w.memory.groups.get? name)
    (hchanges : ∀ c ∈ w.changes, c ∈ w'.changes) (hreplaced : w'.replacedIn name = w.replacedIn name) :
    Accounts m₀ w' name := by
  unfold Accounts at h ⊢
  rw [hgroup, hreplaced]
  split
  next g hg =>
    rw [hg] at h
    obtain ⟨s, hs, hspec⟩ := h
    exact ⟨s, hs.mono hchanges, hspec⟩
  next hg => rwa [hg] at h

theorem changes_set (hi : w.calls[i]? = some c) (hc : c'.change = c.change) :
    (w.calls.set i c').map ChangeCall.change = w.changes := by
  rw [List.map_set, hc, changes]
  refine List.ext_getElem? fun j => ?_
  rw [List.getElem?_set]
  split
  next hj =>
    subst hj
    rw [List.length_map, List.getElem?_map, hi, if_pos (List.getElem?_eq_some_iff.mp hi).1]
    rfl
  next => rfl

/-! ## Steps -/

theorem accounted_begin (H : Accounted m₀ w) (p : RetryPolicy) (c : GroupChange) :
    Accounted m₀ (w.move (.begin p c)) := by
  have hchanges : (w.move (.begin p c)).changes = w.changes ++ [c] := by
    simp [move, changes]
  have hlength : w.changes.length = w.calls.length := List.length_map _
  refine ⟨H.sound, ?_, ?_, ?_, ?_, ?_⟩
  · intro d hd
    rcases List.mem_append.mp hd with hd | hd
    · exact H.obeys d hd
    · rw [List.mem_singleton.mp hd]
      exact c.program_obeys p
  · intro d hd g hg
    rcases List.mem_append.mp hd with hd | hd
    · exact H.remembers d hd g hg
    · rw [List.mem_singleton.mp hd] at hg
      cases hg
  · intro j d hd
    simp only [move, List.getElem?_append, List.getElem?_singleton] at hd
    split at hd
    next => exact H.counted j d hd
    next hj =>
      -- The new call stands behind all calls that have replaced anything.
      have hnone : w.timesReplaced j = 0 := by
        refine List.countP_eq_zero.mpr fun e he => ?_
        have hlt := (List.getElem?_eq_some_iff.mp (H.asked e he)).1
        simp only [decide_eq_true_eq]
        omega
      split at hd
      next => cases hd; exact hnone
      next => cases hd
  · intro e he
    have hlt := (List.getElem?_eq_some_iff.mp (H.asked e he)).1
    rw [hchanges, List.getElem?_append_left hlt]
    exact H.asked e he
  · intro name
    refine (H.accounts name).frame rfl (fun d hd => ?_) rfl
    rw [hchanges]
    exact List.mem_append_left _ hd

theorem accounted_memory (H : Accounted m₀ w) (hs : w.memory.SameRecords memory) :
    Accounted m₀ { w with memory } where
  sound := H.sound.sameRecords hs
  obeys := H.obeys
  remembers c hc g hg := (H.remembers c hc g hg).sameRecords hs
  counted := H.counted
  asked := H.asked
  accounts name := (H.accounts name).frame (by rw [hs.groups_eq]) (fun _ h => h) rfl

/-- What stands in a group that is not written is accounted for as before. -/
theorem Accounts.other {es : List Replacement} (h : Accounts m₀ w name) (hi : w.calls[i]? = some c)
    (hchange : c'.change = c.change) (hgroup : memory.groups.get? name = w.memory.groups.get? name)
    (hes : ∀ e ∈ es, e.change.name ≠ name) :
    Accounts m₀ { memory, calls := w.calls.set i c', replaced := w.replaced ++ es } name := by
  refine h.frame hgroup (fun d hd => ?_) ?_
  · change d ∈ (w.calls.set i c').map ChangeCall.change
    rwa [changes_set hi hchange]
  · have hnone : es.filter (fun e => e.change.name = name) = [] :=
      List.filter_eq_nil_iff.mpr fun e he => by simpa using hes e he
    rw [replacedIn, List.filter_append, hnone, List.append_nil, replacedIn]

/-- Replacements of one call count for that call only. -/
theorem timesReplaced_append {es : List Replacement} (hes : ∀ e ∈ es, e.call = i) (j : Nat) :
    (w.replaced ++ es).countP (fun e => e.call = j) =
      w.timesReplaced j + if i = j then es.length else 0 := by
  rw [List.countP_append, ← timesReplaced]
  split
  next hj => rw [List.countP_eq_length.mpr fun e he => by simpa [hj] using hes e he]
  next hj => rw [List.countP_eq_zero.mpr fun e he => by simpa [hes e he] using hj]

/-- A step of a call, with what it has to show: that the call still obeys, that what it
has read is remembered, and that its replacement is counted and accounted for. -/
theorem Accounted.step {es : List Replacement} (H : Accounted m₀ w) (hi : w.calls[i]? = some c)
    (hchange : c'.change = c.change) (hobeys : c'.rest.Obeys c.change.protocol c.change.Ended c'.note)
    (hsound : memory.Sound)
    (hremembers : ∀ {name g}, w.memory.Remembers name g → memory.Remembers name g)
    (hread : ∀ g, c'.note.read = some (some g) → memory.Remembers c.change.name g)
    (hes : ∀ e ∈ es, e.call = i ∧ e.change = c.change)
    (hcount : c'.note.written = c.note.written + es.length)
    (hother : ∀ name, c.change.name ≠ name →
      memory.groups.get? name = w.memory.groups.get? name)
    (haccounts : Accounts m₀
      { memory, calls := w.calls.set i c', replaced := w.replaced ++ es } c.change.name) :
    Accounted m₀ { memory, calls := w.calls.set i c', replaced := w.replaced ++ es } := by
  have hlt : i < w.calls.length := (List.getElem?_eq_some_iff.mp hi).1
  refine ⟨hsound, ?_, ?_, ?_, ?_, ?_⟩
  · intro d hd
    rcases List.mem_or_eq_of_mem_set hd with hd | rfl
    · exact H.obeys d hd
    · rw [hchange]
      exact hobeys
  · intro d hd g hg
    rcases List.mem_or_eq_of_mem_set hd with hd | rfl
    · exact hremembers (H.remembers d hd g hg)
    · rw [hchange]
      exact hread g hg
  · intro j d hd
    rw [timesReplaced, timesReplaced_append fun e he => (hes e he).1]
    rw [List.getElem?_set] at hd
    by_cases hj : i = j
    · subst hj
      rw [if_pos rfl, if_pos hlt] at hd
      cases hd
      rw [if_pos rfl, hcount, H.counted i c hi]
    · rw [if_neg hj] at hd
      rw [if_neg hj]
      exact H.counted j d hd
  · intro e he
    change ((w.calls.set i c').map ChangeCall.change)[e.call]? = some e.change
    rw [changes_set hi hchange]
    rcases List.mem_append.mp he with he | he
    · exact H.asked e he
    · obtain ⟨hcall, hsame⟩ := hes e he
      rw [hcall, hsame, changes, List.getElem?_map, hi]
      rfl
  · intro name
    by_cases hname : c.change.name = name
    · subst hname
      exact haccounts
    · refine (H.accounts name).other hi hchange (hother name hname) fun e he => ?_
      rw [(hes e he).2]
      exact hname

/-- A step that writes nothing only has to show that what it has read is remembered. -/
theorem Accounted.quiet (H : Accounted m₀ w) (hi : w.calls[i]? = some c)
    (hchange : c'.change = c.change) (hobeys : c'.rest.Obeys c.change.protocol c.change.Ended c'.note)
    (hs : w.memory.SameRecords memory) (hwritten : c'.note.written = c.note.written)
    (hread : ∀ g, c'.note.read = some (some g) → w.memory.Remembers c.change.name g) :
    Accounted m₀ { memory, calls := w.calls.set i c', replaced := w.replaced ++ [] } := by
  have hgroup (name : String) : memory.groups.get? name = w.memory.groups.get? name := by
    rw [hs.groups_eq]
  refine H.step hi hchange hobeys (H.sound.sameRecords hs) (·.sameRecords hs)
    (fun g hg => (hread g hg).sameRecords hs) (by simp) hwritten (fun name _ => hgroup name) ?_
  exact (H.accounts c.change.name).other hi hchange (hgroup _) (by simp)

/-- A created record is the first one of its group. -/
theorem Accounted.create (H : Accounted m₀ w) (hi : w.calls[i]? = some c)
    (hchange : c'.change = c.change) (hobeys : c'.rest.Obeys c.change.protocol c.change.Ended c'.note)
    {g : StoredGroup} {type : GroupType} (htype : c.change.createAs = some type)
    (hg : g = .new c.change.name (.new c.change.name type))
    (habsent : w.memory.groups.get? c.change.name = none)
    (hwritten : c'.note.written = c.note.written)
    (hread : c'.note.read = some (some (w.memory.write g).1)) :
    Accounted m₀
      { memory := (w.memory.write g).2, calls := w.calls.set i c', replaced := w.replaced ++ [] } := by
  have hname : g.name = c.change.name := by rw [hg]; rfl
  have hsound := H.sound.write g
  have hstored := w.memory.get?_write_self hname
  have haccounts := H.accounts c.change.name
  simp only [Accounts, habsent] at haccounts
  obtain ⟨hfirst, hnone⟩ := haccounts
  refine H.step hi hchange hobeys hsound (·.write g) (fun g' hg' => ?_) (by simp) hwritten
    (fun name hne => w.memory.get?_write_of_ne (hname ▸ hne))
    (accounts_of_stored (.new c.change.name type) hstored ?_ ?_)
  · rw [hread] at hg'
    cases hg'
    exact hsound.remembers hstored
  · rw [Origin, hfirst]
    refine ⟨c.change, ?_, rfl, type, htype, rfl⟩
    change c.change ∈ (w.calls.set i c').map ChangeCall.change
    rw [changes_set hi hchange]
    exact List.mem_map_of_mem (List.mem_of_getElem? hi)
  · rw [List.append_nil]
    change _ = (w.replacedIn c.change.name).foldl _ _
    rw [hnone, hg]
    rfl

/-- A replaced record is the one before with one more change. -/
theorem Accounted.replace (H : Accounted m₀ w) (hi : w.calls[i]? = some c)
    (hchange : c'.change = c.change) (hobeys : c'.rest.Obeys c.change.protocol c.change.Ended c'.note)
    {g : StoredGroup} (hg : w.memory.groups.get? c.change.name = some g) (time : Instant)
    (hwritten : c'.note.written = c.note.written + 1) (hread : c'.note.read = c.note.read) :
    Accounted m₀
      { memory := (w.memory.write (Aggregator.changed c.change.apply time g)).2
        calls := w.calls.set i c'
        replaced := w.replaced ++ [{ call := i, change := c.change, time }] } := by
  have hname : g.name = c.change.name := H.sound.named hg
  have hstored : (w.memory.write (Aggregator.changed c.change.apply time g)).2.groups.get?
      c.change.name = _ := w.memory.get?_write_self hname
  have haccounts := H.accounts c.change.name
  simp only [Accounts, hg] at haccounts
  obtain ⟨s, hs, hspec⟩ := haccounts
  refine H.step hi hchange hobeys (H.sound.write _) (·.write _) (fun g' hg' => ?_)
    (fun e he => ?_) hwritten (fun name hne => w.memory.get?_write_of_ne ?_)
    (accounts_of_stored s hstored ?_ ?_)
  · exact (H.remembers c (List.mem_of_getElem? hi) g' (hread ▸ hg')).write _
  · rw [List.mem_singleton.mp he]
    exact ⟨rfl, rfl⟩
  · exact hname ▸ hne
  · refine hs.mono fun d hd => ?_
    change d ∈ (w.calls.set i c').map ChangeCall.change
    rwa [changes_set hi hchange]
  · have hself (e : Replacement) (he : e.change = c.change) :
        [e].filter (fun e => e.change.name = c.change.name) = [e] :=
      List.filter_cons_of_pos (by rw [he, decide_eq_true_eq])
    rw [replacedIn, List.filter_append, hself _ rfl, List.foldl_append, ← replacedIn, ← hspec]
    rfl

/-! ## Calls -/

theorem advance_call {r : AggregatorRequest}
    {next : AggregatorInterface.Answer r → GroupProgram (Except AggregateError (Option StoredGroup))}
    (hrest : c.rest = .call r next) (now : Instant) :
    w.advance i c now =
      { memory := (answer now r w.memory).2
        calls := w.calls.set i (c.answered r next (answer now r w.memory).1)
        replaced := w.replaced ++ (c.replacement? i r (answer now r w.memory).1).toList } := by
  rw [advance, hrest]

/-- What the protocol allows is all that a call of the store needs: what is written is the
changed record that was read last, and by its version that one is still stored. -/
theorem Accounted.carried (H : Accounted m₀ w) (hi : w.calls[i]? = some c) {r : StoreRequest}
    {a : r.Answer} {next : r.Answer → GroupProgram (Except AggregateError (Option StoredGroup))}
    (hallowed : Aggregator.Allowed c.change.name c.change.createAs c.change.apply c.note (.store r))
    (hnext : (next a).Obeys c.change.protocol c.change.Ended (c.note.after (.store r) a))
    (hcarried : w.memory.Carried r a memory) :
    Accounted m₀
      { memory
        calls := w.calls.set i (c.answered (.store r) next a)
        replaced := w.replaced ++ (c.replacement? i (.store r) a).toList } := by
  have hchange := c.answered_change (.store r) next a
  cases hcarried with
  | list => exact hallowed.elim
  | get name =>
    obtain rfl : name = c.change.name := hallowed
    refine H.quiet hi hchange hnext (.refl _) rfl fun g hg => ?_
    exact H.sound.remembers (Option.some_inj.mp hg)
  | create habsent =>
    obtain ⟨type, htype, rfl⟩ := hallowed
    exact H.create hi hchange hnext htype rfl habsent rfl rfl
  | replace hcurrent hversion =>
    obtain ⟨g, time, hread, htime, rfl⟩ := hallowed
    have hremembers := H.remembers c (List.mem_of_getElem? hi) g hread
    have hname : g.name = c.change.name := hremembers.name_eq
    have hstored := hname ▸ hcurrent
    obtain rfl := hremembers.eq_of_version hstored hversion
    simp only [ChangeCall.replacement?, htime, Option.map_some, Option.toList_some]
    exact H.replace hi hchange hnext hstored time rfl rfl

theorem accounted_advance (H : Accounted m₀ w) (hi : w.calls[i]? = some c) (now : Instant) :
    Accounted m₀ (w.advance i c now) := by
  have hc : c ∈ w.calls := List.mem_of_getElem? hi
  cases hrest : c.rest with
  | done r => rwa [advance, hrest]
  | call r next =>
    have hobeys := H.obeys c hc
    rw [hrest] at hobeys
    obtain ⟨⟨-, hallowed⟩, hnext⟩ := hobeys
    have hkept (g : StoredGroup) (hg : c.note.read = some (some g)) :
        w.memory.Remembers c.change.name g := H.remembers c hc g hg
    rw [advance_call hrest]
    cases r with
    | clock => exact H.quiet hi rfl (hnext now) (.refl _) rfl hkept
    | pause k => exact H.quiet hi rfl (hnext ()) (.refl _) rfl hkept
    | store r =>
      rcases MemoryStore.answer_cases r w.memory with hcarried | ⟨e, herror, hs⟩
      · exact H.carried hi hallowed (hnext _) hcarried
      · have hnote := c.note.after_error r e
        have hafter := hnext (.error e)
        simp only [answer, herror, c.replacement?_error, Option.toList_none]
        refine H.quiet hi (c.answered_change _ next _) hafter hs ?_ ?_
        · exact congrArg ChangeNote.written hnote
        · intro g hg
          exact hkept g (hnote ▸ hg)

/-! ## Runs -/

theorem accounted_new (h : m₀.Sound) : Accounted m₀ { memory := m₀ } where
  sound := h
  obeys c hc := nomatch hc
  remembers c hc := nomatch hc
  counted i c hc := nomatch hc
  asked e he := nomatch he
  accounts name := by
    unfold Accounts
    split
    next g hg =>
      refine ⟨g.spec, ?_, rfl⟩
      rw [Origin, show m₀.groups.get? name = some g from hg]
    next hg => exact ⟨hg, rfl⟩

/-- Whatever happens next, all is accounted for. -/
theorem accounted_move (H : Accounted m₀ w) (e : WritersMove) : Accounted m₀ (w.move e) := by
  cases e with
  | begin p c => exact accounted_begin H p c
  | advance i now =>
    simp only [move]
    cases hi : w.calls[i]? with
    | some c => exact accounted_advance H hi now
    | none => exact H
  | injectConflicts n => exact accounted_memory H ⟨rfl, rfl, rfl⟩
  | injectFailures n => exact accounted_memory H ⟨rfl, rfl, rfl⟩

/-- By induction on the moves. -/
theorem accounted_run (H : Accounted m₀ w) (moves : List WritersMove) :
    Accounted m₀ (w.run moves) := by
  induction moves generalizing w with
  | nil => exact H
  | cons e moves ih => exact ih (accounted_move H e)

/-- How often a call has replaced its group: once, or not at all when the record it had
read stays what it is; and not at all as long as it has not ended, or if it has failed. -/
def Tallied (w : Writers) (i : Nat) (c : ChangeCall) : Prop :=
  match c.rest with
  | .done (.ok r) =>
    w.timesReplaced i = 1 ∨
      w.timesReplaced i = 0 ∧ c.note.read = some r ∧
        ∀ g, r = some g → ∃ t, c.note.time = some t ∧ Aggregator.changed c.change.apply t g = g
  | .done (.error _) => w.timesReplaced i = 0
  | .call _ _ => w.timesReplaced i = 0

theorem Accounted.tallied (H : Accounted m₀ w) (hi : w.calls[i]? = some c) : Tallied w i c := by
  have hobeys := H.obeys c (List.mem_of_getElem? hi)
  rw [Tallied, H.counted i c hi]
  cases hrest : c.rest with
  | call r next =>
    rw [hrest] at hobeys
    exact hobeys.1.1
  | done result =>
    rw [hrest] at hobeys
    cases result with
    | error e => exact hobeys
    | ok r =>
      rcases hobeys with ⟨hwritten, -⟩ | h
      · exact .inl hwritten
      · exact .inr h

/-- At all times what is stored of a group is its first record with the replaced changes
applied to it in turn, each of them once for its call; and a call that ended well has
replaced its group once or had nothing to change, all others have not replaced it. -/
theorem run_accounts (h : m₀.Reachable) (moves : List WritersMove) :
    let w := Writers.run { memory := m₀ } moves
    (∀ name, Accounts m₀ w name) ∧
      (∀ e ∈ w.replaced, w.changes[e.call]? = some e.change) ∧
      ∀ i c, w.calls[i]? = some c → Tallied w i c := by
  intro w
  have H : Accounted m₀ w := accounted_run (accounted_new h.sound) moves
  exact ⟨H.accounts, H.asked, fun i c hi => H.tallied hi⟩

/-- Two changes of one missing group. Both find that it is missing, the first one
creates it, the second one replaces it before the first one does, and a failure of the
store comes on top. -/
def racingMoves : List WritersMove :=
  let usage (cpu : UInt64) : MemberUsage :=
    { metric := { cpuRequest := cpu }, storageBytes := 0, started := ⟨0, 0⟩ }
  [.begin {} (.upsert "ns-shop" .byNamespace "web-0" (usage 100)),
    .begin {} (.upsert "ns-shop" .byNamespace "web-1" (usage 250))] ++
    [0, 1, 0, 1, 1, 1, 1, 0, 0].map (.advance · ⟨0, 0⟩) ++ [.injectFailures 1] ++
    [0, 0, 0, 0, 0].map (.advance · ⟨0, 0⟩)

theorem racing_accounted :
    MemoryStore.Reachable {} ∧
      (Writers.run { memory := {} } racingMoves).replaced.map Replacement.call = [1, 0] ∧
      Accounts {} (Writers.run { memory := {} } racingMoves) "ns-shop" ∧
      ∀ i c, (Writers.run { memory := {} } racingMoves).calls[i]? = some c →
        Tallied (Writers.run { memory := {} } racingMoves) i c := by
  have h := run_accounts (.empty []) racingMoves
  exact ⟨.empty [], by decide +kernel, h.1 "ns-shop", h.2.2⟩

end Writers

end Chargeback
