import Chargeback.Group.Aggregator
import Chargeback.Proofs.Program.Protocol

/-!
# How a group is changed

A change of a group reads the record, and reads it again after each attempt that was
refused. What it writes is always the changed record that it has read last, without
the windows that ended before the month of the clock; and it writes no more once a
replacement has succeeded. This holds whatever the answers are: whether calls fail
and whether others write meanwhile does not matter here.

## Main definitions

* `GroupChange`: the two changes of a membership, as one program.
* `ChangeNote`: what a change knows of the record, and how often it has written.
* `GroupChange.protocol`: what a change may ask for.
* `GroupChange.program_obeys`: a change keeps to its protocol.
-/

namespace Chargeback

/-- A change of a membership. -/
inductive GroupChange where
  | upsert (name : String) (type : GroupType) (key : String) (usage : MemberUsage)
  | remove (name key : String) (ended : Instant)

namespace GroupChange

/-- The name of the group. -/
def name : GroupChange → String
  | upsert name .. => name
  | remove name .. => name

/-- The type with which a missing group is created, if it is to be created. -/
def createAs : GroupChange → Option GroupType
  | upsert _ type .. => some type
  | remove .. => none

/-- What becomes of the record. -/
def apply : GroupChange → GroupSpec → GroupSpec
  | upsert _ _ key usage, s => s.upsertMember key usage
  | remove _ key ended, s => s.removeMember key ended

/-- The program that makes the change. -/
def program (p : RetryPolicy) :
    GroupChange → GroupProgram (Except AggregateError (Option StoredGroup))
  | upsert name type key usage => do
    match ← Aggregator.upsert p name type key usage with
    | .ok g => pure (.ok (some g))
    | .error e => pure (.error e)
  | remove name key ended => Aggregator.remove p name key ended

end GroupChange

/-- What a change knows, and how often it has written. -/
structure ChangeNote where
  /-- What was read last: a group, or that there is none. -/
  read : Option (Option StoredGroup) := none
  /-- What the clock showed last. -/
  time : Option Instant := none
  /-- How many replacements have succeeded. -/
  written : Nat := 0

namespace ChangeNote

/-- The note after an answer. -/
def after (n : ChangeNote) : (r : AggregatorRequest) → AggregatorInterface.Answer r → ChangeNote
  | .store (.get _), .ok g => { n with read := some g }
  | .store (.create _), .ok g => { n with read := some (some g) }
  | .store (.replace _), .ok _ => { n with written := n.written + 1 }
  | .clock, t => { n with time := some t }
  | _, _ => n

/-- A failure is not worth a note. -/
theorem after_error (n : ChangeNote) (r : StoreRequest) (e : StoreError) :
    n.after (.store r) (.error e) = n := by
  cases r <;> rfl

end ChangeNote

namespace Aggregator

variable {p : RetryPolicy} {name : String} {createAs : Option GroupType}
  {change : GroupSpec → GroupSpec} {n : ChangeNote}

/-- What is made of a record that was read: it is changed, and loses the windows that
ended before the month of the given time. -/
def changed (change : GroupSpec → GroupSpec) (time : Instant) (g : StoredGroup) : StoredGroup :=
  { g with spec := (change g.spec).pruneActivity (Month.start time) }

/-- What a change of a group may ask for before it has written. -/
def Allowed (name : String) (createAs : Option GroupType) (change : GroupSpec → GroupSpec)
    (n : ChangeNote) : AggregatorRequest → Prop
  | .store (.get key) => key = name
  | .store (.create g) => ∃ type, createAs = some type ∧ g = .new name (.new name type)
  | .store (.replace g) => ∃ g₀ t, n.read = some (some g₀) ∧ n.time = some t ∧ g = changed change t g₀
  | .store .list => False
  | .pause _ => True
  | .clock => True

/-- The protocol of a change: nothing more is asked for after a replacement. -/
def changeProtocol (name : String) (createAs : Option GroupType) (change : GroupSpec → GroupSpec) :
    Protocol AggregatorInterface ChangeNote where
  allows n r := n.written = 0 ∧ Allowed name createAs change n r
  after := ChangeNote.after

/-- How a change ends: with one replacement; or with none, when the record that was
read is missing or stays what it is; or with a failure, and then with none. -/
def Ended (change : GroupSpec → GroupSpec) (n : ChangeNote) :
    Except AggregateError (Option StoredGroup) → Prop
  | .ok r =>
    n.written = 1 ∧ r.isSome ∨
      n.written = 0 ∧ n.read = some r ∧ ∀ g, r = some g → ∃ t, n.time = some t ∧ changed change t g = g
  | .error _ => n.written = 0

/-! ## Reads -/

/-- A call is repeated only while the note keeps what it started with, and its last
answer is the result. -/
theorem retryFrom_obeys {N : Type} {P : Protocol AggregatorInterface N} {inv : N → Prop}
    {r : StoreRequest} (hallow : ∀ m, inv m → P.allows m (.store r))
    (hfail : ∀ m e, inv m → inv (P.after m (.store r) (.error e)))
    (hpause : ∀ m k, inv m → P.allows m (.pause k) ∧ inv (P.after m (.pause k) ()))
    (attempt left : Nat) {n : N} (hn : inv n) :
    (retryFrom p r attempt left).Obeys P
      (fun m a => ∃ m₀, inv m₀ ∧ m = P.after m₀ (.store r) a) n := by
  induction left generalizing attempt n with
  | zero => exact ⟨hallow n hn, fun a => ⟨n, hn, rfl⟩⟩
  | succ left ih =>
    refine ⟨hallow n hn, fun a => ?_⟩
    cases a with
    | ok v => exact ⟨n, hn, rfl⟩
    | error e =>
      have hm := hfail n e hn
      by_cases he : e.isRetryable
      · simp only [Program.done_bind, he, if_true]
        exact ⟨(hpause _ _ hm).1, fun _ => ih (attempt + 1) (hpause _ _ hm).2⟩
      · simp only [Program.done_bind, he]
        exact ⟨n, hn, rfl⟩

/-- A read repeats its call as long as nothing has been written. -/
theorem retrying_obeys (r : StoreRequest)
    (hallow : ∀ m, Allowed name createAs change m (.store r)) (hn : n.written = 0) :
    (retrying p r).Obeys (changeProtocol name createAs change)
      (fun m a => ∃ m₀ : ChangeNote, m₀.written = 0 ∧ m = m₀.after (.store r) a) n := by
  let P := changeProtocol name createAs change
  have hstart : ∀ m : ChangeNote, m.written = 0 → P.allows m (.store r) :=
    fun m hm => ⟨hm, hallow m⟩
  have hkeep : ∀ (m : ChangeNote) e, m.written = 0 → (P.after m (.store r) (.error e)).written = 0 :=
    fun m e hm => (congrArg ChangeNote.written (m.after_error r e)).trans hm
  have hpause : ∀ (m : ChangeNote) k, m.written = 0 →
      P.allows m (.pause k) ∧ (P.after m (.pause k) ()).written = 0 :=
    fun m k hm => ⟨⟨hm, trivial⟩, hm⟩
  exact retryFrom_obeys hstart hkeep hpause 1 p.retries hn

/-- Nothing has been written, and what was read is the record of the note. -/
def HasRead (n : ChangeNote) (a : Except AggregateError (Option StoredGroup)) : Prop :=
  n.written = 0 ∧ ∀ g, a = .ok g → n.read = some g

theorem get_obeys (hn : n.written = 0) :
    (get p name).Obeys (changeProtocol name createAs change) HasRead n := by
  refine (retrying_obeys (.get name) (fun _ => rfl) hn).bind ?_
  rintro _ (e | g) ⟨m, hm, rfl⟩
  · exact ⟨hm, fun g h => by cases h⟩
  · exact ⟨hm, fun g h => by cases h; rfl⟩

theorem getExisting_obeys (hn : n.written = 0) :
    (getExisting p name).Obeys (changeProtocol name createAs change)
      (fun m a => HasRead m (a.map some)) n := by
  refine (get_obeys hn).bind ?_
  rintro m (e | _ | g) ⟨hm, hread⟩
  · exact ⟨hm, fun g h => by cases h⟩
  · exact ⟨hm, fun g h => by cases h⟩
  · exact ⟨hm, fun g' h => by cases h; exact hread _ rfl⟩

theorem getOrCreate_obeys {type : GroupType} (htype : createAs = some type) (hn : n.written = 0) :
    (getOrCreate p name type).Obeys (changeProtocol name createAs change)
      (fun m a => HasRead m (a.map some)) n := by
  refine (get_obeys hn).bind ?_
  rintro m (e | _ | g) ⟨hm, hread⟩
  · exact ⟨hm, fun g h => by cases h⟩
  · have hallow (m : ChangeNote) :
        Allowed name createAs change m (.store (.create (.new name (.new name type)))) :=
      ⟨type, htype, rfl⟩
    refine (retrying_obeys _ hallow hm).bind ?_
    rintro _ (e | g) ⟨m₀, hm₀, rfl⟩
    · cases e with
      | alreadyExists _ => exact getExisting_obeys hm₀
      | notFound _ => exact ⟨hm₀, fun g h => by cases h⟩
      | conflict _ => exact ⟨hm₀, fun g h => by cases h⟩
      | transient _ => exact ⟨hm₀, fun g h => by cases h⟩
      | serialization _ => exact ⟨hm₀, fun g h => by cases h⟩
      | other _ => exact ⟨hm₀, fun g h => by cases h⟩
    · exact ⟨hm₀, fun g' h => by cases h; rfl⟩
  · exact ⟨hm, fun g' h => by cases h; exact hread _ rfl⟩

theorem current_obeys (hn : n.written = 0) :
    (current p name createAs).Obeys (changeProtocol name createAs change) HasRead n := by
  cases createAs with
  | none => exact get_obeys hn
  | some type =>
    refine (getOrCreate_obeys rfl hn).bind ?_
    rintro m (e | g) h
    · exact ⟨h.1, fun g h => by cases h⟩
    · exact h

/-! ## Writes -/

/-- What holds after an attempt: it has ended the change, or nothing was written. -/
def Attempted (change : GroupSpec → GroupSpec) (n : ChangeNote) : Attempt → Prop
  | .finished result => Ended change n result
  | .refused _ => n.written = 0

theorem attemptOnce_obeys (hn : n.written = 0) :
    (attemptOnce p name createAs change).Obeys (changeProtocol name createAs change)
      (Attempted change) n := by
  refine (current_obeys hn).bind ?_
  rintro m (e | _ | g) ⟨hm, hread⟩
  · exact hm
  · exact .inr ⟨hm, hread _ rfl, fun g h => by cases h⟩
  · refine ⟨⟨hm, trivial⟩, fun t => ?_⟩
    have hg := hread _ rfl
    by_cases hsame : (change g.spec).pruneActivity (Month.start t) = g.spec
    · simp only [Program.done_bind, hsame, if_true]
      refine .inr ⟨hm, hg, fun g' h => ?_⟩
      cases h
      exact ⟨t, rfl, by rw [changed, hsame]⟩
    · simp only [Program.done_bind, hsame, if_false]
      refine ⟨⟨hm, g, t, hg, rfl, rfl⟩, fun a => ?_⟩
      cases a with
      | ok written => exact .inl ⟨congrArg (· + 1) hm, rfl⟩
      | error e => exact hm

/-- By induction on the attempts that are left: a refused attempt has written nothing,
so that the next one starts as the first one did. -/
theorem modifyFrom_obeys (attempt left : Nat) (hn : n.written = 0) :
    (modifyFrom p name createAs change attempt left).Obeys (changeProtocol name createAs change)
      (Ended change) n := by
  induction left generalizing attempt n with
  | zero =>
    refine (attemptOnce_obeys hn).bind ?_
    rintro m (result | e) h
    · exact h
    · exact h
  | succ left ih =>
    refine (attemptOnce_obeys hn).bind ?_
    rintro m (result | e) h
    · exact h
    · cases e with
      | conflict _ => exact ih (attempt + 1) h
      | transient _ => exact ⟨⟨h, trivial⟩, fun _ => ih (attempt + 1) h⟩
      | notFound _ => exact h
      | alreadyExists _ => exact h
      | serialization _ => exact h
      | other _ => exact h

theorem modify_obeys (hn : n.written = 0) :
    (modify p name createAs change).Obeys (changeProtocol name createAs change)
      (Ended change) n :=
  modifyFrom_obeys 1 p.retries hn

theorem remove_obeys {key : String} {ended : Instant} (hn : n.written = 0) :
    (remove p name key ended).Obeys (changeProtocol name none (·.removeMember key ended))
      (Ended (·.removeMember key ended)) n :=
  modify_obeys hn

/-- An upsert never ends without a group: its change creates the group if need be. -/
theorem upsert_obeys {type : GroupType} {key : String} {usage : MemberUsage}
    (hn : n.written = 0) :
    (upsert p name type key usage).Obeys
      (changeProtocol name (some type) (·.upsertMember key usage))
      (fun m a => Ended (·.upsertMember key usage) m (a.map some)) n := by
  refine (modify_obeys hn).bind ?_
  rintro m (e | _ | g) h
  · exact h
  · rcases h with ⟨-, h⟩ | ⟨h, -⟩
    · cases h
    · exact h
  · exact h

end Aggregator

namespace GroupChange

/-- The protocol of a change. -/
def protocol (c : GroupChange) : Protocol AggregatorInterface ChangeNote :=
  Aggregator.changeProtocol c.name c.createAs c.apply

/-- How a change ends. -/
def Ended (c : GroupChange) : ChangeNote → Except AggregateError (Option StoredGroup) → Prop :=
  Aggregator.Ended c.apply

/-- A change keeps to its protocol, whatever the answers are. -/
theorem program_obeys (p : RetryPolicy) (c : GroupChange) :
    (c.program p).Obeys c.protocol c.Ended {} := by
  cases c with
  | remove name key ended => exact Aggregator.remove_obeys rfl
  | upsert name type key usage =>
    refine (Aggregator.upsert_obeys rfl).bind ?_
    rintro m (e | g) h
    · exact h
    · exact h

end GroupChange

end Chargeback
