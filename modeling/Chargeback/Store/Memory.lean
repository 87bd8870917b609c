import Chargeback.Store.Request
import Chargeback.Subscriber

/-!
# A store in memory

Groups and subscribers in memory, with the versions of a shared store: every
successful write gives the record the next version of one counter, and a record
that carries another version than the stored one is not taken. Conflicts and
passing failures can be ordered in advance; they strike the next calls.

## Main definitions

* `MemoryStore`: the records, the counter, and the failures still to come.
* `MemoryStore.answer`: the answer to a call, with the store after it.
-/

namespace Chargeback

/-- Groups and subscribers in memory. The version and the writes are counted without a bound;
in words of 64 bits they would start over after `2 ^ 64` writes. -/
structure MemoryStore where
  groups : KeyMap StoredGroup := .empty
  subscribers : List Subscriber := []
  /-- The version of the last write. -/
  version : Nat := 0
  /-- How many of the next replacing writes are to conflict. -/
  pendingConflicts : Nat := 0
  /-- How many of the next calls are to fail. -/
  pendingFailures : Nat := 0
  /-- How many writes have succeeded. -/
  writes : Nat := 0
deriving DecidableEq, Inhabited

namespace MemoryStore

/-- The text of a version. -/
def versionText (n : Nat) : String := String.ofList (Decimal.digits n)

/-- Let the call fail if a failure is still to come. -/
def failing {α : Type} (m : MemoryStore) (call : MemoryStore → Except StoreError α × MemoryStore) :
    Except StoreError α × MemoryStore :=
  if m.pendingFailures = 0 then call m
  else
    (.error (.transient "injected failure"), { m with pendingFailures := m.pendingFailures - 1 })

/-- Write a group under its name, with the next version. -/
def write (m : MemoryStore) (g : StoredGroup) : StoredGroup × MemoryStore :=
  let version := m.version + 1
  let g := { g with metadata := { g.metadata with resourceVersion := some (versionText version) } }
  (g, { m with groups := m.groups.insert g.name g, version, writes := m.writes + 1 })

/-- Fetch a group. -/
def get (name : String) (m : MemoryStore) : Except StoreError (Option StoredGroup) × MemoryStore :=
  m.failing fun m => (.ok (m.groups.get? name), m)

/-- Store a new group, unless its name is taken. -/
def create (g : StoredGroup) (m : MemoryStore) : Except StoreError StoredGroup × MemoryStore :=
  m.failing fun m =>
    match m.groups.get? g.name with
    | some _ => (.error (.alreadyExists g.name), m)
    | none => let (g, m) := m.write g; (.ok g, m)

/-- Replace a stored group by one that carries its version. -/
def replace (g : StoredGroup) (m : MemoryStore) : Except StoreError StoredGroup × MemoryStore :=
  m.failing fun m =>
    if m.pendingConflicts ≠ 0 then
      (.error (.conflict g.name), { m with pendingConflicts := m.pendingConflicts - 1 })
    else
      match m.groups.get? g.name with
      | none => (.error (.notFound g.name), m)
      | some current =>
        if current.version ≠ g.version then (.error (.conflict g.name), m)
        else let (g, m) := m.write g; (.ok g, m)

/-- All groups in the order of their names. -/
def list (m : MemoryStore) : Except StoreError (List StoredGroup) × MemoryStore :=
  m.failing fun m => (.ok m.groups.values, m)

/-- All subscribers in their order. -/
def listSubscribers (m : MemoryStore) : Except StoreError (List Subscriber) × MemoryStore :=
  m.failing fun m => (.ok m.subscribers, m)

/-- The answer to a call, with the store after it. -/
def answer : (r : StoreRequest) → MemoryStore → r.Answer × MemoryStore
  | .get name => get name
  | .create g => create g
  | .replace g => replace g
  | .list => list

/-- The stored group of a name, past all failures still to come. -/
def snapshot? (m : MemoryStore) (name : String) : Option StoredGroup := m.groups.get? name

/-- Let the next `n` replacing writes conflict. -/
def injectConflicts (m : MemoryStore) (n : Nat) : MemoryStore := { m with pendingConflicts := n }

/-- Let the next `n` calls fail. -/
def injectFailures (m : MemoryStore) (n : Nat) : MemoryStore := { m with pendingFailures := n }

end MemoryStore

end Chargeback
