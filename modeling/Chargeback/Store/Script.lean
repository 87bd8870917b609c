import Chargeback.Store.Memory

/-!
# A store that follows a script

A store in memory whose next calls can be told in advance what to do: to fail,
to find nothing, or to come second to another writer. A call without an entry in
the script does what the store in memory does. All calls are counted by name.

## Main definitions

* `StoreCall`: the names of the calls.
* `ScriptEntry`: what a call is told to do.
* `ScriptedStore.answer`, `ScriptedStore.listSubscribers`: the answers.
-/

namespace Chargeback

/-- The names of the calls of a store. -/
inductive StoreCall where
  | get
  | create
  | replace
  | list
  | subscribers
deriving DecidableEq, Repr, Inhabited

namespace StoreCall

/-- The name of a call. -/
def name : StoreCall → String
  | get => "get"
  | create => "create"
  | replace => "replace"
  | list => "list"
  | subscribers => "subscribers"

/-- The names of the calls. -/
def words : List (String × StoreCall) :=
  [get, create, replace, list, subscribers].map fun c => (c.name, c)

end StoreCall

/-- The call that a request makes. -/
def StoreRequest.call : StoreRequest → StoreCall
  | get _ => .get
  | create _ => .create
  | replace _ => .replace
  | list => .list

/-- The failure of a kind that a script orders for the record of a name. -/
def StoreError.Kind.scripted (name : String) : StoreError.Kind → StoreError
  | .notFound => .notFound name
  | .alreadyExists => .alreadyExists name
  | .conflict => .conflict name
  | .transient => .transient ("scripted for " ++ name)
  | .serialization => .serialization "expected value at line 1 column 1"
  | .other => .other ("scripted for " ++ name)

/-- What a call is told to do. -/
inductive ScriptEntry where
  /-- Do what the store in memory does. -/
  | pass
  | fail (kind : StoreError.Kind)
  /-- Find no record. -/
  | miss
  /-- Let another writer go first. -/
  | rival
deriving DecidableEq, Repr, Inhabited

/-- The names of the entries; a failure has the name of its kind. -/
def ScriptEntry.words : List (String × ScriptEntry) :=
  [("ok", pass), ("miss", miss), ("rival", rival)] ++
    StoreError.Kind.words.map fun k => (k.1, fail k.2)

/-- A store in memory with the entries for its next calls. -/
structure ScriptedStore where
  memory : MemoryStore := {}
  /-- The entries that are left, by the name of the call. -/
  script : KeyMap (List ScriptEntry) := .empty
  /-- The number of calls so far, by name. -/
  calls : KeyMap Nat := .empty
deriving Inhabited

namespace ScriptedStore

/-- Append entries to the script of a call. -/
def order (s : ScriptedStore) (call : StoreCall) (entries : List ScriptEntry) : ScriptedStore :=
  let queue := (s.script.get? call.name).getD [] ++ entries
  { s with script := s.script.insert call.name queue }

/-- Count a call and take its entry out of the script. -/
def enter (s : ScriptedStore) (call : StoreCall) : ScriptEntry × ScriptedStore :=
  let s := { s with calls := s.calls.insert call.name ((s.calls.get? call.name).getD 0 + 1) }
  match s.script.get? call.name with
  | some (e :: rest) => (e, { s with script := s.script.insert call.name rest })
  | _ => (.pass, s)

/-- Do what the store in memory does. -/
def remember {α : Type} (s : ScriptedStore) (f : MemoryStore → α × MemoryStore) :
    α × ScriptedStore :=
  let (a, memory) := f s.memory
  (a, { s with memory })

/-! ## Other writers -/

/-- The usage that another writer gives to a member of its own. -/
def rivalUsage : MemberUsage where
  metric := { cpuRequest := 1, cpuLimit := 1, memoryRequest := 1, memoryLimit := 1 }
  storageBytes := 0
  started := { seconds := 1000000000 }

/-- What another writer does before a request: it creates the same record, or adds
a member to the stored one. The failure of its own call becomes the answer. -/
def rivalWrite (r : StoreRequest) (m : MemoryStore) : Except StoreError Unit × MemoryStore :=
  match r with
  | .create g =>
    let (answer, m) := m.create g
    (answer.map fun _ => (), m)
  | .replace g =>
    match m.snapshot? g.name with
    | none => (.ok (), m)
    | some current =>
      let key := "rival-" ++ toString m.writes
      let (answer, m) := m.replace { current with spec := current.spec.upsertMember key rivalUsage }
      (answer.map fun _ => (), m)
  | _ => (.ok (), m)

/-! ## Answers -/

/-- The answer to a request that finds no record. -/
def missing : (r : StoreRequest) → ScriptedStore → r.Answer × ScriptedStore
  | .get _, s => (.ok none, s)
  | r, s => s.remember (MemoryStore.answer r)

/-- The answer to a call, with the store after it. -/
def answer (r : StoreRequest) (s : ScriptedStore) : r.Answer × ScriptedStore :=
  let (entry, s) := s.enter r.call
  match entry with
  | .pass => s.remember (MemoryStore.answer r)
  | .fail kind => (.error (kind.scripted r.recordName), s)
  | .miss => missing r s
  | .rival =>
    let (first, s) := s.remember (rivalWrite r)
    match first with
    | .ok () => s.remember (MemoryStore.answer r)
    | .error e => (.error e, s)

/-- All subscribers in their order. -/
def listSubscribers (s : ScriptedStore) : Except StoreError (List Subscriber) × ScriptedStore :=
  let (entry, s) := s.enter .subscribers
  match entry with
  | .fail kind => (.error (kind.scripted "subscribers"), s)
  | _ => s.remember MemoryStore.listSubscribers

end ScriptedStore

end Chargeback
