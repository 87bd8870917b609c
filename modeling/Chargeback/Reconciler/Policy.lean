import Chargeback.Kind

/-!
# Policies and handlers

What is done about an event depends on the kind of the resource, on what
happened to it, and on two policies: whether updates count, and whether a deleted
resource leaves its groups.

## Main definitions

* `UpdatePolicy`, `DeletePolicy`: the two policies.
* `Handler`: what is done about an event.
* `Handler.select`: the handler for a kind and an action.
-/

namespace Chargeback

/-- What an update of a resource leads to. -/
inductive UpdatePolicy where
  | ignore
  /-- Treat the resource as if it had just been created. -/
  | recompute
deriving DecidableEq, Repr, Inhabited

namespace UpdatePolicy

/-- The name of a policy. -/
def name : UpdatePolicy → String
  | ignore => "ignore"
  | recompute => "recompute"

/-- The names of the policies. -/
def words : List (String × UpdatePolicy) := [ignore, recompute].map fun p => (p.name, p)

/-- The policy that a JSON value names. -/
def ofJson? : Json → Option UpdatePolicy := Json.word? words

end UpdatePolicy

/-- What the deletion of a resource leads to. -/
inductive DeletePolicy where
  /-- Leave it a member of its groups. -/
  | retain
  /-- Take it out of its groups. -/
  | purge
deriving DecidableEq, Repr

instance : Inhabited DeletePolicy := ⟨.purge⟩

namespace DeletePolicy

/-- The name of a policy. -/
def name : DeletePolicy → String
  | retain => "retain"
  | purge => "purge"

/-- The names of the policies. -/
def words : List (String × DeletePolicy) := [retain, purge].map fun p => (p.name, p)

/-- The policy that a JSON value names. -/
def ofJson? : Json → Option DeletePolicy := Json.word? words

end DeletePolicy

/-- The settings of event handling. -/
structure ReconcilerSettings where
  updatePolicy : UpdatePolicy := .ignore
  deletePolicy : DeletePolicy := .purge
  labelGroups : Bool := true
  channelSize : Nat := 1000
deriving DecidableEq, Repr

/-- What is done about an event. -/
inductive Handler where
  | ignore
  | exportOnly
  | exportAndUpsert
  | exportAndPurge
deriving DecidableEq, Repr, Inhabited

namespace Handler

/-- The name of a handler. -/
def name : Handler → String
  | ignore => "Ignore"
  | exportOnly => "Export"
  | exportAndUpsert => "ExportAndUpsert"
  | exportAndPurge => "ExportAndPurge"

/-- The handler of a new resource. -/
def ofCreate (kind : ResourceKind) : Handler :=
  if kind.isCosted then exportAndUpsert else exportOnly

/-- The handler for an action on a resource of a kind, under two policies. -/
def select (update : UpdatePolicy) (delete : DeletePolicy) (kind : ResourceKind) :
    Action → Handler
  | .create => ofCreate kind
  | .update =>
    match update with
    | .ignore => ignore
    | .recompute => ofCreate kind
  | .delete =>
    match delete with
    | .retain => exportOnly
    | .purge => if kind.isCosted then exportAndPurge else exportOnly

end Handler

end Chargeback
