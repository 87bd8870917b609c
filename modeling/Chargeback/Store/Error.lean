/-!
# Store failures

## Main definitions

* `StoreError`: why a call of a store failed.
* `StoreError.Kind`: the kinds of failures.
* `StoreError.isRetryable`: the failures that may pass when the call is repeated.
* `StoreError.message`: the text of a failure.
-/

namespace Chargeback

/-- Why a call of a store failed. -/
inductive StoreError where
  | notFound (name : String)
  | alreadyExists (name : String)
  /-- The record was written since it was read. -/
  | conflict (name : String)
  /-- Throttling, timeouts and failures of the server. -/
  | transient (text : String)
  | serialization (text : String)
  | other (text : String)
deriving DecidableEq, Repr, Inhabited

namespace StoreError

/-- The kinds of failures. -/
inductive Kind where
  | notFound
  | alreadyExists
  | conflict
  | transient
  | serialization
  | other
deriving DecidableEq, Repr, Inhabited

namespace Kind

/-- The name of a kind. -/
def name : Kind → String
  | notFound => "NotFound"
  | alreadyExists => "AlreadyExists"
  | conflict => "Conflict"
  | transient => "Transient"
  | serialization => "Serialization"
  | other => "Other"

/-- The names of the kinds. -/
def words : List (String × Kind) :=
  [notFound, alreadyExists, conflict, transient, serialization, other].map fun k => (k.name, k)

end Kind

/-- The kind of a failure. -/
def kind : StoreError → Kind
  | notFound _ => .notFound
  | alreadyExists _ => .alreadyExists
  | conflict _ => .conflict
  | transient _ => .transient
  | serialization _ => .serialization
  | other _ => .other

/-- The same call may succeed when it is repeated. -/
def isRetryable : StoreError → Bool
  | transient _ => true
  | _ => false

/-- The text of a failure. -/
def message : StoreError → String
  | notFound name => "record not found: " ++ name
  | alreadyExists name => "record already exists: " ++ name
  | conflict name => "write conflict on " ++ name
  | transient text => "transient store failure: " ++ text
  | serialization text => "serialization failed: " ++ text
  | other text => "store error: " ++ text

end StoreError

end Chargeback
