import Chargeback.Json.Reading
import Chargeback.Json.Record
import Chargeback.Program
import Chargeback.Store.Error
import Chargeback.Text.Quoted

/-!
# Replies of the cluster

The cluster answers requests with a status and a body. A status that tells of an
error comes with a description of the error, and if the body holds none, then
the body itself describes it. Every other body is the value that was asked for.

## Main definitions

* `ClusterRequest`, `Reply`: requests and what comes back for them.
* `ClusterError`: why a request did not give a value.
* `Reply.value`: the value in a reply.
* `StoreError.ofCluster`: what such an error means for a store.
-/

namespace Chargeback

/-- A request to the cluster. -/
structure ClusterRequest where
  method : String := "GET"
  path : String
  body : Option Json := none

/-- What comes back for a request. -/
inductive Reply where
  | answered (status : Nat) (body : String)
  /-- The body breaks off. -/
  | aborted
  /-- There is no answer at all. -/
  | failed (text : String)
deriving DecidableEq, Repr

/-- The interface of programs that talk to the cluster. -/
abbrev ClusterInterface : Interface where
  Request := ClusterRequest
  Answer _ := Reply

/-- A program that talks to the cluster. -/
abbrev ClusterProgram := Program ClusterInterface

/-- The description of an error. -/
structure ApiError where
  code : Nat
  reason : String := ""
  message : String := ""
deriving DecidableEq, Repr

namespace ApiError

/-- The description that a JSON value gives. -/
def ofJson? (j : Json) : Option ApiError := do
  let r ← Json.record? ["status", "message", "reason", "code"] j
  let _ ← r.required? "status" Json.text?
  some
    { code := ← r.required? "code" (Json.naturalBelow? UInt16.size)
      reason := ← r.withDefault? "reason" "" Json.text?
      message := ← r.withDefault? "message" "" Json.text? }

/-- The description of an error by the body of an answer. -/
def ofBody (status : Nat) (body : String) : ApiError :=
  match (Json.parse? body).bind ofJson? with
  | some e => e
  | none =>
    { code := status, reason := "Failed to parse error data", message := Text.quote body }

end ApiError

/-- Why a request did not give a value. -/
inductive ClusterError where
  | api (e : ApiError)
  /-- The body is not the value that was asked for. -/
  | malformed
  /-- The body breaks off. -/
  | aborted
  /-- There is no answer. -/
  | service (text : String)
  /-- A stream of events broke off. -/
  | events (text : String)
  | lineTooLong
  /-- Encryption is needed but not at hand. -/
  | tlsRequired
deriving DecidableEq, Repr

namespace ClusterError

/-- The text of an error. -/
def text : ClusterError → String
  | api e => e.message ++ ": " ++ e.reason
  | malformed => "unexpected value"
  | aborted => "error reading a body from connection: user body write aborted"
  | service text => "ServiceError: " ++ text
  | events text => "Error reading events stream: " ++ text
  | lineTooLong => "Error finding newline character"
  | tlsRequired => "TLS required but no TLS stack selected"

end ClusterError

namespace Reply

/-- The status tells of an error. -/
def isError (status : Nat) : Bool := 400 ≤ status && status < 600

/-- The value in a body. -/
def readBody {α : Type} (read : Json → Option α) (body : String) : Except ClusterError α :=
  match (Json.parse? body).bind read with
  | some a => .ok a
  | none => .error .malformed

/-- The value in a reply. -/
def value {α : Type} (read : Json → Option α) : Reply → Except ClusterError α
  | answered status body =>
    if isError status then .error (.api (.ofBody status body)) else readBody read body
  | aborted => .error .aborted
  | failed text => .error (.service text)

/-- The value in a reply, if what was asked for is there at all. -/
def value? {α : Type} (read : Json → Option α) (r : Reply) : Except ClusterError (Option α) :=
  match r.value read with
  | .ok a => .ok (some a)
  | .error (.api e) => if e.reason = "NotFound" then .ok none else .error (.api e)
  | .error e => .error e

end Reply

/-- What the description of an error means for a store, for the record of a name. -/
def StoreError.ofApi (name : String) (e : ApiError) : StoreError :=
  if e.code = 404 then .notFound name
  else if e.code = 409 then
    if e.reason = "AlreadyExists" then .alreadyExists name else .conflict name
  else if e.code = 429 || (500 ≤ e.code && e.code ≤ 599) then .transient e.message
  else .other e.message

/-- What an error means for a store, for the record of a name. -/
def StoreError.ofCluster (name : String) : ClusterError → StoreError
  | .api e => .ofApi name e
  | .malformed => .serialization ClusterError.malformed.text
  | .aborted => .transient ClusterError.aborted.text
  | e => .other e.text

end Chargeback
