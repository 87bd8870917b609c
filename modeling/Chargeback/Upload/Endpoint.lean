import Chargeback.Payload
import Chargeback.Subscriber
import Chargeback.Upload.Target

/-!
# Endpoints that follow a script

An endpoint at one address that takes posts and answers them as it was told, and
with 200 once it has nothing left to answer. It keeps what was posted. A post to
any other address does not arrive, nor does one whose token cannot stand in a
header.

## Main definitions

* `Post`: what arrives at an endpoint.
* `Endpoint.post`: the answer of an endpoint to a batch for a subscriber.
-/

namespace Chargeback

/-- What arrives at an endpoint. -/
structure Post where
  /-- The path with the query. -/
  path : String
  authorization : Option String
  contentType : String
  body : String
deriving DecidableEq, Repr

namespace Post

/-- The body of a batch for a subscriber. -/
def bodyFor (s : Subscriber) (batch : List Payload) : String :=
  Envelope.body { orgId := s.orgId, cluster := s.cluster, payloads := batch }

/-- The post of a batch for a subscriber. -/
def new (path : String) (s : Subscriber) (batch : List Payload) : Post where
  path
  authorization := s.bearerToken?.map ("Bearer " ++ ·)
  contentType := "application/json"
  body := bodyFor s batch

/-- The character can stand in a header. -/
def isHeaderChar (c : Char) : Bool := (0x20 ≤ c.toNat && c.toNat ≠ 0x7f) || c = '\t'

/-- All headers can be sent. -/
def isSendable (p : Post) : Bool := (p.authorization.getD "").toList.all isHeaderChar

end Post

/-- An endpoint with the answers that are left and what has arrived so far. -/
structure Endpoint where
  authority : String
  /-- The answers to the next posts: a status, or none at all. -/
  answers : List (Option Nat) := []
  /-- What has arrived so far, the last post first. -/
  arrived : List Post := []
deriving Repr

namespace Endpoint

/-- The post of a batch for a subscriber, if it arrives here. -/
def arriving? (e : Endpoint) (s : Subscriber) (batch : List Payload) : Option Post := do
  let target ← Target.parse? s.url
  let post := Post.new target.path s batch
  if target.authority = e.authority && post.isSendable then some post else none

/-- The answer to a batch for a subscriber, if there is one. -/
def post (e : Endpoint) (s : Subscriber) (batch : List Payload) : Option Nat × Endpoint :=
  match e.arriving? s batch with
  | none => (none, e)
  | some post =>
    let e := { e with arrived := post :: e.arrived }
    match e.answers with
    | [] => (some 200, e)
    | answer :: rest => (answer, { e with answers := rest })

/-- What has arrived, in its order. -/
def posts (e : Endpoint) : List Post := e.arrived.reverse

end Endpoint

end Chargeback
