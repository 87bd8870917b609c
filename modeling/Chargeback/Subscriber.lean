import Chargeback.Json.Writing
import Chargeback.Json.Record

/-!
# Subscribers

A subscriber is the endpoint that batches of payloads are posted to, with the
organisation and the cluster that they are posted for.

## Main definitions

* `Subscriber`: the endpoint.
* `Subscriber.bearerToken?`: the token that a request carries.
-/

namespace Chargeback

/-- An endpoint for batches of payloads. -/
structure Subscriber where
  name : String
  cluster : String := ""
  orgId : String := ""
  url : String
  authType : String := ""
  authToken : String := ""
deriving DecidableEq, Repr, Inhabited

namespace Subscriber

/-- The token to send, if there is one and the endpoint takes tokens. -/
def bearerToken? (s : Subscriber) : Option String :=
  if (s.authType = "" || s.authType = "access-token") && s.authToken ≠ "" then some s.authToken
  else none

/-- A text as a JSON value, left out when it is empty. -/
def textUnlessEmpty (s : String) : Option Json := if s = "" then none else some (.string s)

/-- A subscriber as a JSON value. -/
def toJson (s : Subscriber) : Json :=
  Json.record
    [("name", some (.string s.name)), ("cluster", some (.string s.cluster)),
      ("orgId", some (.string s.orgId)), ("url", some (.string s.url)),
      ("authType", textUnlessEmpty s.authType), ("authToken", textUnlessEmpty s.authToken)]

/-- The subscriber of a JSON value. -/
def ofJson? (j : Json) : Option Subscriber := do
  let r ← Json.record? ["name", "cluster", "orgId", "url", "authType", "authToken"] j
  some
    { name := ← r.required? "name" Json.text?
      cluster := ← r.withDefault? "cluster" "" Json.text?
      orgId := ← r.withDefault? "orgId" "" Json.text?
      url := ← r.required? "url" Json.text?
      authType := ← r.withDefault? "authType" "" Json.text?
      authToken := ← r.withDefault? "authToken" "" Json.text? }

end Subscriber

end Chargeback
