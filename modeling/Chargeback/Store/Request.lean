import Chargeback.Group.Wire
import Chargeback.Resource.Metadata
import Chargeback.Store.Error

/-!
# Stored groups

A stored group is its record under the metadata of an object. The version in the
metadata changes with every write, and a record that is written back carries the
version with which it was read: the store takes it only if nobody else has
written meanwhile.

## Main definitions

* `StoredGroup`: a group as it is stored.
* `StoreRequest`: the calls of a store of groups, with the values they give.
-/

namespace Chargeback

/-- A group as it is stored. -/
structure StoredGroup where
  metadata : Metadata
  spec : GroupSpec
deriving DecidableEq, Inhabited

namespace StoredGroup

/-- A group that has not been stored yet. -/
def new (name : String) (spec : GroupSpec) : StoredGroup :=
  { metadata := { name := some name }, spec }

/-- The name under which a group is stored. -/
def name (g : StoredGroup) : String := g.metadata.nameOrGenerated

/-- The version of the read or write that the group comes from. -/
def version (g : StoredGroup) : Option String := g.metadata.resourceVersion

/-- The API version of stored groups. -/
def apiVersion : String := "costs.cluster.io/v1"

/-- A stored group as a JSON value. -/
def toJson (g : StoredGroup) : Json :=
  .object
    [("apiVersion", .string apiVersion), ("kind", .string "Group"),
      ("metadata", g.metadata.toJson), ("spec", g.spec.toJson)]

/-- The stored group of a JSON value, which has to give all four parts. -/
def ofJson? (j : Json) : Option StoredGroup := do
  let r ← Json.record? ["apiVersion", "kind", "metadata", "spec"] j
  let _ ← r.required? "apiVersion" Json.text?
  let _ ← r.required? "kind" Json.text?
  some
    { metadata := ← r.required? "metadata" Metadata.ofJson?
      spec := ← r.required? "spec" GroupSpec.ofJson? }

end StoredGroup

/-- A call of a store of groups. -/
inductive StoreRequest where
  | get (name : String)
  | create (g : StoredGroup)
  | replace (g : StoredGroup)
  | list
deriving DecidableEq

namespace StoreRequest

/-- What a call gives when it succeeds: a group if there is one, the group as it
was written, or all groups. -/
abbrev Value : StoreRequest → Type
  | get _ => Option StoredGroup
  | create _ => StoredGroup
  | replace _ => StoredGroup
  | list => List StoredGroup

/-- The answer to a call. -/
abbrev Answer (r : StoreRequest) : Type := Except StoreError r.Value

/-- The name of the record that a call is about. -/
def recordName : StoreRequest → String
  | get name => name
  | create g => g.name
  | replace g => g.name
  | list => "groups"

end StoreRequest

end Chargeback
