import Chargeback.Resource.Metadata

/-!
# Lists of objects

The cluster answers with lists of objects. Long lists come page by page: a page
then carries the token under which the next one is to be had.

## Main definitions

* `Page`: the items of a page, and what its metadata says.
-/

namespace Chargeback

/-- The items of a list, and what its metadata says about its version and about a
further page. -/
structure Page (α : Type) where
  items : List α
  version : Option String := none
  continueToken : Option String := none

namespace Page

/-- What the metadata of a list says. -/
def ofMetadata? {α : Type} (items : List α) (j : Json) : Option (Page α) := do
  let f ← Fields.ofJson? j
  some
    { items
      version := ← f.read? "resourceVersion" Json.text?
      continueToken := ← f.read? "continue" Json.text? }

/-- The list that a JSON value gives; null stands for no items. -/
def ofJson? {α : Type} (read : Json → Option α) : Json → Option (Page α)
  | .object fields => do
    let r ← Json.record? ["metadata", "items"] (.object fields)
    let items ← r.required? "items" (Json.Record.nullable? (Json.list? read))
    r.withDefault? "metadata" { items := items.getD [] } (ofMetadata? (items.getD []))
  | _ => none

end Page

end Chargeback
