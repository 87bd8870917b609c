import Chargeback.Resource.Basic

/-!
# Known objects

A watch reports that an object was applied or deleted, or starts over with a
list of everything that is there. The objects known so far turn these reports
into changes: what is new was created, what carries another version was updated,
and what a new list leaves out was deleted.

## Main definitions

* `WatchEvent`: what a watch reports.
* `Change`: an action on an object.
* `KnownObjects.observe`: the changes that a report means.
-/

namespace Chargeback

/-- A report of a watch. -/
inductive WatchEvent where
  | applied (r : Resource)
  | deleted (r : Resource)
  | restarted (rs : List Resource)

/-- An action on an object. -/
structure Change where
  action : Action
  object : Resource
deriving DecidableEq

/-- The objects of a watch by key, as they were last seen. -/
structure KnownObjects where
  objects : KeyMap Resource := .empty
deriving DecidableEq, Inhabited

namespace KnownObjects

/-- Both objects carry the same version, and they do carry one. -/
def sameVersion (a b : Resource) : Bool :=
  a.metadata.resourceVersion.isSome && a.metadata.resourceVersion = b.metadata.resourceVersion

/-- An object was applied: it is new, or known in this version already, or
changed. -/
def applied (known : KnownObjects) (r : Resource) : List Change × KnownObjects :=
  let changes :=
    match known.objects.get? r.key with
    | none => [{ action := .create, object := r }]
    | some old => if sameVersion r old then [] else [{ action := .update, object := r }]
  (changes, { objects := known.objects.insert r.key r })

/-- An object was deleted. -/
def deleted (known : KnownObjects) (r : Resource) : List Change × KnownObjects :=
  ([{ action := .delete, object := r }], { objects := known.objects.erase r.key })

/-- Apply objects one after another. -/
def appliedAll (known : KnownObjects) : List Resource → List Change × KnownObjects
  | [] => ([], known)
  | r :: rest =>
    let (first, known) := known.applied r
    let (others, known) := known.appliedAll rest
    (first ++ others, known)

/-- Everything that is there was listed anew: what is missing from the list was
deleted, and then the listed objects are applied. -/
def restarted (known : KnownObjects) (rs : List Resource) : List Change × KnownObjects :=
  let listed := rs.map Resource.key
  let gone := known.objects.filter fun k _ => !listed.contains k
  let kept := known.objects.filter fun k _ => listed.contains k
  let (changes, known) := appliedAll { objects := kept } rs
  (gone.values.map (fun r => { action := .delete, object := r }) ++ changes, known)

/-- The changes that a report means. -/
def observe (known : KnownObjects) : WatchEvent → List Change × KnownObjects
  | .applied r => known.applied r
  | .deleted r => known.deleted r
  | .restarted rs => known.restarted rs

end KnownObjects

end Chargeback
