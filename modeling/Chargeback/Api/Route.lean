import Chargeback.Json.Basic

/-!
# Routes of the interface

What can be asked of the program from outside: its health, its readiness, its
metrics, groups and their costs, nodes, and the costs of pods. The parts of a
path are compared as they are written, except where they name a group, a node or
a pod: there they are unescaped first.

## Main definitions

* `Route`: what can be asked for.
* `Route.ofPath?`: what a path asks for.
-/

namespace Chargeback

/-- What can be asked for. -/
inductive Route where
  | health
  | readiness
  | metrics
  | group (name : String)
  | groupCost (name : String)
  | node (name : String)
  | podCost (namespaceName name : String)
  /-- A name that is no text when it is unescaped. -/
  | undecodable (parameter : String)
deriving DecidableEq, Repr

namespace Route

/-- The value of a hexadecimal digit. -/
def hexValue? (c : Char) : Option Nat :=
  let n := c.toNat
  if 0x30 ≤ n && n ≤ 0x39 then some (n - 0x30)
  else if 0x61 ≤ n && n ≤ 0x66 then some (n - 0x61 + 10)
  else if 0x41 ≤ n && n ≤ 0x46 then some (n - 0x41 + 10)
  else none

/-- The byte that two hexadecimal digits write. -/
def byte? (a b : Char) : Option UInt8 := do
  some (UInt8.ofNat (16 * (← hexValue? a) + (← hexValue? b)))

/-- The bytes of a text in which bytes may be escaped. -/
def bytes : List Char → List UInt8
  | [] => []
  | [a] => (String.singleton a).toUTF8.toList
  | [a, b] => (String.singleton a).toUTF8.toList ++ bytes [b]
  | a :: b :: c :: rest =>
    match if a = '%' then byte? b c else none with
    | some byte => byte :: bytes rest
    | none => (String.singleton a).toUTF8.toList ++ bytes (b :: c :: rest)

/-- The text that an escaped one stands for. -/
def unescape? (s : String) : Option String := String.fromUTF8? (bytes s.toList).toByteArray

/-- A route with a name taken from a path. -/
def withName (parameter s : String) (route : String → Route) : Route :=
  match unescape? s with
  | some name => route name
  | none => undecodable parameter

/-- The parts of a path between its slashes, without a query. -/
def parts (path : String) : List String :=
  ((path.toList.takeWhile fun c => c ≠ '?' && c ≠ '#').splitOn '/').map String.ofList

/-- What a path asks for, if it asks for something. A name at the end of a path is
not empty. -/
def ofPath? (path : String) : Option Route :=
  match parts path with
  | ["", "healthz"] => some health
  | ["", "readyz"] => some readiness
  | ["", "metrics"] => some metrics
  | ["", "groups", name] => if name = "" then none else some (withName "name" name group)
  | ["", "groups", name, "cost"] => some (withName "name" name groupCost)
  | ["", "nodes", name] => if name = "" then none else some (withName "name" name node)
  | ["", "pods", ns, name, "cost"] =>
    some (withName "namespace" ns fun ns => withName "name" name (podCost ns))
  | _ => none

end Route

end Chargeback
