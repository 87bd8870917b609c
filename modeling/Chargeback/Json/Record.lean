import Chargeback.Json.Basic
import Chargeback.KeyMap

/-!
# Records in JSON

How typed values are read from JSON values. A record is given as an object with
its fields under their names, or as the array of its fields in their order.
Fields of other names do not count, and a field of the record may be given only
once. In a map, on the other hand, the last of several equal keys counts.

## Main definitions

* `Json.Record`: the given fields of a record.
* `Json.Record.required?`, `Json.Record.withDefault?`, `Json.Record.optional?`:
  the ways in which a field may be left out.
* `Json.amount?`, `Json.text?`, `Json.word?`, `Json.map?`: readers of values.
-/

namespace Chargeback

namespace Json

/-- The given fields of a record. -/
structure Record where
  fields : List (String × Json)
  /-- The fields were given by their names and not by their places. -/
  named : Bool := true

/-- The fields of the record with the given field names. -/
def record? (names : List String) : Json → Option Record
  | .object fields =>
    let known := fields.filter fun f => names.contains f.1
    if (known.map Prod.fst).Nodup then some { fields := known } else none
  | .array items =>
    if items.length ≤ names.length then some { fields := names.zip items, named := false }
    else none
  | _ => none

namespace Record

variable {α : Type}

/-- The value given for a field. -/
def get? (r : Record) (name : String) : Option Json := Entries.lookup name r.fields

/-- A field that has to be given. -/
def required? (r : Record) (name : String) (read : Json → Option α) : Option α :=
  (r.get? name).bind read

/-- A field with a default for when it is left out. -/
def withDefault? (r : Record) (name : String) (default : α) (read : Json → Option α) :
    Option α :=
  match r.get? name with
  | some j => read j
  | none => some default

/-- Read a value that may be null. -/
def nullable? (read : Json → Option α) : Json → Option (Option α)
  | .null => some none
  | j => (read j).map some

/-- A field that may be left out or null. -/
def optional? (r : Record) (name : String) (read : Json → Option α) : Option (Option α) :=
  r.withDefault? name none (nullable? read)

/-- A field that may be null, and left out where fields are given by name. -/
def optionalByName? (r : Record) (name : String) (read : Json → Option α) :
    Option (Option α) :=
  match r.get? name with
  | some j => nullable? read j
  | none => if r.named then some none else none

end Record

/-! ## Values -/

/-- A natural number below a bound. -/
def naturalBelow? (bound : Nat) : Json → Option Nat
  | .number n => n.natural?.filter (· < bound)
  | _ => none

/-- An amount: a natural number that a word of 64 bits holds. -/
def amount? (j : Json) : Option UInt64 := (naturalBelow? UInt64.size j).map UInt64.ofNat

/-- An integer that a signed word of 64 bits holds. -/
def signed? : Json → Option Int
  | .number n => n.integer?.filter fun i => Int64.minValue.toInt ≤ i && i ≤ Int64.maxValue.toInt
  | _ => none

/-- A number whose nearest double is finite. -/
def float? : Json → Option Float
  | .number n => if n.toFloat.isFinite then some n.toFloat else none
  | _ => none

/-- A truth value. -/
def bool? : Json → Option Bool
  | .bool b => some b
  | _ => none

/-- A text. -/
def text? : Json → Option String
  | .string s => some s
  | _ => none

/-- One of a fixed list of words: the word itself, or an object that holds null
under the word and nothing else. -/
def word? {α : Type} (words : List (String × α)) : Json → Option α
  | .string s => Entries.lookup s words
  | .object [(s, .null)] => Entries.lookup s words
  | _ => none

/-- A map from texts, in which the last of several equal keys counts. -/
def map? {α : Type} (read : Json → Option α) : Json → Option (KeyMap α)
  | .object fields => do
    let entries ← fields.mapM fun f => (read f.2).map (f.1, ·)
    some (KeyMap.ofList entries)
  | _ => none

/-- A list of values. -/
def list? {α : Type} (read : Json → Option α) : Json → Option (List α)
  | .array items => items.mapM read
  | _ => none

/-- A map as an object with the fields in key order. -/
def ofMap {α : Type} (write : α → Json) (m : KeyMap α) : Json :=
  .object (m.entries.map fun e => (e.1, write e.2))

end Json

end Chargeback
