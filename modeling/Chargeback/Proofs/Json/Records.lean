import Chargeback.Json.Record
import Chargeback.Proofs.Json.RoundTrip

/-!
# Written records and maps are read back

A record is read from the object that is written for it: a field that was left out is absent,
and one that was not has its value. A map is read from the object that lists its bindings. Both
rest on the same remark, that no name occurs twice.

## Main definitions

* `Entries.given`: the fields that are not absent.
* `Json.field?`: a field of an object.
* `Json.record?_record`: the fields of a written record are found under their names.
* `Json.map?_ofMap`: a map is read back if its values are.
-/

namespace Chargeback

universe u

variable {β : Type u}

/-! ## Absent fields -/

namespace Entries

/-- The fields that are not absent. -/
def given (fields : List (String × Option β)) : List (String × β) :=
  fields.filterMap fun f => f.2.map (f.1, ·)

variable {fields : List (String × Option β)}

theorem mem_given_iff {name : String} {v : β} :
    (name, v) ∈ given fields ↔ (name, some v) ∈ fields := by
  simp only [given, List.mem_filterMap, Option.map_eq_some_iff, Prod.mk.injEq]
  constructor
  · rintro ⟨⟨key, _⟩, hf, _, rfl, rfl, rfl⟩
    exact hf
  · exact fun hf => ⟨_, hf, v, rfl, rfl, rfl⟩

theorem keys_given_sublist :
    ((given fields).map Prod.fst).Sublist (fields.map Prod.fst) := by
  induction fields with
  | nil => exact .slnil
  | cons f fields ih =>
    obtain ⟨key, value⟩ := f
    cases value with
    | none => exact ih.cons key
    | some v => exact ih.cons_cons key

/-- Where no name occurs twice, each field is found under its name, unless it is absent. -/
theorem lookup_given (h : (fields.map Prod.fst).Nodup) {f : String × Option β}
    (hf : f ∈ fields) : lookup f.1 (given fields) = f.2 := by
  induction fields with
  | nil => cases hf
  | cons e fields ih =>
    obtain ⟨key, value⟩ := e
    obtain ⟨hkey, hrest⟩ := List.nodup_cons.1 h
    rw [given, List.filterMap_cons]
    rcases List.mem_cons.1 hf with rfl | hlater
    · cases value with
      | none =>
        refine lookup_eq_none_of_forall_ne fun a ha heq => hkey ?_
        rw [← heq]
        exact keys_given_sublist.subset (List.mem_map.2 ⟨a, ha, rfl⟩)
      | some v => exact if_pos rfl
    · have hne : key ≠ f.1 := fun heq => hkey (List.mem_map.2 ⟨f, hlater, heq.symm⟩)
      cases value with
      | none => exact ih hrest hlater
      | some v => exact (if_neg hne).trans (ih hrest hlater)

end Entries

namespace Json

/-! ## Records -/

/-- The value of a field of an object, if it is given. -/
def field? (name : String) : Json → Option Json
  | .object fields => Entries.lookup name fields
  | _ => none

theorem field?_record {fields : List (String × Option Json)} (h : (fields.map Prod.fst).Nodup)
    {f : String × Option Json} (hf : f ∈ fields) : (record fields).field? f.1 = f.2 :=
  Entries.lookup_given h hf

/-- The fields of a written record are found under their names, unless they were left out. -/
theorem record?_record (fields : List (String × Option Json))
    (hnodup : (fields.map Prod.fst).Nodup) :
    ∃ r, record? (fields.map Prod.fst) (record fields) = some r ∧
      ∀ f ∈ fields, r.get? f.1 = f.2 := by
  have hkeys : ((Entries.given fields).map Prod.fst).Sublist (fields.map Prod.fst) :=
    Entries.keys_given_sublist
  have hknown : (Entries.given fields).filter (fun e => (fields.map Prod.fst).contains e.1) =
      Entries.given fields :=
    List.filter_eq_self.2 fun e he =>
      List.contains_iff_mem.2 (hkeys.subset (List.mem_map.2 ⟨e, he, rfl⟩))
  refine ⟨{ fields := Entries.given fields }, ?_, fun f hf => Entries.lookup_given hnodup hf⟩
  have hrecord : record fields = .object (Entries.given fields) := rfl
  rw [hrecord, record?, hknown]
  exact if_pos (hnodup.sublist hkeys)

namespace Record

variable {α : Type} {r : Record} {name : String} {read : Json → Option α} {v : α}

/-- A field that has to be given is read from what was written. -/
theorem required?_of_get? {j : Json} (h : r.get? name = some j) (hread : read j = some v) :
    r.required? name read = some v := by
  rw [required?, h, Option.bind_some, hread]

/-- A field with a default is read, whether it was written or left out. -/
theorem withDefault?_of_get? {default : α} (h : ∀ j ∈ r.get? name, read j = some v)
    (hdefault : r.get? name = none → v = default) :
    r.withDefault? name default read = some v := by
  unfold withDefault?
  split
  next hget => exact h _ hget
  next hget => rw [hdefault hget]

/-- A field that may be left out is read, unless its value looks like a missing one. -/
theorem optional?_of_get? {write : α → Json} {o : Option α} (h : r.get? name = o.map write)
    (hnull : ∀ v, write v ≠ .null) (hread : ∀ v ∈ o, read (write v) = some v) :
    r.optional? name read = some o := by
  refine withDefault?_of_get? ?_ ?_
  · intro j hj
    rw [h] at hj
    obtain ⟨v, hv, rfl⟩ := Option.map_eq_some_iff.1 hj
    unfold nullable?
    split
    next heq => exact absurd heq (hnull v)
    next => rw [hread v hv, hv]; rfl
  · intro hget
    rw [h] at hget
    exact Option.map_eq_none_iff.1 hget

end Record

/-- A record of legible fields is legible. -/
theorem legible_record {fields : List (String × Option Json)}
    (h : ∀ f ∈ fields, ∀ j ∈ f.2, Legible j) : Legible (record fields) :=
  .object fun e he => h (e.1, some e.2) (Entries.mem_given_iff.1 he) e.2 rfl

/-! ## Maps -/

section Maps

variable {α : Type} {write : α → Json} {read : Json → Option α} {m : KeyMap α}

/-- A map is read back if its values are. -/
theorem map?_ofMap (h : ∀ v ∈ m.values, read (write v) = some v) :
    map? read (ofMap write m) = some m := by
  have hread : ∀ l : List (String × α), (∀ v ∈ l.map Prod.snd, read (write v) = some v) →
      (l.map fun e => (e.1, write e.2)).mapM (fun f => (read f.2).map (f.1, ·)) = some l := by
    intro l hl
    induction l with
    | nil => rfl
    | cons e l ih =>
      obtain ⟨hfirst, hrest⟩ := List.forall_mem_cons.1 hl
      rw [List.map_cons, List.mapM_cons, hfirst, ih hrest]
      rfl
  change ((m.entries.map fun e => (e.1, write e.2)).mapM
    fun f => (read f.2).map (f.1, ·)).bind (fun entries => some (KeyMap.ofList entries)) = some m
  rw [hread m.entries h]
  exact congrArg some m.ofList_entries

theorem legible_ofMap (h : ∀ v ∈ m.values, Legible (write v)) : Legible (ofMap write m) := by
  refine .object fun f hf => ?_
  obtain ⟨e, he, rfl⟩ := List.mem_map.1 hf
  exact h e.2 (List.mem_map.2 ⟨e, he, rfl⟩)

end Maps

theorem field?_ofMap {α : Type} (write : α → Json) (m : KeyMap α) (key : String) :
    (ofMap write m).field? key = (m.get? key).map write := by
  change Entries.lookup key (m.entries.map fun e => (e.1, write e.2)) =
    (Entries.lookup key m.entries).map write
  induction m.entries with
  | nil => rfl
  | cons e entries ih =>
    rw [List.map_cons, Entries.lookup, Entries.lookup]
    split
    · rfl
    · exact ih

/-! ## Amounts -/

theorem amount?_amount (n : UInt64) : amount? (amount n) = some n := by
  have hbelow : naturalBelow? UInt64.size (amount n) = some n.toNat := by
    change (some n.toNat).filter (· < UInt64.size) = some n.toNat
    exact Option.filter_some_pos (decide_eq_true n.toNat_lt)
  rw [amount?, hbelow, Option.map_some, UInt64.ofNat_toNat]

theorem legible_amount (n : UInt64) : Legible (amount n) :=
  .number fun _ h => by cases h

end Json

end Chargeback
