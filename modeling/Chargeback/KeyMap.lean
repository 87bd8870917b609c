/-!
# Maps ordered by key

A finite map from strings, kept as the list of its entries in strictly
increasing key order. The order is that of code points, which is also the order
of the UTF-8 bytes, so the list is what a reader of the map sees. Two maps with
the same bindings are the same value: the representation is canonical.

## Main definitions

* `KeyMap β`: the maps with values in `β`.
* `KeyMap.get?`: the view by which every operation is stated.
* `KeyMap.insert`, `KeyMap.erase`, `KeyMap.alter`, `KeyMap.filter`: the updates.
-/

namespace Chargeback

universe u v

variable {β : Type u} {γ : Type v}

/-! ## Entry lists -/

namespace Entries

/-- Keys strictly increase along the list. -/
def Sorted (l : List (String × β)) : Prop :=
  l.Pairwise fun a b => a.1 < b.1

/-- The value bound to `k` by the first entry that has this key. -/
def lookup (k : String) : List (String × β) → Option β
  | [] => none
  | e :: rest => if e.1 = k then some e.2 else lookup k rest

/-- Bind `k` to `v` at its place in the order, replacing what stood there. -/
def insert (k : String) (v : β) : List (String × β) → List (String × β)
  | [] => [(k, v)]
  | e :: rest =>
    if k < e.1 then (k, v) :: e :: rest
    else if k = e.1 then (k, v) :: rest
    else e :: insert k v rest

theorem mem_insert {k : String} {v : β} {a : String × β} {l : List (String × β)} :
    a ∈ insert k v l → a = (k, v) ∨ a ∈ l := by
  induction l with
  | nil => simp [insert]
  | cons e rest ih =>
    rw [insert]
    split
    · simp
    · split
      · simp; rintro (h | h) <;> simp [h]
      · simp; rintro (h | h)
        · simp [h]
        · rcases ih h with h | h <;> simp [h]

theorem lt_of_not_lt_of_ne {a b : String} (h : ¬a < b) (hne : a ≠ b) : b < a := by
  rcases String.le_total a b with hab | hab
  · exact absurd (String.le_antisymm hab (String.not_lt.1 h)) hne
  · exact Decidable.byContradiction fun hba =>
      hne (String.le_antisymm (String.not_lt.1 hba) hab)

theorem Sorted.insert {l : List (String × β)} (h : Sorted l) (k : String) (v : β) :
    Sorted (Entries.insert k v l) := by
  induction l with
  | nil => exact List.pairwise_singleton _ _
  | cons e rest ih =>
    obtain ⟨he, hr⟩ := List.pairwise_cons.1 h
    rw [Entries.insert]
    split
    next hk =>
      refine List.pairwise_cons.2 ⟨fun a ha => ?_, h⟩
      rcases List.mem_cons.1 ha with rfl | ha
      · exact hk
      · exact String.lt_trans hk (he a ha)
    next hk =>
      split
      next heq => exact List.pairwise_cons.2 ⟨fun a ha => heq ▸ he a ha, hr⟩
      next hne =>
        refine List.pairwise_cons.2 ⟨fun a ha => ?_, ih hr⟩
        rcases mem_insert ha with rfl | ha
        · exact lt_of_not_lt_of_ne hk hne
        · exact he a ha

theorem lookup_insert (k k' : String) (v : β) (l : List (String × β)) :
    lookup k' (insert k v l) = if k = k' then some v else lookup k' l := by
  induction l with
  | nil => simp [insert, lookup]
  | cons e rest ih =>
    rw [insert]
    split
    · simp [lookup]
    · split
      next heq => by_cases h : k = k' <;> simp [lookup, ← heq, h]
      next hne =>
        by_cases h : k = k'
        · subst h; simp [lookup, ih, Ne.symm hne]
        · by_cases h' : e.1 = k' <;> simp [lookup, ih, h]

theorem lookup_eq_none_of_forall_ne {k : String} {l : List (String × β)}
    (h : ∀ a ∈ l, a.1 ≠ k) : lookup k l = none := by
  induction l with
  | nil => rfl
  | cons e rest ih =>
    rw [lookup, if_neg (h e (by simp)), ih fun a ha => h a (by simp [ha])]

theorem mem_of_lookup {k : String} {v : β} {l : List (String × β)}
    (h : lookup k l = some v) : (k, v) ∈ l := by
  induction l with
  | nil => simp [lookup] at h
  | cons e rest ih =>
    rw [lookup] at h
    split at h
    next hk => cases h; subst hk; simp
    next => exact List.mem_cons_of_mem _ (ih h)

theorem lookup_of_mem {k : String} {v : β} {l : List (String × β)} (hs : Sorted l)
    (h : (k, v) ∈ l) : lookup k l = some v := by
  induction l with
  | nil => simp at h
  | cons e rest ih =>
    obtain ⟨he, hr⟩ := List.pairwise_cons.1 hs
    rcases List.mem_cons.1 h with rfl | h
    · simp [lookup]
    · have hlt := he _ h
      have hne : e.1 ≠ k := fun heq => String.lt_irrefl _ (heq ▸ hlt)
      rw [lookup, if_neg hne, ih hr h]

theorem lookup_filter {l : List (String × β)} (hs : Sorted l) (p : String × β → Bool)
    (k : String) :
    lookup k (l.filter p) = (lookup k l).filter fun v => p (k, v) := by
  induction l with
  | nil => rfl
  | cons e rest ih =>
    obtain ⟨he, hr⟩ := List.pairwise_cons.1 hs
    obtain ⟨k', v'⟩ := e
    by_cases hk : k' = k
    · subst hk
      by_cases hp : p (k', v') = true
      · simp [lookup, hp, Option.filter]
      · have : lookup k' (rest.filter p) = none := by
          refine lookup_eq_none_of_forall_ne fun a ha heq => ?_
          exact String.lt_irrefl _ (heq ▸ he a (List.mem_filter.1 ha).1)
        simp [lookup, hp, this, Option.filter]
    · by_cases hp : p (k', v') = true
      · simp [lookup, hp, hk, ih hr]
      · simp [lookup, hp, hk, ih hr]

/-- Sorted lists with the same look-ups are the same list. -/
theorem Sorted.ext {l m : List (String × β)} (hl : Sorted l) (hm : Sorted m)
    (h : ∀ k, lookup k l = lookup k m) : l = m := by
  induction l generalizing m with
  | nil =>
    cases m with
    | nil => rfl
    | cons e rest => have := h e.1; simp [lookup] at this
  | cons e rest ih =>
    obtain ⟨he, hr⟩ := List.pairwise_cons.1 hl
    cases m with
    | nil => have := h e.1; simp [lookup] at this
    | cons f tail =>
      obtain ⟨hf, ht⟩ := List.pairwise_cons.1 hm
      have hlow : ∀ k, k < e.1 → lookup k (e :: rest) = none := fun k hk =>
        lookup_eq_none_of_forall_ne fun a ha heq => by
          rcases List.mem_cons.1 ha with rfl | ha
          · exact String.lt_irrefl _ (heq ▸ hk)
          · exact String.lt_irrefl _ (String.lt_trans (heq ▸ he a ha) hk)
      have flow : ∀ k, k < f.1 → lookup k (f :: tail) = none := fun k hk =>
        lookup_eq_none_of_forall_ne fun a ha heq => by
          rcases List.mem_cons.1 ha with rfl | ha
          · exact String.lt_irrefl _ (heq ▸ hk)
          · exact String.lt_irrefl _ (String.lt_trans (heq ▸ hf a ha) hk)
      have hkey : e.1 = f.1 := by
        by_cases hef : e.1 < f.1
        · have := h e.1; rw [flow _ hef] at this; simp [lookup] at this
        · by_cases hne : e.1 = f.1
          · exact hne
          · have := h f.1
            rw [hlow _ (lt_of_not_lt_of_ne hef hne)] at this; simp [lookup] at this
      have hval : e.2 = f.2 := by
        have := h e.1; simpa [lookup, hkey] using this
      have heq : e = f := Prod.ext hkey hval
      subst heq
      refine congrArg _ (ih hr ht fun k => ?_)
      by_cases hk : e.1 = k
      · subst hk
        rw [lookup_eq_none_of_forall_ne fun a ha heq => String.lt_irrefl _ (heq ▸ he a ha),
          lookup_eq_none_of_forall_ne fun a ha heq => String.lt_irrefl _ (heq ▸ hf a ha)]
      · have := h k; simpa [lookup, hk] using this

end Entries

/-! ## Maps -/

/-- A finite map from strings, given by its entries in increasing key order. -/
structure KeyMap (β : Type u) where
  /-- The bindings, first key first. -/
  entries : List (String × β)
  sorted : Entries.Sorted entries
deriving DecidableEq

namespace KeyMap

instance [Repr β] : Repr (KeyMap β) := ⟨fun m p => reprPrec m.entries p⟩

/-- The map without bindings. -/
def empty : KeyMap β := ⟨[], List.Pairwise.nil⟩

instance : Inhabited (KeyMap β) := ⟨empty⟩

/-- The value bound to a key, if there is one. -/
def get? (m : KeyMap β) (k : String) : Option β := Entries.lookup k m.entries

/-- A key is bound. -/
def contains (m : KeyMap β) (k : String) : Bool := (m.get? k).isSome

/-- The keys in increasing order. -/
def keys (m : KeyMap β) : List String := m.entries.map Prod.fst

/-- The values in the order of their keys. -/
def values (m : KeyMap β) : List β := m.entries.map Prod.snd

/-- The number of bindings. -/
def size (m : KeyMap β) : Nat := m.entries.length

/-- There are no bindings. -/
def isEmpty (m : KeyMap β) : Bool := m.entries.isEmpty

/-- Bind a key, replacing an earlier binding. -/
def insert (m : KeyMap β) (k : String) (v : β) : KeyMap β :=
  ⟨Entries.insert k v m.entries, m.sorted.insert k v⟩

/-- Keep the bindings that satisfy `p`. -/
def filter (m : KeyMap β) (p : String → β → Bool) : KeyMap β :=
  ⟨m.entries.filter fun e => p e.1 e.2, List.Pairwise.filter _ m.sorted⟩

/-- Remove the binding of a key. -/
def erase (m : KeyMap β) (k : String) : KeyMap β := m.filter fun k' _ => k' != k

/-- Rebind a key to a function of what it was bound to; `none` stands for no
binding on either side. -/
def alter (m : KeyMap β) (k : String) (f : Option β → Option β) : KeyMap β :=
  match f (m.get? k) with
  | some v => m.insert k v
  | none => m.erase k

/-- Insert the bindings of a list from left to right, so that the last one of a
key wins. -/
def ofList (l : List (String × β)) : KeyMap β :=
  l.foldl (fun m e => m.insert e.1 e.2) empty

@[ext] theorem ext {m n : KeyMap β} (h : ∀ k, m.get? k = n.get? k) : m = n := by
  obtain ⟨l, hl⟩ := m
  obtain ⟨l', hl'⟩ := n
  have : l = l' := hl.ext hl' h
  subst this; rfl

@[simp] theorem get?_empty (k : String) : (empty : KeyMap β).get? k = none := rfl

theorem get?_insert (m : KeyMap β) (k k' : String) (v : β) :
    (m.insert k v).get? k' = if k = k' then some v else m.get? k' :=
  Entries.lookup_insert k k' v m.entries

@[simp] theorem get?_insert_self (m : KeyMap β) (k : String) (v : β) :
    (m.insert k v).get? k = some v := by simp [get?_insert]

theorem get?_filter (m : KeyMap β) (p : String → β → Bool) (k : String) :
    (m.filter p).get? k = (m.get? k).filter (p k) :=
  Entries.lookup_filter m.sorted (fun e => p e.1 e.2) k

theorem get?_erase (m : KeyMap β) (k k' : String) :
    (m.erase k).get? k' = if k = k' then none else m.get? k' := by
  rw [erase, get?_filter]
  by_cases h : k = k'
  · subst h; cases m.get? k <;> simp
  · cases m.get? k' <;> simp [h, Ne.symm h]

@[simp] theorem get?_erase_self (m : KeyMap β) (k : String) :
    (m.erase k).get? k = none := by simp [get?_erase]

theorem get?_alter (m : KeyMap β) (k k' : String) (f : Option β → Option β) :
    (m.alter k f).get? k' = if k = k' then f (m.get? k) else m.get? k' := by
  rw [alter]
  cases h : f (m.get? k) with
  | none => simp [get?_erase]
  | some v => simp [get?_insert]

/-- Binding a key to what it is bound to already changes nothing. -/
theorem insert_of_get? {m : KeyMap β} {k : String} {v : β} (h : m.get? k = some v) :
    m.insert k v = m := by
  ext1 k'
  rw [get?_insert]
  split
  next heq => rw [← heq, h]
  next => rfl

/-- There is nothing to remove under a key that is not bound. -/
theorem erase_of_get? {m : KeyMap β} {k : String} (h : m.get? k = none) : m.erase k = m := by
  ext1 k'
  rw [get?_erase]
  split
  next heq => rw [← heq, h]
  next => rfl

/-- Nothing is left out if all bindings satisfy `p`. -/
theorem filter_eq_self {m : KeyMap β} {p : String → β → Bool}
    (h : ∀ k v, m.get? k = some v → p k v) : m.filter p = m := by
  ext1 k
  rw [get?_filter]
  cases hk : m.get? k with
  | none => rfl
  | some v => exact Option.filter_some_pos (h k v hk)

@[simp] theorem contains_eq_isSome (m : KeyMap β) (k : String) :
    m.contains k = (m.get? k).isSome := rfl

theorem mem_entries_iff (m : KeyMap β) (k : String) (v : β) :
    (k, v) ∈ m.entries ↔ m.get? k = some v :=
  ⟨Entries.lookup_of_mem m.sorted, Entries.mem_of_lookup⟩

/-- No key is bound twice. -/
theorem nodup_keys (m : KeyMap β) : m.keys.Nodup := by
  rw [keys, List.Nodup, List.pairwise_map]
  refine List.Pairwise.imp ?_ m.sorted
  intro a b hab heq
  exact String.lt_irrefl _ (heq ▸ hab)

theorem mem_values_iff (m : KeyMap β) (v : β) : v ∈ m.values ↔ ∃ k, m.get? k = some v := by
  simp only [values, List.mem_map, Prod.exists, exists_eq_right, mem_entries_iff]

theorem mem_keys_iff (m : KeyMap β) (k : String) : k ∈ m.keys ↔ (m.get? k).isSome := by
  simp only [keys, List.mem_map, Prod.exists, exists_and_right, exists_eq_right,
    mem_entries_iff, Option.isSome_iff_exists]

/-- The entries of a sorted list are found in what they are inserted into, and nothing else
changes there. -/
theorem get?_foldl_insert {l : List (String × β)} (h : Entries.Sorted l) (m : KeyMap β)
    (k : String) :
    (l.foldl (fun m e => m.insert e.1 e.2) m).get? k = (Entries.lookup k l).or (m.get? k) := by
  induction l generalizing m with
  | nil => rfl
  | cons e l ih =>
    obtain ⟨hfirst, hrest⟩ := List.pairwise_cons.1 h
    rw [List.foldl_cons, ih hrest, get?_insert, Entries.lookup]
    by_cases hk : e.1 = k
    · have hnone : Entries.lookup k l = none :=
        Entries.lookup_eq_none_of_forall_ne fun a ha heq =>
          String.lt_irrefl k (by simpa only [hk, heq] using hfirst a ha)
      rw [if_pos hk, if_pos hk, hnone]
      rfl
    · rw [if_neg hk, if_neg hk]

/-- A map is put together again from its entries. -/
theorem ofList_entries (m : KeyMap β) : ofList m.entries = m := by
  ext1 k
  rw [ofList, get?_foldl_insert m.sorted, get?_empty, Option.or_none]
  rfl

theorem isEmpty_iff (m : KeyMap β) : m.isEmpty = true ↔ m = empty := by
  refine ⟨fun h => ?_, fun h => by rw [h]; rfl⟩
  obtain ⟨entries, sorted⟩ := m
  cases List.isEmpty_iff.1 h
  rfl

end KeyMap

end Chargeback
