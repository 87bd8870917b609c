import Mathlib.Data.List.Induction

/-!
# Histories

A history is a list with its oldest entry first, and it goes on at its end. What is said of
histories here is about the places at which they can be split.
-/

namespace Chargeback

universe u v

variable {α : Type u} {β : Type v} {past before after : List α} {x y : α}

/-- An entry of a history that has gone on is its last one, or was in it before. -/
theorem append_singleton_eq_append_cons_iff :
    past ++ [x] = before ++ y :: after ↔
      (before = past ∧ y = x ∧ after = []) ∨
        ∃ rest, past = before ++ y :: rest ∧ after = rest ++ [x] := by
  constructor
  · intro h
    rcases List.eq_nil_or_concat after with rfl | ⟨rest, last, rfl⟩
    · obtain ⟨rfl, hlast⟩ := List.append_inj' h rfl
      cases hlast
      exact .inl ⟨rfl, rfl, rfl⟩
    · rw [List.concat_eq_append, ← List.cons_append, ← List.append_assoc] at h
      obtain ⟨rfl, hlast⟩ := List.append_inj' h rfl
      cases hlast
      exact .inr ⟨rest, rfl, List.concat_eq_append⟩
  · rintro (⟨rfl, rfl, rfl⟩ | ⟨rest, rfl, rfl⟩)
    · rfl
    · simp

/-- Entries that make no difference to values of some kind can be left out, where all entries
keep this kind. -/
theorem foldl_filter_of_keeps {f : β → α → β} {p : α → Bool} {kind : β → Prop} {l : List α}
    (hkeeps : ∀ b a, kind b → kind (f b a))
    (h : ∀ b, kind b → ∀ a ∈ l, p a = false → f b a = b) {b : β} (hb : kind b) :
    (l.filter p).foldl f b = l.foldl f b := by
  induction l generalizing b with
  | nil => rfl
  | cons a l ih =>
    have ih' {b' : β} (hb' : kind b') : (l.filter p).foldl f b' = l.foldl f b' :=
      ih (fun b hb a ha => h b hb a (List.mem_cons_of_mem _ ha)) hb'
    cases ha : p a with
    | true => simp [ha, ih' (hkeeps b a hb)]
    | false => simp [ha, h b hb a List.mem_cons_self ha, ih' hb]

/-- Entries that make no difference can be left out. -/
theorem foldl_filter_of_eq {f : β → α → β} {p : α → Bool} (h : ∀ b a, p a = false → f b a = b)
    (b : β) (l : List α) : (l.filter p).foldl f b = l.foldl f b := by
  have hkeeps (b : β) (a : α) : True → True := id
  exact foldl_filter_of_keeps hkeeps (fun b _ a _ => h b a) trivial

end Chargeback
