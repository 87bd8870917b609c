import Chargeback.Text.Blank

/-!
# Fronts of texts

The front of a text over a class of characters is its longest front that has no others. A text
splits behind it in one way only: the front has characters of the class, and what follows does
not go on with one. Trimming takes off such fronts at both ends.

## Main definitions

* `Text.Splits`: a text split behind its front over a class.
* `Text.Blanks`: the texts that trimming takes off.
-/

namespace Chargeback

namespace Text

variable {p : Char → Bool} {s front back left right : List Char}

/-- The text is split behind its front over the class. -/
structure Splits (p : Char → Bool) (s front back : List Char) : Prop where
  eq_append : s = front ++ back
  front_mem : ∀ c ∈ front, p c = true
  back_not_mem : ∀ c ∈ back.head?, p c = false

theorem splits_takeWhile (p : Char → Bool) (s : List Char) :
    Splits p s (s.takeWhile p) (s.dropWhile p) where
  eq_append := List.takeWhile_append_dropWhile.symm
  front_mem c hc := List.all_eq_true.mp List.all_takeWhile c hc
  back_not_mem c hc := by
    have h := List.head?_dropWhile_not p s
    rwa [hc] at h

/-- What does not begin in the class has an empty front. -/
theorem takeWhile_dropWhile_of_head? (h : ∀ c ∈ back.head?, p c = false) :
    back.takeWhile p = [] ∧ back.dropWhile p = back := by
  cases back with
  | nil => exact ⟨rfl, rfl⟩
  | cons c rest =>
    have hc : p c = false := h c rfl
    simp [hc]

/-- A text splits in one way only. -/
theorem Splits.eq_takeWhile (h : Splits p s front back) :
    s.takeWhile p = front ∧ s.dropWhile p = back := by
  obtain ⟨htake, hdrop⟩ := takeWhile_dropWhile_of_head? h.back_not_mem
  rw [h.eq_append, List.takeWhile_append_of_pos h.front_mem,
    List.dropWhile_append_of_pos h.front_mem, htake, hdrop, List.append_nil]
  exact ⟨rfl, rfl⟩

/-- No longer front of the text has characters of the class only. -/
theorem Splits.longest (h : Splits p s front back) {longer : List Char} (hlonger : longer <+: s)
    (hmem : ∀ c ∈ longer, p c = true) : longer <+: front := by
  obtain ⟨rest, rfl⟩ := hlonger
  rw [← h.eq_takeWhile.1, List.takeWhile_append_of_pos hmem]
  exact List.prefix_append longer _

/-! ## Trimming -/

/-- The text is made of blanks only. -/
def Blanks (s : List Char) : Prop := ∀ c ∈ s, isBlank c = true

/-- Trimming takes off blanks at both ends. -/
theorem exists_blanks_trim (s : List Char) :
    ∃ left right, Blanks left ∧ Blanks right ∧ s = left ++ trim s ++ right := by
  have hleft := splits_takeWhile isBlank s
  have hright := splits_takeWhile isBlank (trimLeft s).reverse
  refine ⟨s.takeWhile isBlank, ((trimLeft s).reverse.takeWhile isBlank).reverse, hleft.front_mem,
    fun c hc => hright.front_mem c (List.mem_reverse.mp hc), ?_⟩
  have hmiddle : trimLeft s = trim s ++ ((trimLeft s).reverse.takeWhile isBlank).reverse := by
    have h := congrArg List.reverse hright.eq_append
    rwa [List.reverse_reverse, List.reverse_append] at h
  rw [List.append_assoc, ← hmiddle]
  exact hleft.eq_append

theorem dropWhile_isBlank_append (hleft : Blanks left) (hs : ∀ c ∈ s, isBlank c = false)
    (hne : s ≠ []) : (left ++ (s ++ right)).dropWhile isBlank = s ++ right := by
  have hhead : ∀ c ∈ (s ++ right).head?, isBlank c = false := by
    cases s with
    | nil => exact absurd rfl hne
    | cons c rest =>
      intro c' hc'
      obtain rfl : c = c' := Option.some_inj.mp hc'
      exact hs c List.mem_cons_self
  exact (Splits.eq_takeWhile ⟨rfl, hleft, hhead⟩).2

/-- A text without blanks is what trimming leaves, whatever blanks stand around it. -/
theorem trim_append (hleft : Blanks left) (hright : Blanks right)
    (hs : ∀ c ∈ s, isBlank c = false) (hne : s ≠ []) : trim (left ++ s ++ right) = s := by
  have hfront : trimLeft (left ++ s ++ right) = s ++ right := by
    rw [trimLeft, List.append_assoc, dropWhile_isBlank_append hleft hs hne]
  have hright' : Blanks right.reverse := fun c hc => hright c (List.mem_reverse.mp hc)
  have hs' : ∀ c ∈ s.reverse, isBlank c = false := fun c hc => hs c (List.mem_reverse.mp hc)
  have hback : (right.reverse ++ (s.reverse ++ [])).dropWhile isBlank = s.reverse ++ [] :=
    dropWhile_isBlank_append hright' hs' (by simpa using hne)
  simp only [List.append_nil] at hback
  rw [trim, hfront, trimRight, List.reverse_append, hback, List.reverse_reverse]

end Text

end Chargeback
