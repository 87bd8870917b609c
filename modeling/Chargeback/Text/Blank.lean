/-!
# White space

The characters with the Unicode property `White_Space`, and the removal of a
text's leading and trailing ones.

## Main definitions

* `Text.isBlank`: membership in the property.
* `Text.trim`: a text without the blanks at its two ends.
-/

namespace Chargeback

namespace Text

/-- The closed ranges of code points with the property `White_Space`. -/
def blankRanges : List (Nat × Nat) :=
  [(0x9, 0xD), (0x20, 0x20), (0x85, 0x85), (0xA0, 0xA0), (0x1680, 0x1680),
    (0x2000, 0x200A), (0x2028, 0x2029), (0x202F, 0x202F), (0x205F, 0x205F), (0x3000, 0x3000)]

/-- A character is white space in the sense of Unicode. -/
def isBlank (c : Char) : Bool :=
  blankRanges.any fun r => r.1 ≤ c.toNat && c.toNat ≤ r.2

/-- Leave out the blanks that a text starts with. -/
def trimLeft (s : List Char) : List Char := s.dropWhile isBlank

/-- Leave out the blanks that a text ends with. -/
def trimRight (s : List Char) : List Char := (s.reverse.dropWhile isBlank).reverse

/-- Leave out the blanks at both ends of a text. -/
def trim (s : List Char) : List Char := trimRight (trimLeft s)

/-- Every blank that the standard library knows is one here. -/
theorem isBlank_of_isWhitespace {c : Char} (h : c.isWhitespace = true) : isBlank c = true := by
  simp only [Char.isWhitespace, Bool.or_eq_true, decide_eq_true_eq] at h
  rcases h with ((rfl | rfl) | rfl) | rfl <;> decide

example : (blankRanges.map fun r => r.2 - r.1 + 1).sum = 25 := by decide

end Text

end Chargeback
