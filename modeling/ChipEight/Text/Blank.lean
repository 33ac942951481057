/-!
# White space

The characters that count as white space around a text: the Unicode property
`White_Space` together with the four information separators. `strip` removes
them from both ends.

## Main results

* `isBlank_of_isWhitespace` — every blank of plain ASCII text is one of them.
-/

namespace ChipEight.Text

/-- Ranges of code points that are white space, both ends included. -/
def blankRanges : List (Nat × Nat) :=
  [ (0x09, 0x0D), (0x1C, 0x20), (0x85, 0x85), (0xA0, 0xA0), (0x1680, 0x1680)
  , (0x2000, 0x200A), (0x2028, 0x2029), (0x202F, 0x202F), (0x205F, 0x205F)
  , (0x3000, 0x3000) ]

/-- Whether a code point lies in one of the ranges. -/
def inRanges (ranges : List (Nat × Nat)) (code : Nat) : Bool :=
  ranges.any fun r => decide (r.1 ≤ code ∧ code ≤ r.2)

/-- Whether a character is white space. -/
def isBlank (c : Char) : Bool := inRanges blankRanges c.toNat

theorem isBlank_of_isWhitespace {c : Char} (h : c.isWhitespace = true) : isBlank c = true := by
  simp only [Char.isWhitespace, Bool.or_eq_true, decide_eq_true_eq] at h
  rcases h with ((rfl | rfl) | rfl) | rfl <;> rfl

/-- Drops white space in front. -/
def stripLeft (cs : List Char) : List Char := cs.dropWhile isBlank

/-- Drops white space at both ends. -/
def strip (cs : List Char) : List Char := (stripLeft (stripLeft cs).reverse).reverse

end ChipEight.Text
