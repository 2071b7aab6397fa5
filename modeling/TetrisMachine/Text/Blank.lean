import TetrisMachine.Text.Ranges

/-!
# Blank characters

The characters with the Unicode property White_Space, and trimming by them.

* `isBlank`: the characters with the property.
* `mem_of_mem_trim`: trimming adds no character.
-/

namespace TetrisMachine.Text

/-- The blank characters, as ranges of code points, both ends included. -/
def blankRanges : List (Nat × Nat) :=
  [(0x9, 0xd), (0x20, 0x20), (0x85, 0x85), (0xa0, 0xa0), (0x1680, 0x1680), (0x2000, 0x200a),
    (0x2028, 0x2029), (0x202f, 0x202f), (0x205f, 0x205f), (0x3000, 0x3000)]

/-- Whether a character has the Unicode property White_Space. -/
def isBlank (c : Char) : Bool :=
  inRanges blankRanges c

/-- A text without the blanks at its two ends. -/
def trim (cs : List Char) : List Char :=
  ((cs.dropWhile isBlank).reverse.dropWhile isBlank).reverse

theorem mem_of_mem_dropWhile {p : Char → Bool} {c : Char} {cs : List Char}
    (h : c ∈ cs.dropWhile p) : c ∈ cs :=
  (List.dropWhile_suffix p).subset h

/-- Trimming adds no character. -/
theorem mem_of_mem_trim {c : Char} {cs : List Char} (h : c ∈ trim cs) : c ∈ cs := by
  simp only [trim, List.mem_reverse] at h
  exact mem_of_mem_dropWhile (List.mem_reverse.1 (mem_of_mem_dropWhile h))

end TetrisMachine.Text
