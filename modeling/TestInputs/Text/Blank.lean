/-
White space and trimming. A character is blank when it has the White_Space property; trimming removes blanks from the
ends of a text and leaves the blanks inside it alone. Texts are handled as lists of characters.
-/

namespace TestInputs.Text

/-- the code points with the White_Space property, as inclusive ranges in ascending order -/
def blankRanges : List (Nat × Nat) :=
  [(0x9, 0xd), (0x20, 0x20), (0x85, 0x85), (0xa0, 0xa0), (0x1680, 0x1680), (0x2000, 0x200a), (0x2028, 0x2029),
    (0x202f, 0x202f), (0x205f, 0x205f), (0x3000, 0x3000)]

/-- does a code point lie in one of the inclusive ranges? -/
def inRanges (ranges : List (Nat × Nat)) (code : Nat) : Bool :=
  ranges.any fun range => range.1 ≤ code && code ≤ range.2

/-- a white-space character -/
def isBlank (c : Char) : Bool :=
  inRanges blankRanges c.toNat

/-- drop the longest final run of characters that satisfy `p` -/
def dropEndWhile (p : Char → Bool) (cs : List Char) : List Char :=
  (cs.reverse.dropWhile p).reverse

/-- remove blanks from both ends -/
def trim (cs : List Char) : List Char :=
  dropEndWhile isBlank (cs.dropWhile isBlank)

end TestInputs.Text
