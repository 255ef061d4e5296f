/-!
# Blank space

The characters that count as blank around user names, CSV fields and dates, and trimming by them.
The set is the Unicode property White_Space, which is larger than the ASCII blanks.

* `trimStart`, `trimEnd`, `trim`: drop blanks at one end or both ends.
-/

namespace Lending.Text

/-- White_Space as ranges of code points, ends included. -/
def blankRanges : List (Nat × Nat) :=
  [(0x9, 0xD), (0x20, 0x20), (0x85, 0x85), (0xA0, 0xA0), (0x1680, 0x1680), (0x2000, 0x200A),
   (0x2028, 0x2029), (0x202F, 0x202F), (0x205F, 0x205F), (0x3000, 0x3000)]

/-- Whether a character is blank. -/
def isBlank (c : Char) : Bool :=
  blankRanges.any fun range => range.1 ≤ c.toNat && c.toNat ≤ range.2

/-- The text without blanks at its front. -/
def trimStart (cs : List Char) : List Char := cs.dropWhile isBlank

/-- The text without blanks at its end. -/
def trimEnd (cs : List Char) : List Char := (cs.reverse.dropWhile isBlank).reverse

/-- The text without blanks around it. -/
def trim (cs : List Char) : List Char := trimEnd (trimStart cs)

/-- Whether nothing but blanks is in the text. -/
def isAllBlank (s : String) : Bool := s.toList.all isBlank

end Lending.Text
