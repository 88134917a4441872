/-!
# Blank characters and words of a text

A character is **blank** when it has the Unicode property `White_Space`. The information
separators U+001C to U+001F, the zero-width space U+200B and the byte order mark U+FEFF look
empty and are not in it.

`Text.tokens` cuts a line at its blank characters, and `Text.trim` removes them at both ends.
Both look at nothing but `Text.isBlank`.
-/

namespace BasicComputer.Text

/-- The inclusive ranges of the property `White_Space`, in ascending order. -/
def blankRanges : List (Nat × Nat) :=
  [(0x0009, 0x000D), (0x0020, 0x0020), (0x0085, 0x0085), (0x00A0, 0x00A0), (0x1680, 0x1680),
   (0x2000, 0x200A), (0x2028, 0x2029), (0x202F, 0x202F), (0x205F, 0x205F), (0x3000, 0x3000)]

/-- Whether a character separates tokens. -/
def isBlank (c : Char) : Bool :=
  blankRanges.any fun (low, high) => low ≤ c.toNat && c.toNat ≤ high

/-- The maximal runs of non-blank characters, in order. -/
def tokens (text : String) : List String :=
  ((text.toList.splitOnP isBlank).filter (· ≠ [])).map String.ofList

/-- The text without the blank characters that it starts and ends with. -/
def trim (cs : List Char) : List Char :=
  ((cs.dropWhile isBlank).reverse.dropWhile isBlank).reverse

end BasicComputer.Text
