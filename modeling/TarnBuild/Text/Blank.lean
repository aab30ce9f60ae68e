/-!
# Blank characters

A character is blank when it has the Unicode property `White_Space`: the 25
characters listed here, and no other.  Trimming removes the blank characters
at both ends of a text and keeps everything between.
-/

namespace TarnBuild.Text

/-- The code points of the blank characters, as closed ranges in increasing order. -/
def blankRanges : List (Nat × Nat) :=
  [(0x0009, 0x000D), (0x0020, 0x0020), (0x0085, 0x0085), (0x00A0, 0x00A0),
   (0x1680, 0x1680), (0x2000, 0x200A), (0x2028, 0x2029), (0x202F, 0x202F),
   (0x205F, 0x205F), (0x3000, 0x3000)]

/-- Whether a character lies in one of these ranges. -/
def isBlank (character : Char) : Bool :=
  blankRanges.any fun range =>
    range.1 ≤ character.toNat && character.toNat ≤ range.2

/-- A text without the blank characters at its two ends. -/
def trimmed (text : List Char) : List Char :=
  ((text.dropWhile isBlank).reverse.dropWhile isBlank).reverse

/-- A string without the blank characters at its two ends. -/
def trim (text : String) : String :=
  String.ofList (trimmed text.toList)

end TarnBuild.Text
