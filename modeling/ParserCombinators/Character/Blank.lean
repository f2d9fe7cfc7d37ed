import ParserCombinators.Character.Ranges

/-!
# Blanks

The white space of Unicode 14 together with the four information separators U+001C to U+001F. Around
a number in text those four do not count as blanks.
-/

namespace ParserCombinators.Character

def blankRanges : Ranges :=
  [(0x0009, 0x000D), (0x001C, 0x0020), (0x0085, 0x0085), (0x00A0, 0x00A0), (0x1680, 0x1680),
   (0x2000, 0x200A), (0x2028, 0x2029), (0x202F, 0x202F), (0x205F, 0x205F), (0x3000, 0x3000)]

def isBlank (c : Char) : Bool := blankRanges.covers c.toNat

/-- The four separators of files, groups, records and units. -/
def isInformationSeparator (c : Char) : Bool := 0x1C ≤ c.toNat && c.toNat ≤ 0x1F

end ParserCombinators.Character
