/-!
# Sets of code points as lists of ranges

The character classes of Unicode are unions of ranges of code points. A class is kept as the list of
its ranges in increasing order, so that a code point below a range is known not to be in any later
one.
-/

namespace ParserCombinators.Character

/-- Each pair holds the first and the last code point of a range. -/
abbrev Ranges := List (Nat × Nat)

/-- The search stops at the first range that starts above the code point. -/
def Ranges.covers : Ranges → Nat → Bool
  | [], _ => false
  | (first, last) :: rest, code => first ≤ code && (code ≤ last || covers rest code)

end ParserCombinators.Character
