/-!
# Powers of two and of ten

The scales of doubles and of decimals.
-/

namespace ParserCombinators

def twoTo (exponent : Nat) : Nat := Nat.pow 2 exponent

def tenTo (exponent : Nat) : Nat := Nat.pow 10 exponent

theorem tenTo_pos (exponent : Nat) : 0 < tenTo exponent := Nat.pow_pos (by decide)

end ParserCombinators
