import ParserCombinators.Character.Blank

/-!
# Stripping

A stripped text has lost the longest run of blanks at its end, or at both of its ends.
-/

namespace ParserCombinators

def stripStart (characters : List Char) : List Char := characters.dropWhile Character.isBlank

def stripEnd (characters : List Char) : List Char :=
  (characters.reverse.dropWhile Character.isBlank).reverse

def strip (characters : List Char) : List Char := stripStart (stripEnd characters)

end ParserCombinators
