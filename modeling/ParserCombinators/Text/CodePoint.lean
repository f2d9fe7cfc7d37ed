/-!
# Code points

A string that a text describes through escapes can hold any code point, also a lone surrogate, which
is no character. Such strings are lists of code points; every string of characters is one of them.
-/

namespace ParserCombinators

abbrev CodePoint := Fin 0x110000

abbrev CodePoints := List CodePoint

namespace CodePoint

def ofChar (c : Char) : CodePoint := ⟨c.toNat, by
  have := c.valid
  simp only [UInt32.isValidChar, Nat.isValidChar] at this
  simp only [Char.toNat]
  omega⟩

def ofNat (code : Nat) : CodePoint := Fin.ofNat 0x110000 code

/-- The character of a code point that is no surrogate. -/
def toChar? (point : CodePoint) : Option Char :=
  if h : point.val.isValidChar then some (Char.ofNatAux point.val h) else none

end CodePoint

namespace CodePoints

def ofChars (characters : List Char) : CodePoints := characters.map CodePoint.ofChar

def ofString (source : String) : CodePoints := ofChars source.toList

/-- The string that the code points spell, unless one of them is a surrogate. -/
def toString? (points : CodePoints) : Option String :=
  (points.mapM CodePoint.toChar?).map String.ofList

end CodePoints

end ParserCombinators
