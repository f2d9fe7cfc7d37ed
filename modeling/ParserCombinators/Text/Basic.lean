/-!
# Texts and positions

A text is an array of characters, and a position counts characters from its start. Positions are
integers: a parser may be asked to start before the text or past its end, where there is nothing to
read.

Characters are Unicode scalar values, so a text holds no lone surrogate. Strings that do, such as a
text in JSON can describe, are lists of code points.
-/

namespace ParserCombinators

abbrev Text := Array Char

namespace Text

def ofString (source : String) : Text := source.toList.toArray

def charAt? (text : Text) (position : Int) : Option Char :=
  if 0 ≤ position then text[position.toNat]? else none

/-- How many characters lie after a position; zero at the end and past it. -/
def remaining (text : Text) (position : Int) : Nat := (text.size - position).toNat

/-- The characters from a position on. -/
def suffixFrom (text : Text) (position : Int) : List Char := text.toList.drop position.toNat

theorem charAt?_eq_some {text : Text} {position : Int} {c : Char} :
    text.charAt? position = some c ↔ 0 ≤ position ∧ text[position.toNat]? = some c := by
  by_cases h : 0 ≤ position <;> simp [charAt?, h]

theorem charAt?_of_neg {text : Text} {position : Int} (h : position < 0) :
    text.charAt? position = none := by
  simp [charAt?, show ¬0 ≤ position by omega]

theorem lt_size_of_charAt? {text : Text} {position : Int} {c : Char}
    (h : text.charAt? position = some c) : 0 ≤ position ∧ position < text.size := by
  obtain ⟨nonnegative, found⟩ := charAt?_eq_some.1 h
  have := (Array.getElem?_eq_some_iff.1 found).1
  omega

end Text

end ParserCombinators
