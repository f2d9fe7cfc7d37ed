import ParserCombinators.Parser.Lexical

/-!
# Three small grammars

An introduction to the ways of putting parsers together: a sum of two integers by explicit binding,
a name with its value as a sequence, and a list of those with blanks in between.
-/

namespace ParserCombinators.Introduction

variable {κ ρ : Type}

def sumOfTwo : Parser κ ρ Nat :=
  .bind .integer fun first ↦
    .keepRight (.skipChar '+') (Parser.integer.map fun second ↦ first + second)

def keyValue : Parser κ ρ (String × Nat) :=
  .sequence none <|
    .step .identifier fun name ↦
    .step (.skipChar '=') fun _ ↦
    .step .integer fun value ↦
    .finish (.ok (name, value))

/-- Blanks after the last pair, and a pair that breaks off, are left unread. -/
def keyValues : Parser κ ρ (List (String × Nat)) :=
  .sequence none <|
    .step keyValue fun first ↦
    .step (.many (.keepRight (.stringOf .blank) keyValue)) fun rest ↦
    .finish (.ok (first :: rest))

end ParserCombinators.Introduction
