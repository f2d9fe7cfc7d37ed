import ParserCombinators.Character.Blank
import ParserCombinators.Character.Digit
import ParserCombinators.Character.Letter
import ParserCombinators.Parser.Basic

/-!
# Parsers for characters and tokens

Digits, letters and blanks of any script, fixed texts, and the tokens made of them.
-/

namespace ParserCombinators.Parser

variable {κ ρ α : Type}

def digit : Parser κ ρ Char := .satisfy Character.isDigit

def letter : Parser κ ρ Char := .satisfy Character.isLetter

def blank : Parser κ ρ Char := .satisfy Character.isBlank

def blanks : Parser κ ρ (List Char) := .many blank

def char (expected : Char) : Parser κ ρ Char := .satisfy (· == expected)

def skipChar (expected : Char) : Parser κ ρ Unit := (char expected).map fun _ ↦ ()

/-- One step for each character. -/
def spelling (value : α) : List Char → Script κ ρ α
  | [] => .finish (.ok value)
  | c :: rest => .step (char c) fun _ ↦ spelling value rest

def literal (expected : String) : Parser κ ρ String :=
  .sequence none (spelling expected expected.toList)

/-- One or more characters as a string. -/
def stringOf (character : Parser κ ρ Char) : Parser κ ρ String :=
  (Parser.many1 character).map String.ofList

/-- The parser, and then any blanks. -/
def lexeme (inner : Parser κ ρ α) : Parser κ ρ α := .keepLeft inner blanks

/-- Any blanks, and then the parser. -/
def skipBlanks (inner : Parser κ ρ α) : Parser κ ρ α := .keepRight blanks inner

/-- The number that digits of any scripts spell in base ten. -/
def valueOfDigits (digits : List Char) : Nat :=
  digits.foldl (fun total c ↦ total * 10 + Character.digitValue c) 0

def integer : Parser κ ρ Nat := (Parser.many1 digit).map valueOfDigits

def identifier : Parser κ ρ String := stringOf letter

end ParserCombinators.Parser
