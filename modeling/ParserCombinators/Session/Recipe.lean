import ParserCombinators.Session.Function

/-!
# Recipes

A recipe describes a parser. It names one of the ready-made grammars, or says how the parser is put
together from others, which it describes in turn or refers to by name.
-/

namespace ParserCombinators.Session

/-- The ready-made parsers. -/
inductive ReadyMade
  | item
  | digit
  | letter
  | blank
  | blanks
  | integer
  | identifier
  | expression (spaced : Bool)
  | sumOfTwo
  | keyValue
  | keyValues
  | jsonDigits
  | jsonFraction
  | jsonExponent
  | jsonNumberText
  | jsonNumber
  | jsonPlain
  | jsonSimpleEscape
  | jsonHexDigit
  | jsonUnicodeEscape
  | jsonString
  | jsonValue
  | jsonArray
  | jsonMember
  | jsonObject
  | jsonDocument

inductive CharacterTest
  | any
  | none
  | digit
  | letter
  | blank
  | among (characters : List Char)
  | outside (characters : List Char)

/-- What a sequence makes of the values of its steps. -/
inductive Finish
  | values
  | last
  | constant (value : Value)

/-- A step may be skipped when the value at a place agrees with a given one. -/
structure Skip where
  index : Int
  agreesWith : Value

mutual

inductive Recipe
  | readyMade (parser : ReadyMade)
  | named (name : String)
  | fail
  | succeed (value : Value)
  | satisfy (test : CharacterTest)
  | character (text : CodePoints)
  | skipCharacter (text : CodePoints)
  | punctuation (text : CodePoints)
  | literal (text : String)
  | reserved (word : String)
  | choice (alternatives : List Recipe)
  | keepRight (first second : Recipe)
  | keepLeft (first second : Recipe)
  | pair (first second : Recipe)
  | between (opening inner closing : Recipe)
  | many (inner : Recipe)
  | many1 (inner : Recipe)
  | chainLeft (term operator : Recipe)
  | stringOf (inner : Recipe)
  | lexeme (inner : Recipe)
  | skipBlanks (inner : Recipe)
  | optional (inner : Recipe)
  | separatedBy (item separator : Recipe)
  | convert (inner : Recipe) (function : Function)
  | bind (first : Recipe) (next : Continuation)
  | trace (tag : String) (inner : Recipe)
  | sequence (steps : List (Option Skip × Recipe)) (finish : Finish) (label : Option String)

/-- How to go on with a value. -/
inductive Continuation
  /-- The value again, as a character. -/
  | same
  /-- Succeed with a list of the value alone. -/
  | succeed
  | fail
  /-- As many characters as the value says, as a list. -/
  | count
  | always (recipe : Recipe)
  /-- The recipe found under the value. -/
  | table (entries : List (String × Recipe))

end

end ParserCombinators.Session
