/-!
# Mismatches

Values are of different kinds, and an operation is defined on some of them only. A mismatch tells
which operation met which kinds; kinds are given by the names that messages use for them.
-/

namespace ParserCombinators

inductive Mismatch
  /-- No operator of this symbol takes the two kinds. -/
  | operands (symbol : Char) (left right : String)
  /-- Something of another kind was to be put after a text, list or tuple. -/
  | concatenation (kind other : String)
  /-- Something that is no integer was to say how often a sequence is repeated. -/
  | repetition (kind : String)
  | noLength (kind : String)
  | noElements
  /-- Something that is no text was to be joined to others. -/
  | joining (place : Nat) (kind : String)
  | noUpperCase (kind : String)
  | noInteger (kind : String)
  | noCount (kind : String)
  | noIndexing (kind : String)
  | noFunction (kind : String)
  | noLookUp (kind : String)
  /-- A part of an expression was to be made of a value of another kind. -/
  | noExpression
  deriving DecidableEq, Repr

namespace Mismatch

def inQuotes (text : String) : String := "'" ++ text ++ "'"

def message : Mismatch → String
  | operands symbol left right =>
    "unsupported operand type(s) for " ++ symbol.toString ++ ": " ++ inQuotes left ++ " and " ++
      inQuotes right
  | concatenation kind other =>
    "can only concatenate " ++ kind ++ " (not \x22" ++ other ++ "\x22) to " ++ kind
  | repetition kind => "can't multiply sequence by non-int of type " ++ inQuotes kind
  | noLength kind => "object of type " ++ inQuotes kind ++ " has no len()"
  | noElements => "can only join an iterable"
  | joining place kind =>
    "sequence item " ++ toString place ++ ": expected str instance, " ++ kind ++ " found"
  | noUpperCase kind =>
    "descriptor 'upper' for 'str' objects doesn't apply to a " ++ inQuotes kind ++ " object"
  | noInteger kind =>
    "int() argument must be a string, a bytes-like object or a real number, not " ++ inQuotes kind
  | noCount kind => inQuotes kind ++ " object cannot be interpreted as an integer"
  | noIndexing kind => inQuotes kind ++ " object is not subscriptable"
  | noFunction kind => inQuotes kind ++ " object is not callable"
  | noLookUp kind => "unhashable type: " ++ inQuotes kind
  | noExpression => ""

end Mismatch

end ParserCombinators
