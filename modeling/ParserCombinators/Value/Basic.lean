import ParserCombinators.Expression.Basic
import ParserCombinators.Json.Value
import ParserCombinators.Number.Reading

/-!
# Values of all kinds

Where values of all kinds come together, in the grammars that are put together at run time and in
the variables of an expression, they are of one type. Among the values are the functions that
combine the terms of a chain.
-/

namespace ParserCombinators

inductive Combiner
  | add
  | subtract
  | multiply
  | pair
  | keepLeft
  | keepRight
  /-- Makes an expression out of two. -/
  | operation (operator : Operator)
  deriving DecidableEq, Repr

inductive Value
  | nothing
  | boolean (value : Bool)
  | number (value : Number)
  | text (value : CodePoints)
  | list (items : List Value)
  | tuple (items : List Value)
  | dictionary (members : List (CodePoints × Value))
  | function (combiner : Combiner)
  | expression (tree : Expression)

namespace Value

def ofNat (n : Nat) : Value := number (.integer n)

def ofString (source : String) : Value := text (.ofString source)

def ofChars (characters : List Char) : Value := text (.ofChars characters)

def ofChar (c : Char) : Value := ofChars [c]

mutual

def ofJson : Json.Value → Value
  | .null => nothing
  | .boolean value => boolean value
  | .number value => number value
  | .string value => text value
  | .array items => list (ofItems items)
  | .object members => dictionary (ofMembers members)

def ofItems : List Json.Value → List Value
  | [] => []
  | item :: rest => ofJson item :: ofItems rest

def ofMembers : List (CodePoints × Json.Value) → List (CodePoints × Value)
  | [] => []
  | (key, value) :: rest => (key, ofJson value) :: ofMembers rest

end

/-- The name of the kind of a value in messages. -/
def kind : Value → String
  | nothing => "NoneType"
  | boolean _ => "bool"
  | number (.integer _) => "int"
  | number (.float _) => "float"
  | text _ => "str"
  | list _ => "list"
  | tuple _ => "tuple"
  | dictionary _ => "dict"
  | function _ => "function"
  | expression (.constant _) => "IntegerConstant"
  | expression (.identifier _) => "Variable"
  | expression (.operation _ _ _) => "BinaryOperation"
  | expression (.foreign _) => "str"

/-- A truth value counts as zero or one where a number is wanted. -/
def toNumber? : Value → Option Number
  | number value => some value
  | boolean value => some (.integer (if value then 1 else 0))
  | _ => none

def toInteger? (value : Value) : Option Int :=
  match value.toNumber? with
  | some (.integer n) => some n
  | _ => none

def toExpression? : Value → Option Expression
  | expression tree => some tree
  | text points => points.toString?.map .foreign
  | _ => none

/-- The values that can be taken one after another: those of a list or tuple, the characters of a
text, the keys of a dictionary. -/
def items? : Value → Option (List Value)
  | list items => some items
  | tuple items => some items
  | text points => some (points.map fun point ↦ text [point])
  | dictionary members => some (members.map fun entry ↦ text entry.1)
  | _ => none

/-- A place is counted from the start, or from the end if it is negative. -/
def elementAt? (items : List Value) (index : Int) : Option Value :=
  let place := if index < 0 then index + items.length else index
  if place < 0 then none else items[place.toNat]?

def elementAt (items : List Value) (index : Int) : Except Fault Value :=
  match elementAt? items index with
  | some item => .ok item
  | none => .error (.missingElement "list")

end Value

/-- Whether an integer and a double are the same number. -/
def sameNumber (n : Int) (x : Float) : Bool :=
  let parts := Binary64.parts x
  let magnitude : Nat := parts.mantissa * twoTo parts.exponent.toNat
  x.isFinite && Reading.signed parts.negative magnitude == n * twoTo (-parts.exponent).toNat

def Number.agrees : Number → Number → Bool
  | .integer m, .integer n => m == n
  | .integer m, .float y => sameNumber m y
  | .float x, .integer n => sameNumber n x
  | .float x, .float y => x == y

namespace Value

mutual

/-- Numbers agree by value, so that one, true and the double one are equal; a value of another kind
is equal only to values of its own kind. -/
def agrees : Value → Value → Bool
  | nothing, nothing => true
  | text left, text right => left == right
  | list left, list right => agreeAll left right
  | tuple left, tuple right => agreeAll left right
  | expression left, expression right => left == right
  | function left, function right => left == right
  | left, right =>
    match left.toNumber?, right.toNumber? with
    | some m, some n => Number.agrees m n
    | _, _ => false

def agreeAll : List Value → List Value → Bool
  | [], [] => true
  | left :: lefts, right :: rights => agrees left right && agreeAll lefts rights
  | _, _ => false

end

end Value

end ParserCombinators
