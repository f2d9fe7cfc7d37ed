import ParserCombinators.Character.UpperCase
import ParserCombinators.Number.Reading
import ParserCombinators.Value.Arithmetic

/-!
# Functions on values

The functions that a description can apply to the value of a parser.
-/

namespace ParserCombinators.Session

inductive Function
  | identity
  | upper
  /-- Reads a text as an integer, or cuts off the fraction of a number. -/
  | integer
  /-- Joins texts end to end. -/
  | join
  | length
  | successor
  | nothing
  | wrap
  | first
  | second
  | constantTree
  | identifierTree
  | constant (value : Value)

namespace Function

/-- The texts end to end; the first value that is no text is told by its place. -/
def joinTexts (place : Nat) : List Value → Except Fault CodePoints
  | [] => .ok []
  | .text points :: rest => (joinTexts (place + 1) rest).map (points ++ ·)
  | value :: _ => .error (.mismatch (.joining place value.kind))

def joined (value : Value) : Except Fault Value :=
  match value.items? with
  | none => .error (.mismatch .noElements)
  | some items => (joinTexts 0 items).map .text

def truncated (x : Float) : Except Fault Int :=
  if x.isNaN then .error .undefinedInteger
  else if x.isInf then .error .infiniteInteger
  else
    let parts := Binary64.parts x
    let magnitude := parts.mantissa * twoTo parts.exponent.toNat / twoTo (-parts.exponent).toNat
    .ok (Reading.signed parts.negative magnitude)

def readInteger : Value → Except Fault Int
  | .text points =>
    match points.toString? with
    | some source => Reading.integer source.toList
    | none => .error (.notAnInteger points)
  | value =>
    match value.toNumber? with
    | some (.integer n) => .ok n
    | some (.float x) => truncated x
    | none => .error (.mismatch (.noInteger value.kind))

/-- A text is a sequence of strings in the wording of messages. -/
def sequenceName : Value → String
  | .text _ => "string"
  | value => value.kind

/-- A dictionary has no element under a number. -/
def element (index : Nat) (value : Value) : Except Fault Value :=
  match value, value.items? with
  | .dictionary _, _ => .error .missingKey
  | _, none => .error (.mismatch (.noIndexing value.kind))
  | _, some items =>
    match items[index]? with
    | some item => .ok item
    | none => .error (.missingElement (sequenceName value))

def apply : Function → Value → Except Fault Value
  | identity, value => .ok value
  | upper, .text points => .ok (.text (Character.upperCase points))
  | upper, value => .error (.mismatch (.noUpperCase value.kind))
  | integer, value => (readInteger value).map fun n ↦ .number (.integer n)
  | join, value => joined value
  | length, value =>
    match value.items? with
    | some items => .ok (.ofNat items.length)
    | none => .error (.mismatch (.noLength value.kind))
  | successor, value => value.add (.ofNat 1)
  | nothing, _ => .ok .nothing
  | wrap, value => .ok (.list [value])
  | first, value => element 0 value
  | second, value => element 1 value
  | constantTree, value =>
    match value.toInteger? with
    | some n => .ok (.expression (.constant n))
    | none => .error (.mismatch .noExpression)
  | identifierTree, .text points =>
    match points.toString? with
    | some name => .ok (.expression (.identifier name))
    | none => .error (.mismatch .noExpression)
  | identifierTree, _ => .error (.mismatch .noExpression)
  | constant value, _ => .ok value

end Function

end ParserCombinators.Session
