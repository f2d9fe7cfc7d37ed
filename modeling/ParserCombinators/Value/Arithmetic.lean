import ParserCombinators.Expression.Evaluation
import ParserCombinators.Value.Basic

/-!
# Arithmetic on values of all kinds

Truth values calculate as zero and one. A sum also puts two texts, lists or tuples end to end, and a
product also repeats one of them as often as an integer says. Everything else is a mismatch.
-/

namespace ParserCombinators.Value

/-- Applies an operation to two numbers, or goes on to what is left for other kinds. -/
def numeric (operation : Number → Number → Except Fault Number) (left right : Value)
    (otherwise : Except Fault Value) : Except Fault Value :=
  match left.toNumber?, right.toNumber? with
  | some m, some n => (operation m n).map .number
  | _, _ => otherwise

def mismatched (operator : Operator) (left right : Value) : Except Fault Value :=
  .error (.mismatch (.operands operator.symbol left.kind right.kind))

/-- What kinds meet is decided by the left operand, if it is a text, list or tuple. -/
def joined (left right : Value) : Except Fault Value :=
  match left, right with
  | text first, text second => .ok (text (first ++ second))
  | list first, list second => .ok (list (first ++ second))
  | tuple first, tuple second => .ok (tuple (first ++ second))
  | text _, _ | list _, _ | tuple _, _ =>
    .error (.mismatch (.concatenation left.kind right.kind))
  | _, _ => mismatched .add left right

/-- Counts outside these bounds are refused, however short the sequence is. -/
def countLimit : Int := 9223372036854775808

/-- A repetition of more elements than this is refused, since it would not fit into memory. -/
def longestSequence : Int := 4294967296

/-- The elements as often as the count says, and not at all for a negative count. -/
def repeated {β : Type} (items : List β) (count : Int) (tooLong : Fault) : Except Fault (List β) :=
  if count < -countLimit ∨ countLimit ≤ count then .error .countTooLarge
  else if items.isEmpty then .ok []
  else if countLimit ≤ items.length * count then .error tooLong
  else if longestSequence < items.length * count then .error .outOfMemory
  else .ok (List.replicate count.toNat items).flatten

/-- A text, list or tuple, repeated as often as the other value says. -/
def repetition? (sequence count : Value) : Option (Except Fault Value) :=
  let times (use : Int → Except Fault Value) : Except Fault Value :=
    match count.toInteger? with
    | some n => use n
    | none => .error (.mismatch (.repetition count.kind))
  match sequence with
  | text items => some (times fun n ↦ (repeated items n .textTooLong).map text)
  | list items => some (times fun n ↦ (repeated items n .outOfMemory).map list)
  | tuple items => some (times fun n ↦ (repeated items n .outOfMemory).map tuple)
  | _ => none

def add (left right : Value) : Except Fault Value :=
  numeric Number.add left right (joined left right)

def subtract (left right : Value) : Except Fault Value :=
  numeric Number.subtract left right (mismatched .subtract left right)

/-- A sequence on the left comes before one on the right. -/
def multiply (left right : Value) : Except Fault Value :=
  numeric Number.multiply left right
    (((repetition? left right).orElse fun _ ↦ repetition? right left).getD
      (mismatched .multiply left right))

def divide (left right : Value) : Except Fault Value :=
  numeric Number.divide left right (mismatched .divide left right)

instance : Arithmetic Value where
  ofInteger n := number (.integer n)
  apply
    | .add => add
    | .subtract => subtract
    | .multiply => multiply
    | .divide => divide

end ParserCombinators.Value

namespace ParserCombinators.Combiner

def apply : Combiner → Value → Value → Except Fault Value
  | add, left, right => left.add right
  | subtract, left, right => left.subtract right
  | multiply, left, right => left.multiply right
  | pair, left, right => .ok (.tuple [left, right])
  | keepLeft, left, _ => .ok left
  | keepRight, _, right => .ok right
  | operation operator, left, right =>
    match left.toExpression?, right.toExpression? with
    | some leftTree, some rightTree => .ok (.expression (.operation leftTree operator rightTree))
    | _, _ => .error (.mismatch .noExpression)

end ParserCombinators.Combiner
