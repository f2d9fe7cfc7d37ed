import ParserCombinators.Expression.Basic
import ParserCombinators.Number.Arithmetic

/-!
# Evaluating expressions

Expressions can be evaluated in any domain that has the integers and the four operators. The left
operand is evaluated wholly before the right one, and the first fault is the result.
-/

namespace ParserCombinators

/-- A domain of values for expressions. -/
class Arithmetic (α : Type) where
  ofInteger : Int → α
  apply : Operator → α → α → Except Fault α

instance : Arithmetic Number where
  ofInteger := .integer
  apply
    | .add => Number.add
    | .subtract => Number.subtract
    | .multiply => Number.multiply
    | .divide => Number.divide

/-- The value that each bound name stands for. -/
abbrev Environment (α : Type) := String → Option α

namespace Environment

variable {α : Type}

def empty : Environment α := fun _ ↦ none

/-- The environment with a name bound anew. -/
def bind (environment : Environment α) (name : String) (value : α) : Environment α :=
  fun other ↦ if other = name then some value else environment other

/-- A later binding of a name replaces an earlier one. -/
def ofBindings (bindings : List (String × α)) : Environment α :=
  bindings.foldl (fun environment binding ↦ environment.bind binding.1 binding.2) empty

end Environment

namespace Expression

variable {α : Type} [Arithmetic α]

def evaluate (environment : Environment α) : Expression → Except Fault α
  | constant value => .ok (Arithmetic.ofInteger value)
  | identifier name =>
    match environment name with
    | some value => .ok value
    | none => .error (.unboundVariable name)
  | operation left operator right => do
    let leftValue ← left.evaluate environment
    let rightValue ← right.evaluate environment
    Arithmetic.apply operator leftValue rightValue
  | foreign text => .error (.notAnExpression text)

end Expression

end ParserCombinators
