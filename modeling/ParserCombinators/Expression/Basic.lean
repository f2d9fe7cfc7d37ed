import ParserCombinators.Fault

/-!
# Arithmetic expressions

An expression is a constant, a variable or an operation on two expressions. A plain text can stand
where an expression belongs; it is no expression, and only comparing and listing variables put up
with it.
-/

namespace ParserCombinators

inductive Operator
  | add
  | subtract
  | multiply
  | divide
  deriving DecidableEq, Repr

def Operator.symbol : Operator → Char
  | add => '+'
  | subtract => '-'
  | multiply => '*'
  | divide => '/'

/-- The operator that is written as the given text. -/
def Operator.ofSymbol : String → Except Fault Operator
  | "+" => .ok add
  | "-" => .ok subtract
  | "*" => .ok multiply
  | "/" => .ok divide
  | other => .error (.unknownOperator other)

inductive Expression
  | constant (value : Int)
  | identifier (name : String)
  | operation (left : Expression) (operator : Operator) (right : Expression)
  | foreign (text : String)
  deriving DecidableEq, Repr

namespace Expression

/-- The names of the variables from left to right, with repetitions. -/
def names : Expression → List String
  | constant _ => []
  | identifier name => [name]
  | operation left _ right => left.names ++ right.names
  | foreign _ => []

end Expression

end ParserCombinators
