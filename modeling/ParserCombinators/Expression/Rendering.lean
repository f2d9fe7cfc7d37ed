import ParserCombinators.Expression.Basic
import ParserCombinators.Number.Basic

/-!
# Writing expressions out

A rendering has parentheses around every operation and nothing else in it. A negative constant is
written with its sign, which the grammar does not read.
-/

namespace ParserCombinators.Expression

def render : Expression → Except Fault String
  | constant value => integerText value
  | identifier name => .ok name
  | operation left operator right => do
    let leftText ← left.render
    let rightText ← right.render
    return "(" ++ leftText ++ operator.symbol.toString ++ rightText ++ ")"
  | foreign text => .error (.notAnExpression text)

end ParserCombinators.Expression
