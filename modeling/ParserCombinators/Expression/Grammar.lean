import ParserCombinators.Expression.Basic
import ParserCombinators.Parser.Lexical

/-!
# The grammar of expressions

An expression is a chain of terms joined by `+` and `-`, a term is a chain of factors joined by `*`
and `/`, and a factor is an expression in parentheses, an integer or an identifier. Both chains
group to the left. In the spaced grammar blanks may stand before the first token and after every
token.

Parsing takes the longest prefix that is an expression and leaves the rest of the text alone.
Parentheses may nest to any depth: an implementation that spends some levels of its stack on each
pair gives up with an error at a few hundred of them, and that error is left out here.
-/

namespace ParserCombinators.Expression

variable {κ ρ α : Type}

def token (spaced : Bool) (inner : Parser κ ρ α) : Parser κ ρ α :=
  if spaced then inner.lexeme else inner

/-- The symbol of an operator, valued as the operation that it stands for. -/
def operatorToken (spaced : Bool) (operator : Operator) :
    Parser κ ρ (Expression → Expression → Except Fault Expression) :=
  (token spaced (.skipChar operator.symbol)).map
    fun _ left right ↦ .ok (.operation left operator right)

def factor (spaced : Bool) : Parser Unit Expression Expression :=
  .firstOf
    (.between (token spaced (.skipChar '(')) (.forwarding ()) (token spaced (.skipChar ')')))
    [(token spaced .integer).map fun value : Nat ↦ .constant value,
     (token spaced .identifier).map .identifier]

def term (spaced : Bool) : Parser Unit Expression Expression :=
  .chainLeft (factor spaced)
    (.orElse (operatorToken spaced .multiply) (operatorToken spaced .divide))

/-- The rule that an inner pair of parentheses refers back to. -/
def rule (spaced : Bool) : Parser Unit Expression Expression :=
  .chainLeft (term spaced)
    (.orElse (operatorToken spaced .add) (operatorToken spaced .subtract))

def grammar (spaced : Bool) : Parser κ ρ Expression :=
  if spaced then .skipBlanks (.recursive (rule spaced)) else .recursive (rule spaced)

/-- The longest prefix that is an expression, with the position after it. -/
def parse (spaced : Bool) (text : Text) : Run Expression := (grammar spaced).run text

end ParserCombinators.Expression
