import ParserCombinators.Number.Basic

/-!
# Arithmetic

Sums, differences and products of integers are exact, and a quotient of integers is the double
nearest to it. Next to a double an integer is first rounded to a double itself, which a huge one
does not fit; that comes before a division by zero is noticed.
-/

namespace ParserCombinators.Number

/-- The number as a double. -/
def toFloat : Number → Except Fault Float
  | .integer n =>
    match Binary64.ofInt? n with
    | some x => .ok x
    | none => .error .integerTooLarge
  | .float x => .ok x

def mixed (operation : Float → Float → Except Fault Float) (left right : Number) :
    Except Fault Number := do
  let x ← left.toFloat
  let y ← right.toFloat
  return .float (← operation x y)

def add : Number → Number → Except Fault Number
  | .integer m, .integer n => .ok (.integer (m + n))
  | left, right => mixed (fun x y ↦ .ok (x + y)) left right

def subtract : Number → Number → Except Fault Number
  | .integer m, .integer n => .ok (.integer (m - n))
  | left, right => mixed (fun x y ↦ .ok (x - y)) left right

def multiply : Number → Number → Except Fault Number
  | .integer m, .integer n => .ok (.integer (m * n))
  | left, right => mixed (fun x y ↦ .ok (x * y)) left right

/-- The sign of a zero quotient is negative when exactly one of the two integers is negative. -/
def divideIntegers (m n : Int) : Except Fault Number :=
  if n = 0 then .error .divisionByZero
  else
    match Binary64.ofQuotient? (decide (m < 0) != decide (n < 0)) m.natAbs n.natAbs with
    | some x => .ok (.float x)
    | none => .error .quotientTooLarge

def divide : Number → Number → Except Fault Number
  | .integer m, .integer n => divideIntegers m n
  | left, right =>
    mixed (fun x y ↦ if y == 0 then .error .floatDivisionByZero else .ok (x / y)) left right

end ParserCombinators.Number
