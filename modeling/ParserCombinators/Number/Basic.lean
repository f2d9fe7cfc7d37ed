import ParserCombinators.Fault
import ParserCombinators.Number.Shortest

/-!
# Numbers

A number is an integer of any size or a double. Integers are written in decimal up to a limit on
their digits; a double is written with the fewest digits that read back.
-/

namespace ParserCombinators

inductive Number
  | integer (value : Int)
  | float (value : Float)

/-- How a finite double is laid out: positional while its decimal exponent lies in a range,
otherwise with an exponent that has a sign and a least number of digits. -/
structure FloatLayout where
  lowestPositional : Int
  highestPositional : Int
  exponentDigits : Nat

namespace FloatLayout

def standard : FloatLayout := ⟨-4, 15, 2⟩

def exponentText (layout : FloatLayout) (exponent : Int) : List Char :=
  let digits := Nat.toDigits 10 exponent.natAbs
  'e' :: (if exponent < 0 then '-' else '+') ::
    List.replicate (layout.exponentDigits - digits.length) '0' ++ digits

/-- The digits with the point after the first `place` of them, and at least one digit on each side.
-/
def positional (digits : List Char) (place : Int) : List Char :=
  if place ≤ 0 then '0' :: '.' :: List.replicate (-place).toNat '0' ++ digits
  else
    let whole := digits.take place.toNat
    let rest := digits.drop place.toNat
    whole ++ List.replicate (place.toNat - digits.length) '0' ++
      '.' :: (if rest.isEmpty then ['0'] else rest)

def decimal (layout : FloatLayout) (value : Shortest.Decimal) : List Char :=
  let all := Nat.toDigits 10 value.digits
  let place := all.length + value.exponent
  let exponent := place - 1
  let digits := (all.reverse.dropWhile (· == '0')).reverse
  if layout.lowestPositional ≤ exponent ∧ exponent ≤ layout.highestPositional then
    positional digits place
  else match digits with
    | [] => []
    | first :: [] => first :: layout.exponentText exponent
    | first :: rest => first :: '.' :: rest ++ layout.exponentText exponent

end FloatLayout

/-- A double as text: `nan` without a sign, `inf`, `0.0`, or its shortest decimal. -/
def floatText (x : Float) : String :=
  let parts := Binary64.parts x
  let sign := if parts.negative then ['-'] else []
  if x.isNaN then "nan"
  else if x.isInf then String.ofList (sign ++ ['i', 'n', 'f'])
  else if parts.mantissa = 0 then String.ofList (sign ++ ['0', '.', '0'])
  else String.ofList
    (sign ++ FloatLayout.standard.decimal (Shortest.ofParts parts.mantissa parts.exponent))

/-- An integer in decimal, unless it has more digits than the limit allows. -/
def integerText (n : Int) : Except Fault String :=
  if n.natAbs < tenTo Fault.digitLimit then .ok (toString n) else .error .integerTooLong

/-- The number as text, however long. -/
def Number.digits : Number → String
  | .integer n => toString n
  | .float x => floatText x

def Number.text : Number → Except Fault String
  | .integer n => integerText n
  | .float x => .ok (floatText x)

end ParserCombinators
