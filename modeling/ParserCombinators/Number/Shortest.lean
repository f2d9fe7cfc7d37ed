import ParserCombinators.Number.Binary64

/-!
# Shortest decimals

A finite positive double stands for every real that rounds to it. Among the decimals in that
interval the ones with the fewest digits are wanted, and of those the nearest to the double, a tie
going to the even one. For each number of digits only the two neighbours of the double on the
decimal grid matter.
-/

namespace ParserCombinators.Shortest

/-- The decimal `digits * 10 ^ exponent`. -/
structure Decimal where
  digits : Nat
  exponent : Int
  deriving DecidableEq, Repr

def digitCount (n : Nat) : Nat := (Nat.toDigits 10 n).length

/-- The least `p` for which the quotient lies below `10 ^ p`. -/
def decimalPlace (numerator denominator : Nat) : Int :=
  if denominator ≤ numerator then digitCount (numerator / denominator)
  else 1 - (digitCount ((denominator - 1) / numerator) : Int)

/-- The interval of reals that round to `mantissa * 2 ^ exponent`, counted in quarters of that unit.
The gap below a power of two is half as wide as the gap above it. -/
def lowerQuarters (mantissa : Nat) (exponent : Int) : Nat :=
  if mantissa = twoTo 52 ∧ Binary64.lowestExponent < exponent then 4 * mantissa - 1
  else 4 * mantissa - 2

def upperQuarters (mantissa : Nat) : Nat := 4 * mantissa + 2

/-- The decimal on the grid of step `10 ^ step` that lies in the interval, the nearer of two. -/
def onGrid? (mantissa : Nat) (exponent step : Int) : Option Decimal :=
  let scale := twoTo (exponent - 2).toNat * tenTo (-step).toNat
  let grid := twoTo (2 - exponent).toNat * tenTo step.toNat
  let value := 4 * mantissa * scale
  let low := lowerQuarters mantissa exponent * scale
  let high := upperQuarters mantissa * scale
  let inside (candidate : Nat) : Bool :=
    if mantissa % 2 = 0 then low ≤ candidate * grid && candidate * grid ≤ high
    else low < candidate * grid && candidate * grid < high
  let below := value / grid
  let above := below + 1
  let belowGap := value - below * grid
  let aboveGap := above * grid - value
  let belowIsNearer := belowGap < aboveGap || belowGap == aboveGap && below % 2 == 0
  if inside below && (belowIsNearer || !inside above) then some ⟨below, step⟩
  else if inside above then some ⟨above, step⟩
  else none

/-- Seventeen digits always suffice. -/
def mostDigits : Nat := 17

def ofParts (mantissa : Nat) (exponent : Int) : Decimal :=
  let place := decimalPlace (mantissa * twoTo exponent.toNat) (twoTo (-exponent).toNat)
  let found := (List.range mostDigits).findSome? fun count ↦
    onGrid? mantissa exponent (place - (count + 1 : Nat))
  found.getD ⟨mantissa * twoTo exponent.toNat, 0⟩

end ParserCombinators.Shortest
