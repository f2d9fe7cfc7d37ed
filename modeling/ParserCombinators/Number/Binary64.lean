import ParserCombinators.Number.Powers

/-!
# Rounding to doubles

A finite double is an integer below `2 ^ 53` times a power of two no smaller than `2 ^ (-1074)`. A
quotient of two naturals is rounded to the nearest double, a tie going to the even one, and a
quotient that rounds beyond the largest finite double becomes infinite.
-/

namespace ParserCombinators.Binary64

/-- A finite double is `mantissa * 2 ^ exponent` with a sign. -/
structure Parts where
  negative : Bool
  mantissa : Nat
  exponent : Int
  deriving DecidableEq, Repr

def signBit : Nat := twoTo 63

/-- The bits of positive infinity. -/
def infinityBits : Nat := 2047 * twoTo 52

def lowestExponent : Int := -1074

def parts (x : Float) : Parts :=
  let bits := x.toBits.toNat
  let fraction : Nat := bits % twoTo 52
  let field : Nat := bits / twoTo 52 % 2048
  let negative := signBit ≤ bits
  if field = 0 then ⟨negative, fraction, lowestExponent⟩
  else ⟨negative, twoTo 52 + fraction, (field : Int) - 1075⟩

/-- The integer nearest to a quotient; a half goes to the even neighbour. -/
def roundQuotient (numerator denominator : Nat) : Nat :=
  let whole := numerator / denominator
  let rest := numerator % denominator
  if 2 * rest < denominator then whole
  else if denominator < 2 * rest then whole + 1
  else whole + whole % 2

/-- The exponent at which a quotient has 53 binary digits before the point, or the lowest one. -/
def unitExponent (numerator denominator : Nat) : Int :=
  let estimate : Int := (numerator.log2 : Int) - denominator.log2 - 52
  let short := numerator * twoTo (-estimate).toNat < twoTo 52 * (denominator * twoTo estimate.toNat)
  max (if short then estimate - 1 else estimate) lowestExponent

/-- The bits of the double nearest to a quotient. Adjacent doubles have adjacent bits, so a mantissa
that rounds up to a power of two carries into the exponent by itself. -/
def quotientBits (numerator denominator : Nat) : Nat :=
  if numerator = 0 then 0
  else
    let exponent := unitExponent numerator denominator
    let mantissa :=
      roundQuotient (numerator * twoTo (-exponent).toNat) (denominator * twoTo exponent.toNat)
    min ((exponent - lowestExponent).toNat * twoTo 52 + mantissa) infinityBits

def ofBits (negative : Bool) (bits : Nat) : Float :=
  Float.ofBits (UInt64.ofNat (if negative then signBit + bits else bits))

/-- The double nearest to a quotient, or nothing if that is no finite one. -/
def ofQuotient? (negative : Bool) (numerator denominator : Nat) : Option Float :=
  let bits := quotientBits numerator denominator
  if bits = infinityBits then none else some (ofBits negative bits)

def ofInt? (n : Int) : Option Float := ofQuotient? (n < 0) n.natAbs 1

/-- The double nearest to `digits * 10 ^ exponent`. Magnitudes that are certainly infinite or zero
are told from the number of digits, so that no huge power is computed. -/
def ofDecimal (negative : Bool) (digits : Nat) (exponent : Int) : Float :=
  let magnitude : Int := (Nat.toDigits 10 digits).length + exponent
  if digits = 0 ∨ magnitude < -330 then ofBits negative 0
  else if 330 < magnitude then ofBits negative infinityBits
  else ofBits negative (quotientBits (digits * tenTo exponent.toNat) (tenTo (-exponent).toNat))

def infinity (negative : Bool) : Float := ofBits negative infinityBits

def notANumber : Float := Float.ofBits (UInt64.ofNat (infinityBits + twoTo 51))

end ParserCombinators.Binary64
