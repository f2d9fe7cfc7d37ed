import ParserCombinators.Expression.Evaluation
import ParserCombinators.Proofs.Number.Decimal

/-!
# Faults of numbers

Arithmetic can fail in four ways: by a division by zero of either kind, or by a number that does not
fit a double. Writing a number out fails only for integers that are too long.
-/

namespace ParserCombinators

variable {α β : Type} {fault : Fault}

/-- The faults of a result are all of a kind. -/
def RaisesOnly (allowed : Fault → Prop) (result : Except Fault α) : Prop :=
  ∀ fault, result = .error fault → allowed fault

namespace RaisesOnly

variable {allowed weaker : Fault → Prop} {result : Except Fault α}

theorem ok (value : α) : RaisesOnly allowed (.ok value : Except Fault α) := nofun

theorem error (hfault : allowed fault) : RaisesOnly allowed (.error fault : Except Fault α) := by
  rintro _ ⟨⟩
  exact hfault

theorem mono (hresult : RaisesOnly allowed result)
    (hweaker : ∀ fault, allowed fault → weaker fault) : RaisesOnly weaker result :=
  fun fault herror ↦ hweaker fault (hresult fault herror)

theorem bind {next : α → Except Fault β} (hresult : RaisesOnly allowed result)
    (hnext : ∀ value, RaisesOnly allowed (next value)) : RaisesOnly allowed (result >>= next) := by
  cases result with
  | ok value => exact hnext value
  | error fault => exact error (hresult fault rfl)

theorem map (hresult : RaisesOnly allowed result) (f : α → β) :
    RaisesOnly allowed (result.map f) := by
  cases result with
  | ok value => exact ok (f value)
  | error fault => exact error (hresult fault rfl)

end RaisesOnly

/-! ## Arithmetic -/

/-- The faults that the four operators have. -/
inductive Fault.IsArithmetic : Fault → Prop
  | divisionByZero : IsArithmetic .divisionByZero
  | floatDivisionByZero : IsArithmetic .floatDivisionByZero
  | quotientTooLarge : IsArithmetic .quotientTooLarge
  | integerTooLarge : IsArithmetic .integerTooLarge

namespace Number

theorem raisesOnly_toFloat (value : Number) : RaisesOnly Fault.IsArithmetic value.toFloat := by
  unfold toFloat
  repeat' split
  · exact .ok _
  · exact .error .integerTooLarge
  · exact .ok _

theorem raisesOnly_mixed {operation : Float → Float → Except Fault Float}
    (hoperation : ∀ x y, RaisesOnly Fault.IsArithmetic (operation x y)) (left right : Number) :
    RaisesOnly Fault.IsArithmetic (mixed operation left right) :=
  left.raisesOnly_toFloat.bind fun x ↦ right.raisesOnly_toFloat.bind fun y ↦
    (hoperation x y).bind fun _ ↦ .ok _

theorem raisesOnly_divideIntegers (m n : Int) :
    RaisesOnly Fault.IsArithmetic (divideIntegers m n) := by
  unfold divideIntegers
  repeat' split
  · exact .error .divisionByZero
  · exact .ok _
  · exact .error .quotientTooLarge

theorem raisesOnly_apply (operator : Operator) (left right : Number) :
    RaisesOnly Fault.IsArithmetic (Arithmetic.apply operator left right) := by
  cases operator
  case divide =>
    change RaisesOnly Fault.IsArithmetic (left.divide right)
    unfold divide
    split
    · exact raisesOnly_divideIntegers _ _
    · refine raisesOnly_mixed (fun x y ↦ ?_) _ _
      split
      · exact .error .floatDivisionByZero
      · exact .ok _
  -- Sums, differences and products of integers are exact, and all else is a matter of doubles.
  all_goals
    simp only [Arithmetic.apply, add, subtract, multiply]
    split
    · exact .ok _
    · exact raisesOnly_mixed (fun _ _ ↦ .ok _) _ _

end Number

/-! ## Writing numbers out -/

/-- An integer of more digits than are written out. -/
def IsLong (n : Int) : Prop := 4300 < (Nat.toDigits 10 n.natAbs).length

theorem integerText_of_isLong {n : Int} (hlong : IsLong n) :
    integerText n = .error .integerTooLong := by
  have hlimit : 0 < Fault.digitLimit := by decide
  exact if_neg fun hshort ↦ Nat.not_lt.2 ((lt_tenTo_iff hlimit).1 hshort) hlong

theorem integerText_of_not_isLong {n : Int} (hshort : ¬IsLong n) :
    integerText n = .ok (toString n) := by
  have hlimit : 0 < Fault.digitLimit := by decide
  exact if_pos ((lt_tenTo_iff hlimit).2 (Nat.not_lt.1 hshort))

end ParserCombinators
