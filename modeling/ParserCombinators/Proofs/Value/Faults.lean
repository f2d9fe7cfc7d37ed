import ParserCombinators.Proofs.Number.Faults
import ParserCombinators.Value.Arithmetic

/-!
# Faults of arithmetic on values

Beyond the faults of numbers, an operator on values of all kinds only refuses the kinds of its
operands, or a repetition that would be too long.
-/

namespace ParserCombinators

/-- The faults that the four operators have on values of all kinds. -/
inductive Fault.IsOperational : Fault → Prop
  | arithmetic {fault : Fault} (hfault : fault.IsArithmetic) : IsOperational fault
  | mismatch (found : Mismatch) : IsOperational (.mismatch found)
  | countTooLarge : IsOperational .countTooLarge
  | textTooLong : IsOperational .textTooLong
  | outOfMemory : IsOperational .outOfMemory

namespace Value

theorem raisesOnly_numeric {operation : Number → Number → Except Fault Number}
    {otherwise : Except Fault Value}
    (hoperation : ∀ m n, RaisesOnly Fault.IsArithmetic (operation m n))
    (hotherwise : RaisesOnly Fault.IsOperational otherwise) (left right : Value) :
    RaisesOnly Fault.IsOperational (numeric operation left right otherwise) := by
  unfold numeric
  split
  · exact ((hoperation _ _).mono fun _ ↦ .arithmetic).map _
  · exact hotherwise

theorem raisesOnly_mismatched (operator : Operator) (left right : Value) :
    RaisesOnly Fault.IsOperational (mismatched operator left right) :=
  .error (.mismatch _)

theorem raisesOnly_joined (left right : Value) :
    RaisesOnly Fault.IsOperational (joined left right) := by
  unfold joined
  split
  · exact .ok _
  · exact .ok _
  · exact .ok _
  · exact .error (.mismatch _)
  · exact .error (.mismatch _)
  · exact .error (.mismatch _)
  · exact raisesOnly_mismatched .add left right

theorem raisesOnly_repeated {β : Type} {tooLong : Fault} (htooLong : tooLong.IsOperational)
    (items : List β) (count : Int) :
    RaisesOnly Fault.IsOperational (repeated items count tooLong) := by
  unfold repeated
  repeat' split
  · exact .error .countTooLarge
  · exact .ok _
  · exact .error htooLong
  · exact .error .outOfMemory
  · exact .ok _

theorem raisesOnly_repetition {sequence count : Value} {result : Except Fault Value}
    (hresult : repetition? sequence count = some result) :
    RaisesOnly Fault.IsOperational result := by
  unfold repetition? at hresult
  dsimp only at hresult
  split at hresult <;> cases hresult
  -- What is repeated decides the fault of a repetition that is too long.
  · split
    · exact (raisesOnly_repeated .textTooLong _ _).map text
    · exact .error (.mismatch _)
  · split
    · exact (raisesOnly_repeated .outOfMemory _ _).map list
    · exact .error (.mismatch _)
  · split
    · exact (raisesOnly_repeated .outOfMemory _ _).map tuple
    · exact .error (.mismatch _)

theorem raisesOnly_apply (operator : Operator) (left right : Value) :
    RaisesOnly Fault.IsOperational (Arithmetic.apply operator left right) := by
  have hnumbers := Number.raisesOnly_apply operator
  have hmismatched := raisesOnly_mismatched operator left right
  cases operator with
  | add => exact raisesOnly_numeric hnumbers (raisesOnly_joined left right) left right
  | subtract => exact raisesOnly_numeric hnumbers hmismatched left right
  | multiply =>
    refine raisesOnly_numeric hnumbers ?_ left right
    cases hleft : repetition? left right with
    | some result => exact raisesOnly_repetition hleft
    | none =>
      cases hright : repetition? right left with
      | some result => exact raisesOnly_repetition hright
      | none => exact hmismatched
  | divide => exact raisesOnly_numeric hnumbers hmismatched left right

end Value

end ParserCombinators
