import ParserCombinators.Proofs.Parser.Scope
import ParserCombinators.Proofs.Value.Faults
import ParserCombinators.Session.Building

/-!
# Faults of functions

No function on values raises the fault that stands for an empty cell, whatever it is applied to:
neither the arithmetic nor the conversions of numerals, nor what a description can ask for.
-/

namespace ParserCombinators

@[simp]
theorem faultIsOrdinary_ite {α : Type} {p : Prop} [Decidable p] {first second : Except Fault α} :
    FaultIsOrdinary (if p then first else second) ↔
      (p → FaultIsOrdinary first) ∧ (¬p → FaultIsOrdinary second) := by
  split <;> simp [*]

/-! ## Arithmetic -/

theorem Fault.IsOperational.isOrdinary {fault : Fault} (hfault : fault.IsOperational) :
    fault.IsOrdinary := by
  intro label
  cases hfault with
  | arithmetic hfault => cases hfault <;> exact nofun
  | mismatch | countTooLarge | textTooLong | outOfMemory => exact nofun

theorem Value.faultIsOrdinary_apply (operator : Operator) (left right : Value) :
    FaultIsOrdinary (Arithmetic.apply operator left right) :=
  (raisesOnly_apply operator left right).mono fun _ hfault ↦ hfault.isOrdinary

theorem Combiner.faultIsOrdinary_apply (combiner : Combiner) (left right : Value) :
    FaultIsOrdinary (combiner.apply left right) := by
  cases combiner with
  | add => exact Value.faultIsOrdinary_apply .add left right
  | subtract => exact Value.faultIsOrdinary_apply .subtract left right
  | multiply => exact Value.faultIsOrdinary_apply .multiply left right
  | pair | keepLeft | keepRight => simp [apply]
  | operation operator =>
    simp only [apply]
    split <;> simp [Fault.IsOrdinary]

/-! ## Conversions -/

theorem Reading.faultIsOrdinary_integer (numeral : List Char) :
    FaultIsOrdinary (integer numeral) := by
  unfold integer
  dsimp only
  repeat' split
  all_goals simp [Fault.IsOrdinary]

namespace Json

theorem faultIsOrdinary_numberValue (numeral : List Char) :
    FaultIsOrdinary (numberValue numeral) := by
  unfold numberValue
  split
  · split <;> simp [Fault.IsOrdinary]
  · simpa using Reading.faultIsOrdinary_integer numeral

theorem faultIsOrdinary_reservedValue (word : String) : FaultIsOrdinary (reservedValue word) := by
  unfold reservedValue
  split <;> simp [Fault.IsOrdinary]

theorem faultIsOrdinary_hexPoint (digits : List Char) : FaultIsOrdinary (hexPoint digits) := by
  unfold hexPoint
  split <;> simp [Fault.IsOrdinary]

theorem faultIsOrdinary_escapedChar (c : Char) : FaultIsOrdinary (escapedChar c) := by
  unfold escapedChar
  split <;> simp [Fault.IsOrdinary]

end Json

namespace Session

theorem faultIsOrdinary_elementAt (items : List Value) (index : Int) :
    FaultIsOrdinary (Value.elementAt items index) := by
  unfold Value.elementAt
  split <;> simp [Fault.IsOrdinary]

theorem faultIsOrdinary_combining (value left right : Value) :
    FaultIsOrdinary (combining value left right) := by
  unfold combining
  split
  · apply Combiner.faultIsOrdinary_apply
  · simp [Fault.IsOrdinary]

theorem Finish.faultIsOrdinary_apply (finish : Finish) (read : List Value) :
    FaultIsOrdinary (finish.apply read) := by
  cases finish with
  | values | constant => simp [apply]
  | last => exact faultIsOrdinary_elementAt _ _

theorem Skip.faultIsOrdinary_holds (skip : Skip) (read : List Value) :
    FaultIsOrdinary (skip.holds read) := by
  simpa [holds] using faultIsOrdinary_elementAt read skip.index

namespace Function

theorem faultIsOrdinary_joinTexts (place : Nat) (values : List Value) :
    FaultIsOrdinary (joinTexts place values) := by
  fun_induction joinTexts <;> simp_all [Fault.IsOrdinary]

theorem faultIsOrdinary_joined (value : Value) : FaultIsOrdinary (joined value) := by
  unfold joined
  split
  · simp [Fault.IsOrdinary]
  · simpa using faultIsOrdinary_joinTexts 0 _

theorem faultIsOrdinary_readInteger (value : Value) : FaultIsOrdinary (readInteger value) := by
  unfold readInteger
  repeat' split
  · apply Reading.faultIsOrdinary_integer
  · simp [Fault.IsOrdinary]
  · simp
  · simp [truncated, Fault.IsOrdinary]
  · simp [Fault.IsOrdinary]

theorem faultIsOrdinary_element (index : Nat) (value : Value) :
    FaultIsOrdinary (element index value) := by
  unfold element
  repeat' split
  all_goals simp [Fault.IsOrdinary]

theorem faultIsOrdinary_apply (function : Function) (value : Value) :
    FaultIsOrdinary (function.apply value) := by
  unfold apply
  split
  · simp
  · simp
  · simp [Fault.IsOrdinary]
  · simpa using faultIsOrdinary_readInteger _
  · apply faultIsOrdinary_joined
  · split <;> simp [Fault.IsOrdinary]
  · exact Value.faultIsOrdinary_apply .add _ _
  · simp
  · simp
  · apply faultIsOrdinary_element
  · apply faultIsOrdinary_element
  · split <;> simp [Fault.IsOrdinary]
  · split <;> simp [Fault.IsOrdinary]
  · simp [Fault.IsOrdinary]
  · simp

end Function

end Session

end ParserCombinators
