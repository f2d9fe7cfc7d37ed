import ParserCombinators.Expression.Evaluation

/-!
# Evaluation on a stack

An expression can be listed so that each operator comes after its two operands. The listing is code
for a machine with a stack, which takes one instruction after another and stops at the first that
meets a fault. The machine leaves the value of the expression on the stack, or it stops with the
fault of the evaluation; an operator never lacks an operand.
-/

namespace ParserCombinators

inductive Instruction
  | constant (value : Int)
  | identifier (name : String)
  | operation (operator : Operator)
  | foreign (text : String)
  deriving DecidableEq, Repr

/-- Why the machine stops before the end of its code. -/
inductive Stop
  | fault (fault : Fault)
  /-- An operator finds fewer than two values. -/
  | underflow
  deriving DecidableEq, Repr

/-- The leaves and operators of an expression, each operator after its two operands. -/
def Expression.instructions : Expression → List Instruction
  | constant value => [.constant value]
  | identifier name => [.identifier name]
  | operation left operator right =>
    left.instructions ++ (right.instructions ++ [.operation operator])
  | foreign text => [.foreign text]

/-- A result whose fault, if it has one, stops the machine. -/
def stopping {β : Type} : Except Fault β → Except Stop β
  | .ok value => .ok value
  | .error fault => .error (.fault fault)

theorem stopping_bind {β γ : Type} (result : Except Fault β) (f : β → Except Fault γ) :
    stopping (result >>= f) = stopping result >>= fun value ↦ stopping (f value) := by
  cases result <;> rfl

namespace Instruction

section Machine

variable {α : Type} [Arithmetic α]

/-- The stack after one instruction. The right operand of an operator is on top of the left one. -/
def execute (environment : Environment α) : Instruction → List α → Except Stop (List α)
  | constant value, stack => .ok (Arithmetic.ofInteger value :: stack)
  | identifier name, stack =>
    match environment name with
    | some value => .ok (value :: stack)
    | none => .error (.fault (.unboundVariable name))
  | operation operator, right :: left :: stack =>
    (· :: stack) <$> stopping (Arithmetic.apply operator left right)
  | operation _, _ => .error .underflow
  | foreign text, _ => .error (.fault (.notAnExpression text))

/-- The stack after all instructions from left to right. -/
def executeAll (environment : Environment α) (code : List Instruction) (stack : List α) :
    Except Stop (List α) :=
  code.foldlM (fun stack instruction ↦ instruction.execute environment stack) stack

variable (environment : Environment α) (before behind : List Instruction)
  (instruction : Instruction) (stack : List α)

theorem executeAll_cons :
    executeAll environment (instruction :: behind) stack =
      instruction.execute environment stack >>= executeAll environment behind :=
  List.foldlM_cons

theorem executeAll_singleton :
    executeAll environment [instruction] stack = instruction.execute environment stack :=
  bind_pure _

theorem executeAll_append :
    executeAll environment (before ++ behind) stack =
      executeAll environment before stack >>= executeAll environment behind :=
  List.foldlM_append

variable {environment stack} {code : List Instruction} {reason : Stop}

/-- The machine stops at an instruction that cannot be executed, behind others that all can. -/
theorem executeAll_eq_error :
    executeAll environment code stack = .error reason ↔
      ∃ before instruction behind middle, code = before ++ instruction :: behind ∧
        executeAll environment before stack = .ok middle ∧
          instruction.execute environment middle = .error reason := by
  constructor
  · intro hcode
    induction code generalizing stack with
    | nil => cases hcode
    | cons instruction rest ih =>
      rw [executeAll_cons] at hcode
      cases hfirst : instruction.execute environment stack with
      | error reached =>
        rw [hfirst] at hcode
        cases hcode
        exact ⟨[], instruction, rest, stack, rfl, rfl, hfirst⟩
      | ok next =>
        rw [hfirst] at hcode
        obtain ⟨before, last, behind, middle, rfl, hbefore, hlast⟩ := ih hcode
        refine ⟨instruction :: before, last, behind, middle, rfl, ?_, hlast⟩
        rw [executeAll_cons, hfirst]
        exact hbefore
  · rintro ⟨before, instruction, behind, middle, rfl, hbefore, hinstruction⟩
    rw [executeAll_append, hbefore]
    refine (executeAll_cons ..).trans ?_
    rw [hinstruction]
    rfl

end Machine

end Instruction

namespace Expression

open Instruction

variable {α : Type} [Arithmetic α]

/-- Whatever is on the stack already, the code of an expression puts its value on top of it. -/
theorem executeAll_instructions (environment : Environment α) (tree : Expression)
    (stack : List α) :
    executeAll environment tree.instructions stack =
      (· :: stack) <$> stopping (tree.evaluate environment) := by
  induction tree generalizing stack with
  | constant value => rfl
  | identifier name =>
    rw [instructions, executeAll_singleton, execute, evaluate]
    cases environment name <;> rfl
  | operation left operator right ihleft ihright =>
    -- The code of the right operand runs while the value of the left one waits on the stack.
    calc executeAll environment (operation left operator right).instructions stack
        = stopping (left.evaluate environment) >>= fun leftValue ↦
            stopping (right.evaluate environment) >>= fun rightValue ↦
              (Instruction.operation operator).execute environment
                (rightValue :: leftValue :: stack) := by
          simp only [instructions, executeAll_append, ihleft, ihright, executeAll_singleton,
            bind_map_left]
      _ = (· :: stack) <$> stopping ((operation left operator right).evaluate environment) := by
          simp only [execute, evaluate, stopping_bind, map_bind]
  | foreign text => rfl

/-- The machine leaves the value alone on the stack, or the first instruction that meets a fault
meets the fault of the evaluation. -/
theorem evaluate_iff_executeAll (environment : Environment α) (tree : Expression) :
    (∀ value, tree.evaluate environment = .ok value ↔
      executeAll environment tree.instructions [] = .ok [value]) ∧
    (∀ fault, tree.evaluate environment = .error fault ↔
      ∃ before instruction behind stack, tree.instructions = before ++ instruction :: behind ∧
        executeAll environment before [] = .ok stack ∧
          instruction.execute environment stack = .error (.fault fault)) ∧
    executeAll environment tree.instructions [] ≠ .error .underflow := by
  have hcode := executeAll_instructions environment tree []
  simp only [← executeAll_eq_error, hcode]
  cases tree.evaluate environment with
  | ok value => simp [stopping, Functor.map, Except.map]
  | error fault => simp [stopping, Functor.map, Except.map]

example :
    executeAll (Environment.empty : Environment Number)
      (operation (constant 1) .divide (operation (identifier "x") .add (foreign "y"))).instructions
      [] = .error (.fault (.unboundVariable "x")) := rfl

end Expression

end ParserCombinators
