import ParserCombinators.Proofs.Session.History

/-!
# Assignments in a session

A cell keeps the first parser that is assigned to it. Before that, whatever else is assigned is
refused because it is no parser, and from then on everything is refused because the cell has its
rule. Nothing but that first assignment changes the cell: neither a step with a fault, nor a run or
a reading, nor what is assigned to other cells.
-/

namespace ParserCombinators

/-! ## Cells at a place of their own -/

namespace Construction

variable {ρ : Type} {construction later : Construction ρ} {cell : Cell}

/-- The cell has been made, and no other one is at its place. -/
structure Owns (construction : Construction ρ) (cell : Cell) : Prop where
  holds : construction.cells.Holds cell
  unique : ∀ other, construction.Knows other → other.index = cell.index → other = cell

theorem IsScoped.owns_forward (hscoped : construction.IsScoped) (label : Option String) :
    (construction.forward label).Owns (construction.cells.forward label).1 where
  holds := (Cells.holds_forward label).2 (.inr rfl)
  unique other hother hindex := by
    obtain rfl | hmade := List.mem_cons.1 hother
    · rfl
    · exact absurd hindex (Nat.ne_of_lt (hscoped.holds other hmade))

theorem Owns.step (howns : construction.Owns cell) (hstep : construction.Step later) :
    later.Owns cell := by
  refine ⟨hstep.extends.holds howns.holds, ?_⟩
  cases hstep with
  | forward label =>
    intro other hother hindex
    obtain rfl | hmade := List.mem_cons.1 hother
    · exact absurd hindex.symm (Nat.ne_of_lt howns.holds)
    · exact howns.unique other hmade hindex
  | assign called _ assignee =>
    obtain hsame | ⟨-, rule, -, hput⟩ := construction.assign_cases called assignee
    · rw [hsame]
      exact howns.unique
    · rw [hput]
      exact howns.unique
  | define | run => exact howns.unique

theorem Owns.becomes (howns : construction.Owns cell) (hlater : construction.Becomes later) :
    later.Owns cell := by
  induction hlater with
  | refl => exact howns
  | tail _ hstep ih => exact ih.step hstep

end Construction

def Assignee.parser? {ρ : Type} : Assignee ρ → Option (Parser Cell ρ ρ)
  | .parser rule => some rule
  | .other _ => none

namespace Session

variable {session : Session} {cell : Cell} {step : Step} {assignee : Assignee Value}

/-! ## One step -/

/-- What the step assigns to the cell. A recipe that cannot be built is not assigned at all. -/
def assignmentTo (session : Session) (cell : Cell) : Step → Option (Assignee Value)
  | .assign name content =>
    match session.assignee content, session.cellNamed name with
    | .ok assignee, .ok named => if named = cell then some assignee else none
    | _, _ => none
  | _ => none

theorem assignmentTo_eq_some (hstep : session.assignmentTo cell step = some assignee) :
    ∃ name content, step = .assign name content ∧ session.assignee content = .ok assignee ∧
      session.cellNamed name = .ok cell := by
  unfold assignmentTo at hstep
  split at hstep
  · next name content =>
      split at hstep
      · next hassignee hnamed =>
          split at hstep
          · next hcell =>
              cases hstep
              exact ⟨name, content, rfl, hassignee, hcell ▸ hnamed⟩
          · cases hstep
      · cases hstep
  · cases hstep

/-- Whether the cell is empty decides before what is assigned to it does. -/
theorem take_assignment : session.assignmentTo cell step = some assignee →
    session.take step =
      match session.cells.rule? cell, assignee with
      | some _, _ => (.error (.reassignedReference cell.label), session)
      | none, .parser rule => (.ok .done, { session with cells := session.cells.put cell rule })
      | none, .other shown => (.error (.notAParser shown), session) := by
  intro hstep
  obtain ⟨name, content, rfl, hassignee, hnamed⟩ := assignmentTo_eq_some hstep
  rw [take, assign_eq, hassignee]
  cases hrule : session.cells.rule? cell <;> cases assignee <;>
    simp [hnamed, Bind.bind, Except.bind, Cells.assign, Cells.isAssigned, hrule, change, Cells.put]

theorem change_of_error {result : Except Fault Session} {fault : Fault}
    (hfault : (session.change result).1 = .error fault) : (session.change result).2 = session := by
  cases result with
  | ok changed => cases hfault
  | error fault => rfl

/-- A step with a fault changes nothing. -/
theorem take_of_error {fault : Fault} (hfault : (session.take step).1 = .error fault) :
    (session.take step).2 = session := by
  cases step with
  | forward name label => cases hfault
  | define | assign => exact change_of_error hfault
  | isAssigned | describe | run => rfl

/-- Other steps, and what is assigned to other cells, leave the cell as it is. -/
theorem rule?_take_of_none (howns : session.construction.Owns cell)
    (hstep : session.assignmentTo cell step = none) :
    (session.take step).2.cells.rule? cell = session.cells.rule? cell := by
  cases step with
  | forward name label => exact Cells.rule?_forward label cell
  | define name recipe =>
    rw [take, define]
    cases recipe.build session.parserNamed <;> rfl
  | assign name content =>
    rw [take, assign_eq]
    cases hassignee : session.assignee content with
    | error fault => rfl
    | ok assignee =>
      cases hnamed : session.cellNamed name with
      | error fault => rfl
      | ok named =>
        have hother : named ≠ cell := by
          rintro rfl
          simp [assignmentTo, hassignee, hnamed] at hstep
        have hindex : cell.index ≠ named.index := fun hindex ↦
          hother (howns.unique named (knows_of_cellNamed hnamed) hindex.symm)
        cases hassign : session.cells.assign named assignee with
        | error fault => simp [Bind.bind, Except.bind, hassign, change]
        | ok changed =>
          obtain ⟨-, rule, -, rfl⟩ := Cells.assign_eq_ok hassign
          simp [Bind.bind, Except.bind, hassign, change, Cells.rule?_put_of_ne hindex]
  | isAssigned | describe | run => rfl

theorem rule?_take (howns : session.construction.Owns cell) (step : Step) :
    (session.take step).2.cells.rule? cell =
      (session.cells.rule? cell).or ((session.assignmentTo cell step).bind Assignee.parser?) := by
  cases hstep : session.assignmentTo cell step with
  | none => rw [rule?_take_of_none howns hstep, Option.bind_none, Option.or_none]
  | some assignee =>
    rw [take_assignment hstep]
    cases hrule : session.cells.rule? cell with
    | some rule => exact hrule
    | none =>
      cases assignee with
      | parser rule => exact Cells.rule?_put_self howns.holds
      | other shown => exact hrule

/-! ## Many steps -/

/-- All that is assigned to the cell in the course of the steps, in order. -/
def assignments (session : Session) (cell : Cell) : List Step → List (Assignee Value)
  | [] => []
  | step :: rest =>
    (session.assignmentTo cell step).toList ++ (session.take step).2.assignments cell rest

/-- The first parser that is assigned to the cell in the course of the steps. -/
def firstAssigned (session : Session) (cell : Cell) (steps : List Step) : Option AnyParser :=
  (session.assignments cell steps).findSome? Assignee.parser?

theorem firstAssigned_cons (session : Session) (cell : Cell) (step : Step) (rest : List Step) :
    session.firstAssigned cell (step :: rest) =
      ((session.assignmentTo cell step).bind Assignee.parser?).or
        ((session.take step).2.firstAssigned cell rest) := by
  rw [firstAssigned, assignments, List.findSome?_append]
  cases session.assignmentTo cell step <;> simp [firstAssigned]

theorem rule?_after (hscoped : session.IsScoped) (howns : session.construction.Owns cell)
    (steps : List Step) :
    (session.after steps).cells.rule? cell =
      (session.cells.rule? cell).or (session.firstAssigned cell steps) := by
  induction steps generalizing session with
  | nil => exact Option.or_none.symm
  | cons step rest ih =>
    have hnext := hscoped.follows_take step
    have hrest := ih (hscoped.of_follows hnext) (howns.becomes hnext.becomes)
    calc ((session.take step).2.after rest).cells.rule? cell
        = ((session.take step).2.cells.rule? cell).or
            ((session.take step).2.firstAssigned cell rest) := hrest
      _ = (session.cells.rule? cell).or (session.firstAssigned cell (step :: rest)) := by
          rw [rule?_take howns step, Option.or_assoc, firstAssigned_cons]

/-- A cell has the first parser that was assigned to it since it was made, if there was one. Until
then whatever else is assigned is refused as no parser, and from then on all that is assigned is
refused. Neither a step with a fault, nor a run, nor a reading changes this cell or any other. -/
theorem keeps_first_assigned (early : List Step) (name : String) (label : Option String)
    (steps : List Step) :
    let session := (empty.after early).forward name label
    let cell := ((empty.after early).cells.forward label).1
    let reached := session.after steps
    let first := session.firstAssigned cell steps
    reached.cells.rule? cell = first ∧
      (∀ other, reached.cellNamed other = .ok cell →
        (reached.take (.isAssigned other)).1 = .ok (.assigned first.isSome)) ∧
      (∀ step assignee, reached.assignmentTo cell step = some assignee →
        reached.take step =
          match first, assignee with
          | some _, _ => (.error (.reassignedReference label), reached)
          | none, .parser rule =>
            (.ok .done, { reached with cells := reached.cells.put cell rule })
          | none, .other shown => (.error (.notAParser shown), reached)) ∧
      (∀ step fault, (reached.take step).1 = .error fault → (reached.take step).2 = reached) ∧
      (∀ recipe text position, (reached.take (.run recipe text position)).2 = reached) ∧
      ∀ other, (reached.take (.isAssigned other)).2 = reached := by
  intro session cell reached first
  obtain ⟨hbecomes, hearly⟩ := isScoped_empty.after early
  have hmade := Construction.isScoped_empty.becomes hbecomes
  have hscoped : session.IsScoped := hearly.of_follows (follows_forward _ name label)
  have howns : session.construction.Owns cell := hmade.owns_forward label
  have hrule : reached.cells.rule? cell = first := by
    have hempty : session.cells.rule? cell = none := Cells.rule?_forward_self _ label
    rw [rule?_after hscoped howns steps, hempty, Option.none_or]
  refine ⟨hrule, fun other hother ↦ ?_, fun step assignee hstep ↦ ?_, fun _ _ ↦ take_of_error,
    fun _ _ _ ↦ rfl, fun _ ↦ rfl⟩
  · rw [take, hother, ← hrule]
    rfl
  · rw [take_assignment hstep, hrule]
    rfl

/-- The second assignment is the first one of a parser. -/
def attempts : List Step :=
  [.assign "rule" (.other (some "x")), .isAssigned "rule", .run (.named "rule") #['x'] 0,
    .assign "rule" (.recipe (.readyMade .item))]

theorem keeps_first_assigned_attempts :
    (empty.forward "rule" (some "x")).take (.assign "rule" (.other (some "y"))) =
        (.error (.notAParser (some "y")), empty.forward "rule" (some "x")) ∧
      ((empty.forward "rule" (some "x")).after attempts).take (.isAssigned "rule") =
        (.ok (.assigned true), (empty.forward "rule" (some "x")).after attempts) ∧
      ((empty.forward "rule" (some "x")).after attempts).take (.assign "rule" (.other none)) =
        (.error (.reassignedReference (some "x")),
          (empty.forward "rule" (some "x")).after attempts) := by
  obtain ⟨-, -, hfirst, -⟩ := keeps_first_assigned [] "rule" (some "x") []
  obtain ⟨-, hreads, hassigns, -⟩ := keeps_first_assigned [] "rule" (some "x") attempts
  refine ⟨?_, Prod.ext (hreads "rule" rfl) rfl, ?_⟩
  · exact hfirst (.assign "rule" (.other (some "y"))) (.other (some "y")) rfl
  · exact hassigns (.assign "rule" (.other none)) (.other none) rfl

end Session

end ParserCombinators
