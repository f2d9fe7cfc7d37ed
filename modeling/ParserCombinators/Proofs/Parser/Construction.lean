import Mathlib.Logic.Relation
import ParserCombinators.Proofs.Parser.Depth
import ParserCombinators.Proofs.Parser.Scope

/-!
# Grammars under construction

While a grammar is put together, cells are made and parsers are put into those that are still empty.
What is put into a cell can refer only to cells that have been made before. So whatever is done, a
construction only grows, a rule that is in a cell stays there, and all rules stay within the scope
of the cells that have been made.
-/

namespace ParserCombinators

variable {ρ : Type}

namespace Cells

variable {cells changed : Cells ρ} {cell other : Cell} {assignee : Assignee ρ}
variable {rule : Parser Cell ρ ρ}

def put (cells : Cells ρ) (cell : Cell) (rule : Parser Cell ρ ρ) : Cells ρ :=
  ⟨cells.rules.setIfInBounds cell.index (some rule)⟩

/-- Only a parser can be put into a cell, and only into an empty one. -/
theorem assign_eq_ok (hassign : cells.assign cell assignee = .ok changed) :
    cells.rule? cell = none ∧ ∃ rule, assignee = .parser rule ∧ changed = cells.put cell rule := by
  unfold assign isAssigned at hassign
  split at hassign
  · cases hassign
  · next hempty =>
      cases assignee with
      | other shown => cases hassign
      | parser rule =>
        cases hassign
        exact ⟨by simpa using hempty, rule, rfl, rfl⟩

theorem holds_of_rule? (hrule : cells.rule? cell = some rule) : cells.Holds cell := by
  by_contra hholds
  have hnone : cells.rules[cell.index]? = none :=
    Array.getElem?_eq_none (Nat.le_of_not_lt hholds)
  simp [rule?, hnone] at hrule

theorem holds_put : (cells.put cell rule).Holds other ↔ cells.Holds other := by
  simp [Holds, put]

theorem rule?_put_of_ne (hother : other.index ≠ cell.index) :
    (cells.put cell rule).rule? other = cells.rule? other := by
  rw [put, rule?, Array.getElem?_setIfInBounds_ne hother.symm, rule?]

theorem rule?_put_self (hcell : cells.Holds cell) :
    (cells.put cell rule).rule? cell = some rule := by
  rw [put, rule?, Array.getElem?_setIfInBounds_self_of_lt hcell, Option.join_some]

/-- Whatever rule is found after one was put into a cell is this one or was there before. -/
theorem eq_or_rule?_of_put {found : Parser Cell ρ ρ}
    (hfound : (cells.put cell rule).rule? other = some found) :
    found = rule ∨ cells.rule? other = some found := by
  by_cases hother : other.index = cell.index
  · left
    have hholds : cells.Holds other := holds_put.1 (holds_of_rule? hfound)
    rw [put, rule?, hother, Array.getElem?_setIfInBounds_self_of_lt (hother ▸ hholds)] at hfound
    exact (Option.some.inj hfound).symm
  · exact .inr ((rule?_put_of_ne hother).symm.trans hfound)

theorem holds_forward (label : Option String) :
    (cells.forward label).2.Holds other ↔
      cells.Holds other ∨ other.index = (cells.forward label).1.index := by
  simp only [Holds, forward, Array.size_push]
  omega

/-- A new cell is empty. -/
theorem rule?_forward (label : Option String) (other : Cell) :
    (cells.forward label).2.rule? other = cells.rule? other := by
  simp only [rule?, forward, Array.getElem?_push]
  split
  · next hindex => simp [hindex]
  · rfl

theorem rule?_forward_self (cells : Cells ρ) (label : Option String) :
    (cells.forward label).2.rule? (cells.forward label).1 = none := by
  rw [rule?_forward, rule?, forward]
  simp

end Cells

/-- The cells of a grammar, and which of them have been made. -/
structure Construction (ρ : Type) : Type 1 where
  made : List Cell
  cells : Cells ρ

def Assignee.IsWithin (known : Cell → Prop) : Assignee ρ → Prop
  | .parser rule => rule.IsWithin known
  | .other _ => True

namespace Construction

variable {construction later last : Construction ρ}

/-! ## Steps -/

def empty : Construction ρ := ⟨[], .empty⟩

def Knows (construction : Construction ρ) (cell : Cell) : Prop := cell ∈ construction.made

def forward (construction : Construction ρ) (label : Option String) : Construction ρ :=
  let (cell, cells) := construction.cells.forward label
  ⟨cell :: construction.made, cells⟩

/-- A refused assignment changes nothing. -/
def assign (construction : Construction ρ) (cell : Cell) (assignee : Assignee ρ) : Construction ρ :=
  match construction.cells.assign cell assignee with
  | .ok cells => { construction with cells }
  | .error _ => construction

/-- What can be done next, with any parsers that can be built out of what is there. -/
inductive Step (construction : Construction ρ) : Construction ρ → Prop
  | forward (label : Option String) : construction.Step (construction.forward label)
  /-- To build a parser changes no cell. -/
  | define {α : Type} (parser : Parser Cell ρ α) (hparser : parser.IsWithin construction.Knows) :
      construction.Step construction
  | assign (cell : Cell) (hcell : construction.Knows cell) (assignee : Assignee ρ)
      (hassignee : assignee.IsWithin construction.Knows) :
      construction.Step (construction.assign cell assignee)
  /-- To run a parser changes no cell either. -/
  | run {α : Type} (parser : Parser Cell ρ α) (hparser : parser.IsWithin construction.Knows)
      (text : Text) (position : Int) : construction.Step construction

/-- Any number of steps, one after another. -/
abbrev Becomes : Construction ρ → Construction ρ → Prop := Relation.ReflTransGen Step

/-- Either the construction stays as it is, or the cell was empty and now has a rule. -/
theorem assign_cases (construction : Construction ρ) (cell : Cell) (assignee : Assignee ρ) :
    construction.assign cell assignee = construction ∨
      construction.cells.rule? cell = none ∧ ∃ rule, assignee = .parser rule ∧
        construction.assign cell assignee =
          { construction with cells := construction.cells.put cell rule } := by
  unfold assign
  cases hassign : construction.cells.assign cell assignee with
  | error fault => exact .inl rfl
  | ok changed =>
    obtain ⟨hempty, rule, hrule, rfl⟩ := Cells.assign_eq_ok hassign
    exact .inr ⟨hempty, rule, hrule, rfl⟩

/-! ## Growth -/

/-- The later construction has all that the earlier one has. -/
structure Extends (later construction : Construction ρ) : Prop where
  knows : ∀ cell, construction.Knows cell → later.Knows cell
  size : construction.cells.rules.size ≤ later.cells.rules.size
  rule? : ∀ cell rule, construction.cells.rule? cell = some rule →
    later.cells.rule? cell = some rule

theorem Extends.refl (construction : Construction ρ) : construction.Extends construction :=
  ⟨fun _ ↦ id, le_rfl, fun _ _ ↦ id⟩

theorem Extends.trans (hlast : last.Extends later) (hlater : later.Extends construction) :
    last.Extends construction where
  knows cell hcell := hlast.knows cell (hlater.knows cell hcell)
  size := hlater.size.trans hlast.size
  rule? cell rule hrule := hlast.rule? cell rule (hlater.rule? cell rule hrule)

theorem Extends.holds (hlater : later.Extends construction) {cell : Cell}
    (hcell : construction.cells.Holds cell) : later.cells.Holds cell :=
  Nat.lt_of_lt_of_le hcell hlater.size

theorem extends_forward (construction : Construction ρ) (label : Option String) :
    (construction.forward label).Extends construction where
  knows _ hcell := List.mem_cons_of_mem _ hcell
  size := by simp [forward, Cells.forward]
  rule? cell _ hrule := (Cells.rule?_forward label cell).trans hrule

theorem extends_assign (construction : Construction ρ) (cell : Cell) (assignee : Assignee ρ) :
    (construction.assign cell assignee).Extends construction := by
  obtain hsame | ⟨hempty, rule, -, hput⟩ := construction.assign_cases cell assignee
  · rw [hsame]
    exact .refl construction
  rw [hput]
  refine ⟨fun _ ↦ id, by simp [Cells.put], fun other old hold ↦ ?_⟩
  have hother : other.index ≠ cell.index := by
    intro hindex
    have hsame : construction.cells.rule? other = construction.cells.rule? cell := by
      rw [Cells.rule?, Cells.rule?, hindex]
    rw [hsame, hempty] at hold
    cases hold
  exact (Cells.rule?_put_of_ne hother).trans hold

theorem Step.extends (hstep : construction.Step later) : later.Extends construction := by
  cases hstep with
  | forward label => exact construction.extends_forward label
  | assign cell _ assignee => exact construction.extends_assign cell assignee
  | define | run => exact .refl construction

theorem Becomes.extends (hlater : construction.Becomes later) : later.Extends construction := by
  induction hlater with
  | refl => exact .refl construction
  | tail _ hstep ih => exact hstep.extends.trans ih

/-! ## Scope -/

/-- All rules are within the scope of the cells that have been made. -/
structure IsScoped (construction : Construction ρ) : Prop where
  holds : ∀ cell, construction.Knows cell → construction.cells.Holds cell
  rules : ∀ cell rule, construction.cells.rule? cell = some rule →
    rule.IsWithin construction.Knows

theorem isScoped_empty : (empty : Construction ρ).IsScoped where
  holds _ := nofun
  rules _ _ hrule := absurd (Cells.holds_of_rule? hrule) (Nat.not_lt_zero _)

theorem IsScoped.forward (hscoped : construction.IsScoped) (label : Option String) :
    (construction.forward label).IsScoped where
  holds cell hcell := by
    refine (Cells.holds_forward label).2 ?_
    obtain rfl | hmade := List.mem_cons.1 hcell
    · exact .inr rfl
    · exact .inl (hscoped.holds cell hmade)
  rules cell rule hrule := by
    have hbefore := (Cells.rule?_forward label cell).symm.trans hrule
    exact (hscoped.rules cell rule hbefore).mono (construction.extends_forward label).knows

theorem IsScoped.assign (hscoped : construction.IsScoped) (cell : Cell) {assignee : Assignee ρ}
    (hassignee : assignee.IsWithin construction.Knows) :
    (construction.assign cell assignee).IsScoped := by
  obtain hsame | ⟨-, rule, rfl, hput⟩ := construction.assign_cases cell assignee
  · rwa [hsame]
  rw [hput]
  refine ⟨fun other hother ↦ Cells.holds_put.2 (hscoped.holds other hother),
    fun other found hfound ↦ ?_⟩
  obtain rfl | hbefore := Cells.eq_or_rule?_of_put hfound
  · exact hassignee
  · exact hscoped.rules other found hbefore

theorem IsScoped.step (hscoped : construction.IsScoped) (hstep : construction.Step later) :
    later.IsScoped := by
  cases hstep with
  | forward label => exact hscoped.forward label
  | assign cell _ assignee hassignee => exact hscoped.assign cell hassignee
  | define | run => exact hscoped

theorem IsScoped.becomes (hscoped : construction.IsScoped) (hlater : construction.Becomes later) :
    later.IsScoped := by
  induction hlater with
  | refl => exact hscoped
  | tail _ hstep ih => exact ih.step hstep

theorem IsScoped.isClosed (hscoped : construction.IsScoped) : construction.cells.IsClosed :=
  fun cell rule hrule other hother ↦ hscoped.holds other (hscoped.rules cell rule hrule _ hother)

/-- Every parser that can be put together with the cells made so far finds its rules there. -/
theorem IsScoped.supports {α : Type} {parser : Parser Cell ρ α} (hscoped : construction.IsScoped)
    (hparser : parser.IsWithin construction.Knows) : construction.cells.Supports parser :=
  ⟨hscoped.isClosed, fun cell hcell ↦ hscoped.holds cell (hparser _ hcell)⟩

end Construction

end ParserCombinators
