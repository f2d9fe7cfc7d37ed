import ParserCombinators.Parser.Basic

/-!
# Cells for rules that come later

A recursive grammar mentions a rule before the rule exists. A new cell comes with a parser that
forwards to it, which may be used at once; the rule is put into the cell later, exactly once. A
forwarding parser looks into its cell at the time of the run, and a run that meets an empty cell
raises a fault.
-/

namespace ParserCombinators

structure Cell where
  index : Nat
  label : Option String
  deriving DecidableEq, Repr

/-- All cells made so far; an empty place belongs to a cell that has no rule yet. -/
structure Cells (ρ : Type) : Type 1 where
  rules : Array (Option (Parser Cell ρ ρ))

/-- What is to be put into a cell: a parser, or something else, of which a text is kept. -/
inductive Assignee (ρ : Type) : Type 1
  | parser (rule : Parser Cell ρ ρ)
  | other (shown : Option String)

namespace Cells

variable {ρ α : Type}

def empty : Cells ρ := ⟨#[]⟩

def rule? (cells : Cells ρ) (cell : Cell) : Option (Parser Cell ρ ρ) :=
  cells.rules[cell.index]?.join

def isAssigned (cells : Cells ρ) (cell : Cell) : Bool := (cells.rule? cell).isSome

/-- A new empty cell; the parser that belongs to it is `.forwarding` of the cell. -/
def forward (cells : Cells ρ) (label : Option String) : Cell × Cells ρ :=
  (⟨cells.rules.size, label⟩, ⟨cells.rules.push none⟩)

/-- Whether the cell is still empty is looked at before what is to be put into it. -/
def assign (cells : Cells ρ) (cell : Cell) (assignee : Assignee ρ) : Except Fault (Cells ρ) :=
  if cells.isAssigned cell then .error (.reassignedReference cell.label)
  else match assignee with
    | .parser rule => .ok ⟨cells.rules.setIfInBounds cell.index (some rule)⟩
    | .other shown => .error (.notAParser shown)

/-- The cell as text, with a question mark for a missing or empty label. -/
def describe (cells : Cells ρ) (cell : Cell) : String :=
  let label := match cell.label with
    | none => "?"
    | some label => if label.isEmpty then "?" else label
  let state := if cells.isAssigned cell then "assigned" else "unassigned"
  "<ForwardReference " ++ label ++ " (" ++ state ++ ")>"

/-- What the rule in a cell does, given what all the rules do. -/
def entry (cells : Cells ρ) (text : Text) (rules : Cell → Matcher ρ) (cell : Cell) : Matcher ρ :=
  match cells.rule? cell with
  | some rule => rule.matcher text rules
  | none => fun _ ↦ .raised (.unassignedReference cell.label)

/-- Nested entries of a run that ends are at different cells or at different positions. -/
def depth (cells : Cells ρ) (text : Text) (position : Int) : Nat :=
  cells.rules.size * (text.remaining position + 1)

def runAt (cells : Cells ρ) (parser : Parser Cell ρ α) (text : Text) (position : Int) : Run α :=
  parser.matcher text (Matcher.resolve (cells.entry text) (cells.depth text position)) position

end Cells

end ParserCombinators
