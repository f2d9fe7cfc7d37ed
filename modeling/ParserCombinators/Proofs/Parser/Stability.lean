import ParserCombinators.Proofs.Parser.Construction

/-!
# Stability of runs

A run that ends either raises the fault of a cell that is empty at that moment, or never asked an
empty cell. In the second case nothing that is put into the cells later can change it: the run is
compared with one that reads the rules which are there in the same way, and anything in place of the
others.
-/

namespace ParserCombinators

open Comparison

variable {ρ α : Type}

namespace Cells

/-- What the rule in a cell does, or something else where the cell is empty. -/
def entryOr (cells : Cells ρ) (others : Cell → Matcher ρ) (text : Text) (rules : Cell → Matcher ρ)
    (cell : Cell) : Matcher ρ :=
  match cells.rule? cell with
  | some rule => rule.matcher text rules
  | none => others cell

/-- The run if empty cells did something else. -/
def runAtOr (cells : Cells ρ) (others : Cell → Matcher ρ) (parser : Parser Cell ρ α) (text : Text)
    (position : Int) : Run α :=
  parser.matcher text (Matcher.resolve (cells.entryOr others text) (cells.depth text position))
    position

end Cells

namespace Construction

variable {construction : Construction ρ} {parser : Parser Cell ρ α} {text : Text}
variable {start position : Int} {entries : (Cell → Matcher ρ) → Cell → Matcher ρ}
variable {depth depth' : Nat}

/-- The run raises the fault of a cell that is empty at that moment. -/
def MeetsEmptyCell (construction : Construction ρ) (run : Run α) : Prop :=
  ∃ cell, construction.Knows cell ∧ construction.cells.isAssigned cell = false ∧
    run.outcome = .raised (.unassignedReference cell.label)

/-- The run has nothing to do with empty cells. -/
structure IsFinal (construction : Construction ρ) (parser : Parser Cell ρ α) (text : Text)
    (position : Int) : Prop where
  ordinary : ∀ label, (construction.cells.runAt parser text position).outcome ≠
    .raised (.unassignedReference label)
  /-- Whatever is done afterwards. -/
  later : ∀ later, construction.Becomes later →
    later.cells.runAt parser text position = construction.cells.runAt parser text position
  /-- Whatever else empty cells would do. -/
  unread : ∀ others, construction.cells.runAtOr others parser text position =
    construction.cells.runAt parser text position

/-- Compares a run with those that treat empty cells in another way, or that are deeper. -/
def comparison (construction : Construction ρ) (text : Text) (start : Int) : Comparison :=
  .self text start Fault.IsOrdinary
    (fun fault ↦ ∃ cell, construction.Knows cell ∧ construction.cells.isAssigned cell = false ∧
      fault = .unassignedReference cell.label) True

/-- The rules that are in cells are read as they are. -/
def ReadsRules (construction : Construction ρ) (text : Text)
    (entries : (Cell → Matcher ρ) → Cell → Matcher ρ) : Prop :=
  ∀ inner cell rule, construction.cells.rule? cell = some rule →
    entries inner cell = rule.matcher text inner

/-- Parsers within the scope of the construction compare if the known rules do. -/
theorem relates_of_isWithin {inner inner' : Cell → Matcher ρ}
    (hparser : parser.IsWithin construction.Knows)
    (hinner : ∀ cell, construction.Knows cell →
      (construction.comparison text start).RelatesMatchers (inner cell) (inner' cell)) :
    (construction.comparison text start).RelatesMatchers (parser.matcher text inner)
      (parser.matcher text inner') :=
  (construction.comparison text start).relates_of_accepts parser fun
    | .rule cell, hcell => hinner cell (hparser _ hcell)
    | .fault fault, hfault => hparser (.fault fault) hfault

theorem IsScoped.relates_resolve (hscoped : construction.IsScoped)
    (hentries : construction.ReadsRules text entries) (hdepth : depth ≤ depth') {cell : Cell}
    (hcell : construction.Knows cell) :
    (construction.comparison text start).RelatesMatchers
      (.resolve (construction.cells.entry text) depth cell) (.resolve entries depth' cell) := by
  refine Comparison.relates_resolve (fun inner inner' hinner other hother ↦ ?_)
    (.inr ⟨trivial, hdepth⟩) hcell
  cases hrule : construction.cells.rule? other with
  | none =>
    have hempty : construction.cells.isAssigned other = false := by
      simp [Cells.isAssigned, hrule]
    simp only [Cells.entry, hrule]
    exact fun _ _ ↦ relates_of_excused ⟨other, hother, hempty, rfl⟩
  | some rule =>
    rw [hentries inner' other rule hrule]
    simp only [Cells.entry, hrule]
    exact relates_of_isWithin (hscoped.rules other rule hrule) hinner

theorem IsScoped.relates_runAt (hscoped : construction.IsScoped)
    (hparser : parser.IsWithin construction.Knows) (hentries : construction.ReadsRules text entries)
    (hdepth : construction.cells.depth text position ≤ depth) :
    (construction.comparison text position).Relates position
      (construction.cells.runAt parser text position)
      (parser.matcher text (Matcher.resolve entries depth) position) := by
  have hmatchers : (construction.comparison text position).RelatesMatchers _ _ :=
    relates_of_isWithin hparser fun _ ↦ hscoped.relates_resolve hentries hdepth
  have hrun := hmatchers position .refl
  rwa [show position + (construction.comparison text position).distance = position from
    Int.add_zero position] at hrun

theorem readsRules_entryOr (others : Cell → Matcher ρ) :
    construction.ReadsRules text (construction.cells.entryOr others text) := by
  intro inner cell rule hrule
  simp only [Cells.entryOr, hrule]

/-- Rules that are there stay there. -/
theorem Extends.readsRules {later : Construction ρ} (hlater : later.Extends construction) :
    construction.ReadsRules text (later.cells.entry text) := by
  intro inner cell rule hrule
  simp only [Cells.entry, hlater.rule? cell rule hrule]

theorem Extends.depth_le {later : Construction ρ} (hlater : later.Extends construction) :
    construction.cells.depth text position ≤ later.cells.depth text position :=
  Nat.mul_le_mul_right _ hlater.size

theorem IsScoped.meets_or_isFinal (hscoped : construction.IsScoped)
    (hparser : parser.IsWithin construction.Knows)
    (hends : construction.cells.Ends parser text position) :
    construction.MeetsEmptyCell (construction.cells.runAt parser text position) ∨
      construction.IsFinal parser text position := by
  have hends := (hscoped.supports hparser).ends_iff.1 hends
  by_cases hexcused : (construction.comparison text position).Excuses
      (construction.cells.runAt parser text position)
  · obtain ⟨fault, hraised, cell, hknown, hempty, rfl⟩ | ⟨hendless, -⟩ := hexcused
    · exact .inl ⟨cell, hknown, hempty, hraised⟩
    · exact absurd hendless hends
  -- Nothing excuses the run, so it is equal to every run that it is compared with.
  have heq {entries : (Cell → Matcher ρ) → Cell → Matcher ρ} {depth : Nat}
      (hentries : construction.ReadsRules text entries)
      (hdepth : construction.cells.depth text position ≤ depth) :
      parser.matcher text (Matcher.resolve entries depth) position =
        construction.cells.runAt parser text position :=
    ((hscoped.relates_runAt hparser hentries hdepth).resolve_left hexcused).1.trans
      (Run.moved_zero _)
  refine .inr ⟨fun label hraised ↦ ?_, fun later hlater ↦ ?_, fun others ↦ ?_⟩
  · have hself : (construction.comparison text position).Relates position
        (construction.cells.runAt parser text position)
        (construction.cells.runAt parser text position) :=
      hscoped.relates_runAt hparser (Extends.refl construction).readsRules le_rfl
    exact (hself.resolve_left hexcused).2.allows _ hraised label rfl
  · exact heq hlater.extends.readsRules hlater.extends.depth_le
  · exact heq (readsRules_entryOr others) le_rfl

/-- A run that ends meets an empty cell, or no further step can change it. -/
theorem meetsEmptyCell_or_isFinal (construction : Construction ρ)
    (hreached : empty.Becomes construction) (parser : Parser Cell ρ α)
    (hparser : parser.IsWithin construction.Knows) (text : Text) (position : Int)
    (hends : construction.cells.Ends parser text position) :
    construction.MeetsEmptyCell (construction.cells.runAt parser text position) ∨
      construction.IsFinal parser text position :=
  (isScoped_empty.becomes hreached).meets_or_isFinal hparser hends

/-- A cell with the rule for an `x` in any number of parentheses, which refers to the cell. -/
def nesting : Construction Nat :=
  (empty.forward none).assign ⟨0, none⟩ (.parser Cells.nestingRule)

theorem becomes_nesting : empty.Becomes nesting := by
  have hcell : (empty.forward none : Construction Nat).Knows ⟨0, none⟩ := List.mem_cons_self
  have hrule : Cells.nestingRule.IsWithin (empty.forward none : Construction Nat).Knows := by
    simpa [Cells.nestingRule] using hcell
  exact .tail (.single (.forward none)) (.assign _ hcell (.parser Cells.nestingRule) hrule)

theorem meetsEmptyCell_or_isFinal_nesting :
    nesting.cells.Ends (.forwarding ⟨0, none⟩) #['(', 'x', ')'] 0 ∧
      (nesting.MeetsEmptyCell
          (nesting.cells.runAt (.forwarding ⟨0, none⟩) #['(', 'x', ')'] 0) ∨
        nesting.IsFinal (.forwarding ⟨0, none⟩) #['(', 'x', ')'] 0) := by
  have hends : nesting.cells.Ends (.forwarding ⟨0, none⟩) #['(', 'x', ')'] 0 := ⟨2, nofun⟩
  have hcell : nesting.Knows ⟨0, none⟩ := List.mem_cons_self
  exact ⟨hends, meetsEmptyCell_or_isFinal nesting becomes_nesting _
    (Parser.isWithin_forwarding.2 hcell) _ _ hends⟩

end Construction

end ParserCombinators
