import Mathlib.Data.Fintype.Prod
import ParserCombinators.Proofs.Parser.Positions

/-!
# The depth of a run is enough

A deeper run differs from a run only where that one is endless. The entries at which the rules end
become more and more with the depth. As soon as one more level adds none, no further level does, and
there are only as many entries as a run has levels. So a run that ends at any depth at all ends at
its own depth, in the same way: it is endless only if no depth of nested entries is enough.
-/

namespace ParserCombinators

variable {κ ρ α : Type}

namespace Comparison

variable {text : Text} {start position : Int} {run run' run'' : Run α}

/-- Compares a run with deeper ones. -/
abbrev deepening (text : Text) (start : Int) : Comparison :=
  self text start (fun _ ↦ True) (fun _ ↦ False) True

theorem Relates.eq_of_ends (hrun : (deepening text start).Relates position run run')
    (hends : run.outcome ≠ .endless) : run' = run := by
  obtain (⟨_, -, hfault⟩ | ⟨hendless, -⟩) | ⟨hmoved, -⟩ := hrun
  · exact hfault.elim
  · exact absurd hendless hends
  · rw [hmoved]
    exact run.moved_zero

theorem Relates.trans (hfirst : (deepening text start).Relates position run run')
    (hsecond : (deepening text start).Relates position run' run'') :
    (deepening text start).Relates position run run'' := by
  by_cases hends : run.outcome = .endless
  · exact .inl (.inr ⟨hends, trivial⟩)
  · rwa [hfirst.eq_of_ends hends] at hsecond

theorem Relates.symm (hrun : (deepening text start).Relates position run run')
    (hends : run.outcome ≠ .endless) : (deepening text start).Relates position run' run := by
  have heq := hrun.eq_of_ends hends
  rwa [heq] at hrun ⊢

theorem relatesMatchers_deepening {matcher matcher' : Matcher α} :
    (deepening text start).RelatesMatchers matcher matcher' ↔
      ∀ position, text.Reaches start position →
        (deepening text start).Relates position (matcher position) (matcher' position) := by
  simp [RelatesMatchers, deepening, self]

end Comparison

namespace Cells

open Comparison

variable {cells : Cells ρ} {text : Text} {start position : Int} {depth : Nat}

def Holds (cells : Cells ρ) (cell : Cell) : Prop := cell.index < cells.rules.size

/-- The rules refer only to cells that are there. -/
def IsClosed (cells : Cells ρ) : Prop :=
  ∀ cell rule, cells.rule? cell = some rule → ∀ other, rule.DrawsOn (.rule other) →
    cells.Holds other

/-- What the rules do with so many levels of nested entries. -/
def level (cells : Cells ρ) (text : Text) (depth : Nat) : Cell → Matcher ρ :=
  Matcher.resolve (cells.entry text) depth

theorem relates_entry (hclosed : cells.IsClosed) {inner inner' : Cell → Matcher ρ}
    (hinner : ∀ cell, cells.Holds cell →
      (deepening text start).RelatesMatchers (inner cell) (inner' cell))
    (cell : Cell) :
    (deepening text start).RelatesMatchers (cells.entry text inner cell)
      (cells.entry text inner' cell) := by
  unfold entry
  cases hrule : cells.rule? cell with
  | none => exact fun _ _ ↦ relates_raised trivial
  | some rule =>
    exact (deepening text start).relates_of_accepts rule fun
      | .rule other, hother => hinner other (hclosed cell rule hrule other hother)
      | .fault _, _ => trivial

theorem relates_level (hclosed : cells.IsClosed) {deeper : Nat} (hle : depth ≤ deeper) {cell : Cell}
    (hcell : cells.Holds cell) :
    (deepening text start).RelatesMatchers (cells.level text depth cell)
      (cells.level text deeper cell) :=
  relates_resolve (fun _ _ hinner other _ ↦ relates_entry hclosed hinner other)
    (.inr ⟨trivial, hle⟩) hcell

/-- One more level makes no more entries end. -/
def IsSettled (cells : Cells ρ) (text : Text) (start : Int) (depth : Nat) : Prop :=
  ∀ cell, cells.Holds cell → (deepening text start).RelatesMatchers
    (cells.level text (depth + 1) cell) (cells.level text depth cell)

/-- Then no further level does, since a level is made of the one before it. -/
theorem IsSettled.relates_level (hclosed : cells.IsClosed)
    (hsettled : cells.IsSettled text start depth) (more : Nat) (cell : Cell)
    (hcell : cells.Holds cell) :
    (deepening text start).RelatesMatchers (cells.level text (depth + more) cell)
      (cells.level text depth cell) := by
  induction more generalizing cell with
  | zero => exact Cells.relates_level hclosed le_rfl hcell
  | succ more ih =>
    have hnext := relates_entry hclosed ih cell
    rw [relatesMatchers_deepening] at hnext ⊢
    intro position hposition
    have hlast := relatesMatchers_deepening.1 (hsettled cell hcell) position hposition
    exact (hnext position hposition).trans hlast

/-! ## Counting the entries that end -/

theorem outcome_level_eq_endless (cell : Cell) :
    (cells.level text depth cell position).outcome = .endless ↔
      (cells.level text depth ⟨cell.index, none⟩ position).outcome = .endless := by
  cases depth with
  | zero => exact Iff.rfl
  | succ depth =>
    have hrule : cells.rule? ⟨cell.index, none⟩ = cells.rule? cell := rfl
    simp only [level, Matcher.resolve, entry, hrule]
    cases cells.rule? cell with
    | none => simp [Run.raised]
    | some rule => exact Iff.rfl

open Classical in
/-- The entries at which the rules end, by the index of the cell and the distance from the start. -/
noncomputable def ended (cells : Cells ρ) (text : Text) (start : Int) (depth : Nat) :
    Finset (Fin cells.rules.size × Fin (text.remaining start + 1)) :=
  Finset.univ.filter fun entry ↦
    (cells.level text depth ⟨entry.1, none⟩ (start + entry.2)).outcome ≠ .endless

theorem mem_ended {entry : Fin cells.rules.size × Fin (text.remaining start + 1)} :
    entry ∈ cells.ended text start depth ↔
      (cells.level text depth ⟨entry.1, none⟩ (start + entry.2)).outcome ≠ .endless := by
  simp [ended]

theorem ended_subset_of_le (hclosed : cells.IsClosed) {deeper : Nat} (hle : depth ≤ deeper) :
    cells.ended text start depth ⊆ cells.ended text start deeper := by
  intro entry hentry
  rw [mem_ended] at hentry ⊢
  have hlevels : (deepening text (start + entry.2)).RelatesMatchers
      (cells.level text depth ⟨entry.1, none⟩) (cells.level text deeper ⟨entry.1, none⟩) :=
    relates_level hclosed hle entry.1.2
  rwa [(relatesMatchers_deepening.1 hlevels _ .refl).eq_of_ends hentry]

/-- A run from the start enters a rule that is there at one of the counted entries. -/
theorem exists_entry {cell : Cell} (hcell : cells.Holds cell)
    (hposition : text.Reaches start position) :
    ∃ entry : Fin cells.rules.size × Fin (text.remaining start + 1),
      (entry.1 : Nat) = cell.index ∧ start + (entry.2 : Nat) = position := by
  have hoffset : (position - start).toNat < text.remaining start + 1 := by
    unfold Text.Reaches at hposition
    unfold Text.remaining
    omega
  refine ⟨⟨⟨cell.index, hcell⟩, ⟨(position - start).toNat, hoffset⟩⟩, rfl, ?_⟩
  unfold Text.Reaches at hposition
  dsimp only
  omega

theorem isSettled_of_subset (hclosed : cells.IsClosed)
    (hsubset : cells.ended text start (depth + 1) ⊆ cells.ended text start depth) :
    cells.IsSettled text start depth := by
  intro cell hcell
  rw [relatesMatchers_deepening]
  intro position hposition
  by_cases hends : (cells.level text (depth + 1) cell position).outcome = .endless
  · exact .inl (.inr ⟨hends, trivial⟩)
  obtain ⟨entry, hindex, rfl⟩ := exists_entry hcell hposition
  have hended : entry ∈ cells.ended text start (depth + 1) := by
    rwa [mem_ended, hindex, Ne, ← outcome_level_eq_endless]
  have hbefore := mem_ended.1 (hsubset hended)
  rw [hindex, Ne, ← outcome_level_eq_endless] at hbefore
  have hdeeper := relatesMatchers_deepening.1
    (relates_level hclosed (Nat.le_succ depth) hcell) _ hposition
  exact hdeeper.symm hbefore

/-- Otherwise more entries would end than there are. -/
theorem exists_isSettled (hclosed : cells.IsClosed) (text : Text) (start : Int) :
    ∃ depth ≤ cells.depth text start, cells.IsSettled text start depth := by
  by_contra! hnever
  have hgrowth (depth : Nat) (hdepth : depth ≤ cells.depth text start + 1) :
      depth ≤ (cells.ended text start depth).card := by
    induction depth with
    | zero => exact Nat.zero_le _
    | succ depth ih =>
      have hunsettled : ¬cells.ended text start (depth + 1) ⊆ cells.ended text start depth :=
        fun hsubset ↦ hnever depth (by omega) (isSettled_of_subset hclosed hsubset)
      have hgrows : cells.ended text start depth ⊂ cells.ended text start (depth + 1) :=
        ⟨ended_subset_of_le hclosed (Nat.le_succ depth), hunsettled⟩
      have := Finset.card_lt_card hgrows
      have := ih (by omega)
      omega
  have hmany := hgrowth _ le_rfl
  have hfew := (cells.ended text start (cells.depth text start + 1)).card_le_univ
  rw [Fintype.card_prod, Fintype.card_fin, Fintype.card_fin] at hfew
  exact absurd (hmany.trans hfew) (Nat.not_succ_le_self _)

/-! ## Runs of any depth -/

/-- The parser and all rules refer only to cells that are there. -/
structure Supports (cells : Cells ρ) (parser : Parser Cell ρ α) : Prop where
  isClosed : cells.IsClosed
  holds : ∀ cell, parser.DrawsOn (.rule cell) → cells.Holds cell

/-- Some depth of nested entries is enough for the run to end. -/
def Ends (cells : Cells ρ) (parser : Parser Cell ρ α) (text : Text) (position : Int) : Prop :=
  ∃ depth, (parser.matcher text (cells.level text depth) position).outcome ≠ .endless

variable {parser : Parser Cell ρ α} {deeper : Nat}

/-- A run that ends is the same at each depth at which the rules that it may enter compare. -/
theorem Supports.matcher_level_eq (hparser : cells.Supports parser)
    (hlevels : ∀ cell, cells.Holds cell → (deepening text position).RelatesMatchers
      (cells.level text depth cell) (cells.level text deeper cell))
    (hends : (parser.matcher text (cells.level text depth) position).outcome ≠ .endless) :
    parser.matcher text (cells.level text deeper) position =
      parser.matcher text (cells.level text depth) position := by
  have hparsers := (deepening text position).relates_of_accepts parser fun
    | .rule cell, hcell => hlevels cell (hparser.holds cell hcell)
    | .fault _, _ => trivial
  exact (relatesMatchers_deepening.1 hparsers position .refl).eq_of_ends hends

theorem Supports.matcher_level_eq_of_le (hparser : cells.Supports parser) (hle : depth ≤ deeper)
    (hends : (parser.matcher text (cells.level text depth) position).outcome ≠ .endless) :
    parser.matcher text (cells.level text deeper) position =
      parser.matcher text (cells.level text depth) position :=
  hparser.matcher_level_eq (fun _ ↦ relates_level hparser.isClosed hle) hends

theorem Supports.runAt_eq_of_ends (hparser : cells.Supports parser)
    (hends : (parser.matcher text (cells.level text depth) position).outcome ≠ .endless) :
    cells.runAt parser text position =
      parser.matcher text (cells.level text depth) position := by
  obtain hle | hlt := le_or_gt depth (cells.depth text position)
  · exact hparser.matcher_level_eq_of_le hle hends
  · obtain ⟨settled, hle, hsettled⟩ := exists_isSettled hparser.isClosed text position
    obtain ⟨more, rfl⟩ : ∃ more, depth = settled + more := ⟨depth - settled, by omega⟩
    have hback :=
      hparser.matcher_level_eq (hsettled.relates_level hparser.isClosed more) hends
    rw [← hback] at hends ⊢
    exact hparser.matcher_level_eq_of_le hle hends

/-- A run is endless only if no depth is enough for it. -/
theorem Supports.ends_iff (hparser : cells.Supports parser) :
    cells.Ends parser text position ↔ (cells.runAt parser text position).outcome ≠ .endless := by
  refine ⟨fun ⟨depth, hends⟩ ↦ ?_, fun hends ↦ ⟨_, hends⟩⟩
  rwa [hparser.runAt_eq_of_ends hends]

theorem depth_le (cells : Cells ρ) (text : Text) (hle : start ≤ position) :
    cells.depth text position ≤ cells.depth text start := by
  have hremaining : text.remaining position ≤ text.remaining start := by
    unfold Text.remaining
    omega
  exact Nat.mul_le_mul_left _ (Nat.succ_le_succ hremaining)

/-- A part of a run, which has the depth of the whole one, ends as it does by itself. -/
theorem Supports.outcome_eq (hparser : cells.Supports parser) (hle : start ≤ position) :
    (parser.matcher text (cells.level text (cells.depth text start)) position).outcome =
      (cells.runAt parser text position).outcome := by
  by_cases hends : (cells.runAt parser text position).outcome = .endless
  · by_contra hpart
    rw [hends] at hpart
    have hwhole := hparser.runAt_eq_of_ends hpart
    rw [← hwhole] at hpart
    exact hpart hends
  · exact congrArg Run.outcome (hparser.matcher_level_eq_of_le (cells.depth_le text hle) hends)

end Cells

end ParserCombinators
