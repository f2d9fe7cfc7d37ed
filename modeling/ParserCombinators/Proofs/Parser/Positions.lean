import ParserCombinators.Parser.Lexical
import ParserCombinators.Proofs.Parser.Comparison

/-!
# Where parsers stop, and what they see

Both results compare a run with another one. Compared with itself, a run stops where it started or
further on in the text. Compared with a run on a longer text, it does the same further on, since no
parser sees what is in front of its position.
-/

namespace ParserCombinators

variable {κ ρ α : Type}

namespace Comparison

/-- A text compared with itself. -/
def self (text : Text) (start : Int) (allows excuses : Fault → Prop) (excusesEndless : Prop) :
    Comparison where
  text := text
  other := text
  distance := 0
  start := start
  allows := allows
  excuses := excuses
  excusesEndless := excusesEndless
  size_other := (Int.add_zero _).symm
  charAt?_other position _ := by rw [Int.add_zero]

/-- A text compared with itself, where every run is to raise the allowed faults only. -/
abbrev allowing (text : Text) (start : Int) (allows : Fault → Prop) : Comparison :=
  self text start allows (fun _ ↦ False) False

/-- Compared with itself a matcher shows what is known of its runs, and nothing more. -/
theorem relatesMatchers_allowing {text : Text} {start : Int} {allows : Fault → Prop}
    {matcher : Matcher α} : (allowing text start allows).RelatesMatchers matcher matcher ↔
      ∀ position, text.Reaches start position →
        (allowing text start allows).Admits position (matcher position) := by
  refine forall₂_congr fun position _ ↦ ?_
  have hexcuses : ¬(allowing text start allows).Excuses (matcher position) := by
    rintro (⟨_, -, hexcused⟩ | ⟨-, hendless⟩)
    · exact hexcused
    · exact hendless
  have hmoved : matcher (position + 0) = (matcher position).moved 0 := by
    rw [Int.add_zero, Run.moved_zero]
  exact (or_iff_right hexcuses).trans (and_iff_right hmoved)

theorem size_behind (before text : Text) :
    ((before ++ text).size : Int) = text.size + before.size := by
  rw [Array.size_append]
  omega

theorem charAt?_behind (before text : Text) (start : Nat) (position : Int)
    (hposition : text.Reaches start position) :
    (before ++ text).charAt? (position + before.size) = text.charAt? position := by
  obtain ⟨offset, rfl⟩ : ∃ offset : Nat, position = offset :=
    Int.eq_ofNat_of_zero_le (by unfold Text.Reaches at hposition; omega)
  have hplace : ((offset : Int) + before.size).toNat = before.size + offset := by omega
  rw [Text.charAt?, Text.charAt?, if_pos (by omega), if_pos (by omega), hplace, Int.toNat_natCast,
    Array.getElem?_append_right (by omega), Nat.add_sub_cancel_left]

/-- A text compared with a longer one that ends with it. -/
def behind (before text : Text) (start : Nat) : Comparison where
  text := text
  other := before ++ text
  distance := before.size
  start := start
  allows _ := True
  excuses _ := False
  excusesEndless := False
  size_other := size_behind before text
  charAt?_other := charAt?_behind before text start

/-- Nothing excuses a run from being compared, whatever fault it raises. -/
structure IsStrict (c : Comparison) : Prop where
  allows : ∀ fault, c.allows fault
  excuses : ∀ fault, ¬c.excuses fault
  excusesEndless : ¬c.excusesEndless

variable {c : Comparison}

theorem IsStrict.accepts (hstrict : c.IsStrict) {rules rules' : κ → Matcher ρ}
    (hrules : ∀ name, c.RelatesMatchers (rules name) (rules' name)) :
    ∀ source, c.Accepts rules rules' source
  | .rule name => hrules name
  | .fault fault => hstrict.allows fault

theorem IsStrict.relates_resolve (hstrict : c.IsStrict) (cells : Cells ρ) (depth : Nat)
    (cell : Cell) :
    c.RelatesMatchers (.resolve (cells.entry c.text) depth cell)
      (.resolve (cells.entry c.other) depth cell) := by
  induction depth generalizing cell with
  | zero => exact fun _ _ ↦ relates_endless
  | succ depth ih =>
    simp only [Matcher.resolve, Cells.entry]
    cases cells.rule? cell with
    | none => exact fun _ _ ↦ relates_raised (hstrict.allows _)
    | some rule => exact c.relates_of_accepts rule fun source _ ↦ hstrict.accepts ih source

/-- The two runs on the same cells are the same, moved. -/
theorem IsStrict.runAt_other (hstrict : c.IsStrict) (cells : Cells ρ) (parser : Parser Cell ρ α) :
    cells.runAt parser c.other (c.start + c.distance) =
        (cells.runAt parser c.text c.start).moved c.distance ∧
      c.Admits c.start (cells.runAt parser c.text c.start) := by
  have hdepth : cells.depth c.other (c.start + c.distance) = cells.depth c.text c.start := by
    rw [Cells.depth, Cells.depth, c.remaining_other]
  have hrules := hstrict.relates_resolve cells (cells.depth c.text c.start)
  have hmatchers := c.relates_of_accepts parser fun source _ ↦ hstrict.accepts hrules source
  have hrun := hmatchers c.start .refl
  rw [Cells.runAt, Cells.runAt, hdepth]
  obtain (⟨fault, -, hfault⟩ | ⟨-, hendless⟩) | hrelates := hrun
  · exact absurd hfault (hstrict.excuses fault)
  · exact absurd hendless hstrict.excusesEndless
  · exact hrelates

end Comparison

namespace Cells

/-- A parser never goes back, never leaves the text, and consumes nothing outside of it. -/
theorem reaches_of_success (cells : Cells ρ) (parser : Parser Cell ρ α) (text : Text)
    (position stop : Int) (value : α)
    (hrun : (cells.runAt parser text position).outcome = .success value stop) :
    stop = position ∨ 0 ≤ position ∧ position < stop ∧ stop ≤ text.size := by
  let c := Comparison.self text position (fun _ ↦ True) (fun _ ↦ False) False
  have hstrict : c.IsStrict := ⟨fun _ ↦ trivial, fun _ ↦ id, id⟩
  exact (hstrict.runAt_other cells parser).2.reaches value stop hrun

/-- The number of parentheses around an `x`, as a rule that refers to its own cell. -/
def nestingRule : Parser Cell Nat Nat :=
  .orElse
    ((Parser.between (.skipChar '(') (.forwarding ⟨0, none⟩) (.skipChar ')')).map (· + 1))
    ((Parser.skipChar 'x').map fun _ ↦ 0)

theorem reaches_of_nesting :
    ((⟨#[some nestingRule]⟩ : Cells Nat).runAt (.forwarding ⟨0, none⟩)
        #[' ', '(', '(', 'x', ')', ')', ')'] 1).outcome = .success 2 6 ∧
      ((6 : Int) = 1 ∨ (0 : Int) ≤ 1 ∧ (1 : Int) < 6 ∧ (6 : Int) ≤ 7) :=
  ⟨by decide, reaches_of_success ⟨#[some nestingRule]⟩ (.forwarding ⟨0, none⟩)
    #[' ', '(', '(', 'x', ')', ')', ')'] 1 6 2 (by decide)⟩

/-- A parser sees only what comes after its position. -/
theorem runAt_append (cells : Cells ρ) (parser : Parser Cell ρ α) (before text : Text)
    (position : Nat) :
    cells.runAt parser (before ++ text) (before.size + position) =
      (cells.runAt parser text position).moved before.size := by
  let c := Comparison.behind before text position
  have hstrict : c.IsStrict := ⟨fun _ ↦ trivial, fun _ ↦ id, id⟩
  rw [Int.add_comm]
  exact (hstrict.runAt_other cells parser).1

end Cells

end ParserCombinators
