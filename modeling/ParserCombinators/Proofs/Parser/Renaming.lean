import ParserCombinators.Proofs.Parser.Construction
import ParserCombinators.Proofs.Parser.Termination

/-!
# Recursive rules in cells

A recursive rule is put together with a new cell: the parser that forwards to the cell stands for
the rule within itself, and the cell is assigned once the rule is there. With all its references
renamed to the cell, a guarded rule does the same as a rule that refers to itself.
-/

namespace ParserCombinators

variable {κ κ' ρ τ : Type}

mutual

/-- The parser with other names for the rules that it refers to. -/
def Parser.rename (f : κ → κ') : {ρ α : Type} → Parser κ ρ α → Parser κ' ρ α
  | _, _, .item => .item
  | _, _, .succeed value => .succeed value
  | _, _, .fail => .fail
  | _, _, .raise fault => .raise fault
  | _, _, .satisfy accepts => .satisfy accepts
  | _, _, .bind first next => .bind (first.rename f) fun value ↦ (next value).rename f
  | _, _, .convert first g => .convert (first.rename f) g
  | _, _, .choice others alternatives => .choice others fun index ↦ (alternatives index).rename f
  | _, _, .keepRight first second => .keepRight (first.rename f) (second.rename f)
  | _, _, .keepLeft first second => .keepLeft (first.rename f) (second.rename f)
  | _, _, .pair first second => .pair (first.rename f) (second.rename f)
  | _, _, .between opening inner closing =>
    .between (opening.rename f) (inner.rename f) (closing.rename f)
  | _, _, .many inner => .many (inner.rename f)
  | _, _, .many1 inner => .many1 (inner.rename f)
  | _, _, .chainLeft term operator => .chainLeft (term.rename f) (operator.rename f)
  | _, _, .sequence label script => .sequence label (script.rename f)
  | _, _, .trace tag inner => .trace tag (inner.rename f)
  | _, _, .forwarding name => .forwarding (f name)
  | _, _, .recursive rule => .recursive rule

def Script.rename (f : κ → κ') : {ρ α : Type} → Script κ ρ α → Script κ' ρ α
  | _, _, .finish value => .finish value
  | _, _, .raise fault => .raise fault
  | _, _, .step first next => .step (first.rename f) fun value ↦ (next value).rename f

end

section

variable (text : Text) (f : κ → κ')

mutual

/-- A renamed parser reads the rules under their new names. -/
theorem Parser.matcher_rename : {ρ α : Type} → (parser : Parser κ ρ α) → (rules : κ' → Matcher ρ) →
    (parser.rename f).matcher text rules = parser.matcher text fun name ↦ rules (f name)
  | _, _, .item, _ => rfl
  | _, _, .succeed _, _ => rfl
  | _, _, .fail, _ => rfl
  | _, _, .raise _, _ => rfl
  | _, _, .satisfy _, _ => rfl
  | _, _, .bind first next, rules =>
    congrArg₂ Matcher.bind (first.matcher_rename rules)
      (funext fun value ↦ (next value).matcher_rename rules)
  | _, _, .convert first g, rules => congrArg (Matcher.convert · g) (first.matcher_rename rules)
  | _, _, .choice others alternatives, rules =>
    congrArg (Matcher.firstOf (others + 1))
      (funext fun index ↦ (alternatives index).matcher_rename rules)
  | _, _, .keepRight first second, rules =>
    congrArg₂ Matcher.keepRight (first.matcher_rename rules) (second.matcher_rename rules)
  | _, _, .keepLeft first second, rules =>
    congrArg₂ Matcher.keepLeft (first.matcher_rename rules) (second.matcher_rename rules)
  | _, _, .pair first second, rules =>
    congrArg₂ Matcher.pair (first.matcher_rename rules) (second.matcher_rename rules)
  | _, _, .between opening inner closing, rules => by
    simp only [Parser.rename, Parser.matcher, opening.matcher_rename rules,
      inner.matcher_rename rules, closing.matcher_rename rules]
  | _, _, .many inner, rules => congrArg (Matcher.many text) (inner.matcher_rename rules)
  | _, _, .many1 inner, rules => congrArg (Matcher.many1 text) (inner.matcher_rename rules)
  | _, _, .chainLeft term operator, rules =>
    congrArg₂ (Matcher.chainLeft text) (term.matcher_rename rules) (operator.matcher_rename rules)
  | _, _, .sequence label script, rules =>
    congrArg (Matcher.sequence label) (script.matcher_rename label rules)
  | _, _, .trace tag inner, rules => congrArg (Matcher.trace tag) (inner.matcher_rename rules)
  | _, _, .forwarding _, _ => rfl
  | _, _, .recursive _, _ => rfl

theorem Script.matcher_rename : {ρ α : Type} → (script : Script κ ρ α) → (label : Option String) →
    (rules : κ' → Matcher ρ) → (script.rename f).matcher text label rules =
      script.matcher text label fun name ↦ rules (f name)
  | _, _, .finish _, _, _ => rfl
  | _, _, .raise _, _, _ => rfl
  | _, _, .step first next, label, rules =>
    congrArg₂ (Matcher.step label) (first.matcher_rename rules)
      (funext fun value ↦ (next value).matcher_rename label rules)

end

end

namespace Cells

variable {cells : Cells τ} {text : Text} {label : Option String} {rule : Parser Unit τ τ}
  {opens : Char → Bool} {depth : Nat}

/-- The cells after a new one was made for a recursive rule, and the rule was put into it. -/
def withRule (cells : Cells τ) (label : Option String) (rule : Parser Unit τ τ) : Cells τ :=
  let (cell, made) := cells.forward label
  made.put cell (rule.rename fun _ ↦ cell)

theorem assign_forward (cells : Cells τ) (label : Option String) (rule : Parser Unit τ τ) :
    let (cell, made) := cells.forward label
    made.assign cell (.parser (rule.rename fun _ ↦ cell)) = .ok (cells.withRule label rule) := by
  have hempty : (cells.forward label).2.isAssigned (cells.forward label).1 = false := by
    rw [isAssigned, rule?_forward_self]
    rfl
  exact if_neg (Bool.eq_false_iff.1 hempty)

theorem rule?_withRule (cells : Cells τ) (label : Option String) (rule : Parser Unit τ τ) :
    (cells.withRule label rule).rule? (cells.forward label).1 =
      some (rule.rename fun _ ↦ (cells.forward label).1) :=
  rule?_put_self ((holds_forward label).2 (.inr rfl))

/-- Each level of entries at the cell is the level of the rule that refers to itself. -/
theorem level_withRule (depth : Nat) :
    (cells.withRule label rule).level text depth (cells.forward label).1 =
      rule.nested text depth () := by
  induction depth with
  | zero => rfl
  | succ depth ih =>
    funext position
    calc (cells.withRule label rule).level text (depth + 1) (cells.forward label).1 position
        = (cells.withRule label rule).entry text ((cells.withRule label rule).level text depth)
            (cells.forward label).1 position := rfl
      _ = (rule.rename fun _ ↦ (cells.forward label).1).matcher text
            ((cells.withRule label rule).level text depth) position := by
          rw [entry, rule?_withRule]
      _ = rule.matcher text (fun _ ↦ (cells.withRule label rule).level text depth
            (cells.forward label).1) position := by rw [Parser.matcher_rename]
      _ = rule.matcher text (rule.nested text depth) position := by rw [ih]

theorem remaining_lt_depth (cells : Cells τ) (label : Option String) (rule : Parser Unit τ τ)
    (text : Text) (position : Int) :
    text.remaining position < (cells.withRule label rule).depth text position := by
  have hsize : (cells.withRule label rule).rules.size = cells.rules.size + 1 := by
    simp [withRule, put, forward]
  rw [depth, hsize]
  exact Nat.le_mul_of_pos_left _ (Nat.succ_pos _)

/-- The parser that forwards to the cell is the rule that refers to itself. -/
theorem runAt_withRule (hrule : rule.IsGuarded opens) (position : Int) :
    (cells.withRule label rule).runAt (.forwarding (cells.forward label).1) text position =
      (Parser.recursive rule).runAt text position := by
  calc (cells.withRule label rule).runAt (.forwarding (cells.forward label).1) text position
      = (cells.withRule label rule).level text ((cells.withRule label rule).depth text position)
          (cells.forward label).1 position := rfl
    _ = rule.nested text ((cells.withRule label rule).depth text position) () position := by
        rw [level_withRule]
    _ = (Parser.recursive rule).runAt text position :=
        hrule.nested_eq_of_remaining (remaining_lt_depth ..)

end Cells

end ParserCombinators
