import ParserCombinators.Proofs.Parser.Termination
import ParserCombinators.Proofs.Session.Scope

/-!
# Reading expressions ends

An expression refers to itself only inside of parentheses, and a chain goes on only behind an
operator. No part of the grammar raises a fault by itself: all its tokens are turned into trees
whatever they are, however long an integer is.
-/

namespace ParserCombinators.Expression

variable {κ ρ α : Type} {s : Surroundings κ ρ} {strictly : Bool} {low : Int}
  {inner : Parser κ ρ α} {fault : Fault}

theorem passes_token (spaced : Bool) (hinner : inner.Passes s strictly low) :
    (token spaced inner).Passes s strictly low := by
  cases spaced with
  | false => exact hinner
  | true => exact hinner.lexeme

theorem readsOpening_token (spaced : Bool) (hinner : inner.ReadsOpening s) :
    (token spaced inner).ReadsOpening s := by
  cases spaced with
  | false => exact hinner
  | true => exact hinner.lexeme

theorem isGuarded_rule (spaced : Bool) : (rule spaced).IsGuarded (· == '(') := by
  intro s hopens hinside
  have hsymbol (c : Char) : (token spaced (.skipChar c)).Passes s true s.origin :=
    passes_token spaced (Parser.passes_skipChar s s.origin c)
  have hparenthesis : (token spaced (.skipChar '(')).ReadsOpening s :=
    readsOpening_token spaced (Parser.readsOpening_skipChar (by simp [hopens]))
  have hparentheses := hparenthesis.between (Int.le_refl _)
    (fun _ ↦ Parser.passes_forwarding hinside ()) (hsymbol ')').weaken
  have hinteger := passes_token spaced (Parser.passes_integer s s.origin)
  have hidentifier := passes_token spaced (Parser.passes_identifier s s.origin)
  have hfactor : (factor spaced).Passes s true s.origin :=
    Parser.passes_firstOf (by simpa using ⟨hparentheses, hinteger.map _, hidentifier.map _⟩)
  have hoperator (operator : Operator) : (operatorToken spaced operator).Passes s true s.origin :=
    (hsymbol operator.symbol).map _
  have hterm : (term spaced).Passes s true s.origin :=
    hfactor.chainLeft ((hoperator .multiply).orElse (hoperator .divide))
  have hrule : (rule spaced).Passes s true s.origin :=
    hterm.chainLeft ((hoperator .add).orElse (hoperator .subtract))
  exact hrule.weaken

theorem passes_grammar (spaced : Bool) (hopens : s.opens = (· == '(')) (low : Int) :
    (grammar spaced : Parser κ ρ Expression).Passes s false low := by
  have hrule := (isGuarded_rule spaced).passes_recursive hopens low
  cases spaced with
  | false => exact hrule
  | true => exact (Parser.passes_blanks s low).keepRight hrule

/-! ## Faults -/

theorem not_drawsOn_factor (spaced : Bool) : ¬(factor spaced).DrawsOn (.fault fault) := by
  rw [factor, Parser.drawsOn_firstOf]
  cases spaced <;>
    simp [token, Parser.DrawsOn, Parser.skipChar, Parser.char, Parser.map, Parser.lexeme,
      Parser.integer, Parser.identifier, Parser.stringOf, Parser.digit, Parser.letter,
      Parser.blanks, Parser.blank]

theorem not_drawsOn_operatorToken (spaced : Bool) (operator : Operator) :
    ¬(operatorToken spaced operator : Parser κ ρ _).DrawsOn (.fault fault) := by
  cases spaced <;>
    simp [operatorToken, token, Parser.DrawsOn, Parser.skipChar, Parser.char, Parser.map,
      Parser.lexeme, Parser.blanks, Parser.blank]

theorem not_drawsOn_chain {spaced : Bool} {operand : Parser Unit Expression Expression}
    {operator operator' : Operator} (hoperand : ¬operand.DrawsOn (.fault fault)) :
    ¬(Parser.chainLeft operand (.orElse (operatorToken spaced operator)
      (operatorToken spaced operator'))).DrawsOn (.fault fault) := by
  rintro (hfault | hfault | ⟨combine, left, right, other, hyields, herror, -⟩)
  · exact hoperand hfault
  · rw [Parser.orElse, Parser.drawsOn_firstOf] at hfault
    simp [not_drawsOn_operatorToken] at hfault
  · obtain ⟨tree, htree⟩ := exists_ok_of_yields hyields left right
    rw [htree] at herror
    cases herror

theorem not_drawsOn_grammar (spaced : Bool) :
    ¬(grammar spaced : Parser κ ρ Expression).DrawsOn (.fault fault) := by
  have hrule : ¬(rule spaced).DrawsOn (.fault fault) :=
    not_drawsOn_chain (not_drawsOn_chain (not_drawsOn_factor spaced))
  have hrecursive : ¬(Parser.recursive (rule spaced) : Parser κ ρ Expression).DrawsOn
      (.fault fault) := by
    rintro ⟨_, hfault, ⟨⟩⟩
    exact hrule hfault
  cases spaced with
  | false => exact hrecursive
  | true =>
    rintro (hfault | hfault)
    · exact hfault
    · exact hrecursive hfault

end ParserCombinators.Expression
