import ParserCombinators.Proofs.Expression.Grammar
import ParserCombinators.Proofs.Parser.Integer
import ParserCombinators.Proofs.Parser.Scripts

/-!
# Expressions with digits of any scripts

No token but the integer looks at a digit, and an integer keeps only the values of its digits. So an
expression is the same tree in whatever scripts its digits are, however deep they stand in it.
-/

namespace ParserCombinators.Expression

open Character
open ParserCombinators.Parser
open Finset (Ico)

variable {κ ρ α : Type}

theorem ignoresScripts_token (spaced : Bool) {inner : Parser κ ρ α}
    (hinner : inner.IgnoresScripts) : (token spaced inner).IgnoresScripts := by
  cases spaced with
  | false => exact hinner
  | true => exact hinner.keepLeft ignoresScripts_blanks

theorem ignoresScripts_operatorToken (spaced : Bool) (operator : Operator) :
    (operatorToken spaced operator : Parser κ ρ _).IgnoresScripts :=
  (ignoresScripts_token spaced (ignoresScripts_skipChar (isDigit_symbol operator))).map _

theorem ignoresScripts_factor (spaced : Bool) : (factor spaced).IgnoresScripts := by
  have hsymbol {c : Char} (hc : isDigit c = false) :
      (token spaced (skipChar c) : Parser Unit Expression Unit).IgnoresScripts :=
    ignoresScripts_token spaced (ignoresScripts_skipChar hc)
  have hparentheses :=
    (hsymbol (show isDigit '(' = false by decide)).between (ignoresScripts_forwarding ())
      (hsymbol (show isDigit ')' = false by decide))
  have hinteger : (token spaced Parser.integer : Parser Unit Expression Nat).IgnoresScripts :=
    ignoresScripts_token spaced ignoresScripts_integer
  have hidentifier :
      (token spaced Parser.identifier : Parser Unit Expression String).IgnoresScripts :=
    ignoresScripts_token spaced ignoresScripts_identifier
  exact IgnoresScripts.firstOf (by simpa using ⟨hparentheses, hinteger.map _, hidentifier.map _⟩)

theorem ignoresScripts_rule (spaced : Bool) : (rule spaced).IgnoresScripts := by
  have hoperator (operator : Operator) :
      (operatorToken spaced operator : Parser Unit Expression _).IgnoresScripts :=
    ignoresScripts_operatorToken spaced operator
  have hterm : (term spaced).IgnoresScripts :=
    (ignoresScripts_factor spaced).chainLeft ((hoperator .multiply).orElse (hoperator .divide))
  exact hterm.chainLeft ((hoperator .add).orElse (hoperator .subtract))

theorem ignoresScripts_grammar (spaced : Bool) :
    (grammar spaced : Parser κ ρ Expression).IgnoresScripts := by
  have hrule : (recursive (rule spaced) : Parser κ ρ Expression).IgnoresScripts :=
    (ignoresScripts_rule spaced).recursive
  cases spaced with
  | false => exact hrule
  | true => exact ignoresScripts_blanks.keepRight hrule

/-- An integer is read exactly where a digit stands. It ends at the next place where the text ends
or has no digit, and its value is that of the digits up to there. Nothing about integers or
expressions changes when all digits are exchanged for ASCII digits. -/
theorem integer_in_any_script (text : Text) :
    (∀ place : Nat, (integer.runAt text place).outcome = .failure ↔ ¬text.HasDigitAt place) ∧
    (∀ place : Nat, text.HasDigitAt place → ∃ stop : Nat,
      IsLeast {other | place < other ∧ (other = text.size ∨ ¬text.HasDigitAt other)} stop ∧
      (integer.runAt text place).outcome =
        .success (∑ index ∈ Ico place stop, text.digitAt index * 10 ^ (stop - 1 - index)) stop) ∧
    (∀ position : Int,
      integer.runAt text.withAsciiDigits position = integer.runAt text position) ∧
    ∀ spaced : Bool, parse spaced text.withAsciiDigits = parse spaced text := by
  refine ⟨fun place ↦ outcome_integer_eq_failure_iff, fun place ↦ exists_outcome_integer, ?_, ?_⟩
  · exact fun position ↦ congrFun (ignoresScripts_integer text Empty.elim) position
  · exact fun spaced ↦ congrFun (ignoresScripts_grammar spaced text Empty.elim) 0

/-- Digits of three scripts, behind a letter and before a blank. -/
theorem integer_in_any_script_mixed :
    Text.HasDigitAt #['a', '١', '2', '३', ' '] 1 ∧
    (integer.runAt #['a', '١', '2', '३', ' '] (1 : Nat)).outcome = .success 123 (4 : Nat) := by
  have hdigit : Text.HasDigitAt #['a', '١', '2', '३', ' '] 1 := by decide
  have hblank : ¬Text.HasDigitAt #['a', '١', '2', '३', ' '] 4 := by decide
  obtain ⟨stop, ⟨⟨hbehind, hbreak⟩, hleast⟩, houtcome⟩ :=
    (integer_in_any_script #['a', '١', '2', '३', ' ']).2.1 1 hdigit
  have hbound : stop ≤ 4 := hleast ⟨by decide, .inr hblank⟩
  obtain rfl | rfl | rfl : stop = 2 ∨ stop = 3 ∨ stop = 4 := by omega
  · exact absurd hbreak (by decide)
  · exact absurd hbreak (by decide)
  · exact ⟨hdigit, houtcome⟩

end ParserCombinators.Expression
