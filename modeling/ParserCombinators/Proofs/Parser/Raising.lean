import ParserCombinators.Proofs.Parser.Positions
import ParserCombinators.Proofs.Parser.Tokens

/-!
# Parsers that raise allowed faults only

A parser that respects a language raises nothing, whatever its parts could raise by themselves. From
such parsers others are made by the ways of combining matchers, and so the faults that are left are
those of a few conversions. The comparison is that of a text with itself.
-/

namespace ParserCombinators

variable {κ ρ α : Type} {text : Text} {allows : Fault → Prop} {rules : κ → Matcher ρ}

namespace Text

theorem reaches_positionOf {slice rest : List Char} (hleft : slice ++ rest <:+ text.toList) :
    text.Reaches (text.positionOf (slice ++ rest)) (text.positionOf rest) := by
  have hsize : (slice ++ rest).length ≤ text.size := hleft.length_le
  rw [List.length_append] at hsize
  unfold Text.Reaches Text.positionOf
  rw [List.length_append]
  omega

theorem positionOf_of_reaches {position : Int} (hposition : text.Reaches 0 position) :
    text.positionOf (text.suffixFrom position) = position := by
  unfold Text.Reaches at hposition
  exact Text.positionOf_suffixFrom (by omega) (by omega)

end Text

open Comparison

/-- On the whole text the parser raises allowed faults only. -/
abbrev Parser.RaisesOnly (parser : Parser κ ρ α) (text : Text) (rules : κ → Matcher ρ)
    (allows : Fault → Prop) : Prop :=
  (allowing text 0 allows).RelatesMatchers (parser.matcher text rules) (parser.matcher text rules)

namespace Parser

variable {parser first second : Parser κ ρ α}

/-- What is known of the run from the start of the text. -/
theorem RaisesOnly.admits (hparser : parser.RaisesOnly text rules allows) :
    (allowing text 0 allows).Admits 0 (parser.matcher text rules 0) :=
  relatesMatchers_allowing.1 hparser 0 .refl

/-- A parser that respects a language raises nothing. -/
theorem raisesOnly_of_respects {language : Language α}
    (hrespects : ∀ left, left <:+ text.toList → parser.Respects text rules language left) :
    parser.RaisesOnly text rules allows := by
  refine relatesMatchers_allowing.2 fun position hposition ↦ ?_
  have hleft := text.suffixFrom_suffix position
  have hstart := Text.positionOf_of_reaches hposition
  obtain hrejects | ⟨slice, value, rest, hsplit, -, hreads⟩ := hrespects _ hleft
  · rw [Rejects, hstart] at hrejects
    exact ⟨by simp [hrejects], by simp [hrejects]⟩
  · rw [Reads, hstart] at hreads
    refine ⟨fun other stop hother ↦ ?_, by simp [hreads]⟩
    rw [hreads, Outcome.success.injEq] at hother
    obtain ⟨-, rfl⟩ := hother
    rw [← hstart, hsplit]
    rw [hsplit] at hleft
    exact Text.reaches_positionOf hleft

theorem raisesOnly_blanks : (blanks : Parser κ ρ (List Char)).RaisesOnly text rules allows :=
  raisesOnly_of_respects fun _ hleft ↦ respects_blanks hleft

theorem raisesOnly_firstOf {others : List (Parser κ ρ α)}
    (hall : ∀ parser ∈ first :: others, parser.RaisesOnly text rules allows) :
    (firstOf first others).RaisesOnly text rules allows :=
  relates_firstOf fun index ↦ hall _ (List.get_mem (first :: others) index)

theorem raisesOnly_orElse (hfirst : first.RaisesOnly text rules allows)
    (hsecond : second.RaisesOnly text rules allows) :
    (orElse first second).RaisesOnly text rules allows :=
  raisesOnly_firstOf (by simpa using ⟨hfirst, hsecond⟩)

/-- The rule at some depth refers to the rule at one depth less. -/
theorem raisesOnly_recursive {rule : Parser Unit α α}
    (hrule : ∀ rules, (forwarding ()).RaisesOnly text rules allows →
      rule.RaisesOnly text rules allows) :
    (recursive rule : Parser κ ρ α).RaisesOnly text rules allows := by
  have hnested (depth : Nat) : (forwarding ()).RaisesOnly text (rule.nested text depth) allows := by
    induction depth with
    | zero => exact fun _ _ ↦ relates_endless
    | succ depth ih => exact hrule _ ih
  exact relatesMatchers_allowing.2 fun position hposition ↦
    relatesMatchers_allowing.1 (hrule _ (hnested _)) position hposition

end Parser

end ParserCombinators
