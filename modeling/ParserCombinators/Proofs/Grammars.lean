import ParserCombinators.Introduction
import ParserCombinators.Proofs.Expression.Termination
import ParserCombinators.Proofs.Json.Termination
import ParserCombinators.Proofs.Parser.Renaming

/-!
# The grammars return

A run of a ready-made grammar ends on every text and from every position. Its rounds consume
something, entries of its rule within each other are further and further on, and there is one more
of them than opening brackets at most. No cell is found empty; expressions raise no fault at all.
-/

namespace ParserCombinators

variable {α : Type} {text : Text} {position : Int}

namespace Introduction

variable {κ ρ : Type}

theorem passes_sumOfTwo (s : Surroundings κ ρ) (low : Int) :
    (sumOfTwo : Parser κ ρ Nat).Passes s true low :=
  (Parser.passes_integer s low).bind fun _ ↦
    (Parser.passes_skipChar s low '+').keepRight ((Parser.passes_integer s low).map _)

theorem passes_keyValue (s : Surroundings κ ρ) (low : Int) :
    (keyValue : Parser κ ρ (String × Nat)).Passes s true low :=
  (Parser.passes_identifier s low).step fun _ ↦ (Parser.passes_skipChar s low '=').step fun _ ↦
    (Parser.passes_integer s low).step fun _ ↦ Parser.passes_finish s low _

theorem passes_keyValues (s : Surroundings κ ρ) (low : Int) :
    (keyValues : Parser κ ρ (List (String × Nat))).Passes s true low := by
  have hblanks := Parser.passes_stringOf (Parser.passes_satisfy s low Character.isBlank)
  exact (passes_keyValue s low).step fun _ ↦
    (hblanks.keepRight (passes_keyValue s low)).many.step fun _ ↦ Parser.passes_finish s low _

end Introduction

namespace Parser

variable {parser : Parser Empty Empty α} {allows : Fault → Prop} {opens : Char → Bool}

/-- A run raises no fault but those that its parser draws on. -/
theorem allows_of_raised (hdraws : ∀ fault, parser.DrawsOn (.fault fault) → allows fault)
    {fault : Fault} (hraised : (parser.runAt text position).outcome = .raised fault) :
    allows fault := by
  let c := Comparison.allowing text position allows
  have hruns : c.RelatesMatchers (parser.matcher text Empty.elim)
      (parser.matcher text Empty.elim) :=
    c.relates_of_accepts parser fun
      | .rule name, _ => name.elim
      | .fault fault, hfault => hdraws fault hfault
  exact (Comparison.relatesMatchers_allowing.1 hruns position .refl).allows fault hraised

/-- All that can keep a run from returning is ruled out. -/
structure Returns (parser : Parser Empty Empty α) (opens : Char → Bool) (text : Text)
    (position : Int) : Prop where
  ends : (parser.runAt text position).outcome ≠ .endless
  advances : ∀ start stop, parser.Visits text Empty.elim position (.round start stop) →
    start < stop
  reenters : ∀ outer inner, parser.Visits text Empty.elim position (.reentry outer inner) →
    outer < inner
  nests : ∀ entries : List Int,
    entries.IsChain (fun outer inner ↦
      parser.Visits text Empty.elim position (.reentry outer inner)) →
    entries.length ≤ 1 + text.toList.countP opens
  assigned : ∀ label, (parser.runAt text position).outcome ≠ .raised (.unassignedReference label)

theorem Passes.returns {strictly : Bool}
    (hpasses : parser.Passes ⟨text, Empty.elim, opens, position⟩ strictly position)
    (hwithin : parser.IsWithin fun _ ↦ True) : parser.Returns opens text position := by
  obtain ⟨hends, hguarded⟩ := hpasses position (Int.le_refl _)
  have hbetween (outer inner : Int)
      (hreentry : parser.Visits text Empty.elim position (.reentry outer inner)) :
      text.HasBetween opens outer inner := hguarded _ hreentry
  refine ⟨hends.ends, fun start stop hround ↦ hguarded _ hround, ?_, ?_, ?_⟩
  · exact fun outer inner hreentry ↦ (hbetween outer inner hreentry).lt
  · exact fun entries hchain ↦ Text.length_le_of_isChain (hchain.imp hbetween)
  · intro label hraised
    exact allows_of_raised (fun fault ↦ hwithin (.fault fault)) hraised label rfl

end Parser

/-- The rules of expressions and of JSON do the same wherever they are put into a new cell. -/
theorem grammars_return (text : Text) (position : Int) :
    (∀ spaced, (Expression.grammar spaced).Returns (· == '(') text position ∧
      ∀ fault, ((Expression.grammar spaced).runAt text position).outcome ≠ .raised fault) ∧
    Json.value.Returns Json.isOpening text position ∧
    Json.document.Returns Json.isOpening text position ∧
    Introduction.keyValues.Returns (fun _ ↦ false) text position ∧
    Introduction.sumOfTwo.Returns (fun _ ↦ false) text position ∧
    (∀ spaced (cells : Cells Expression) label,
      (cells.withRule label (Expression.rule spaced)).runAt
          (.forwarding (cells.forward label).1) text position =
        (Parser.recursive (Expression.rule spaced)).runAt text position) ∧
    ∀ (cells : Cells Json.Value) label,
      (cells.withRule label Json.valueRule).runAt
          (.forwarding (cells.forward label).1) text position =
        Json.value.runAt text position := by
  refine ⟨fun spaced ↦ ⟨?_, fun fault ↦ ?_⟩, ?_, ?_, ?_, ?_, fun spaced cells label ↦ ?_,
    fun cells label ↦ ?_⟩
  · exact (Expression.passes_grammar spaced rfl position).returns (by simp)
  · exact Parser.allows_of_raised fun _ hdraws ↦ Expression.not_drawsOn_grammar spaced hdraws
  · exact (Json.passes_value rfl position).returns (by simp)
  · exact (Json.passes_document rfl position).returns (by simp [Json.document])
  · exact (Introduction.passes_keyValues _ position).returns
      (by simp [Introduction.keyValues, Parser.blank])
  · exact (Introduction.passes_sumOfTwo _ position).returns (by simp [Introduction.sumOfTwo])
  · exact Cells.runAt_withRule (Expression.isGuarded_rule spaced) position
  · exact Cells.runAt_withRule Json.isGuarded_valueRule position

/-- Behind an opening parenthesis the rule is entered again. -/
example : (Parser.recursive (Expression.rule false) : Parser Empty Empty Expression).Visits
    #['(', 'x', ')'] Empty.elim 0 (.reentry 0 1) := by
  have hfactor (rules : Unit → Matcher Expression) :
      (Expression.factor false).Visits #['(', 'x', ')'] rules 0 (.entry () 1) :=
    ⟨0, nofun, .inr ⟨(), 1, rfl, .inl rfl⟩⟩
  exact ⟨0, .refl, .entry () 1, .inl (.inl (hfactor _)), rfl⟩

end ParserCombinators
