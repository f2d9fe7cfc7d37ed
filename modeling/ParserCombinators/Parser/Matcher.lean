import ParserCombinators.Parser.Run
import ParserCombinators.Text.Basic

/-!
# Matchers

A matcher is what a parser does on one fixed text: a run for every position. Each way of combining
parsers is first a way of combining matchers, written out by itself so that the laws which relate
one to another are theorems and not conventions.

A repetition gets as many rounds as there are characters left. Every round of a repetition that
makes progress consumes one, so the rounds run out only where the repetition would go on for ever.
In the same way a rule that refers to itself gets as many nested entries as there are positions left
to enter it at, times the number of rules that refer to each other.

Nesting has no other limit. A machine whose stack is bounded gives up on deep nesting with an error
of its own. That error is no outcome of a run here, so what is stated about runs is about machines
whose stack suffices.
-/

namespace ParserCombinators

abbrev Matcher (α : Type) := Int → Run α

namespace Matcher

variable {α β γ κ ρ : Type}

/-- The only matcher that looks for the end of the text. -/
def item (text : Text) : Matcher Char := fun position ↦
  match text.charAt? position with
  | some c => .succeeded c (position + 1)
  | none => .failed

def satisfy (text : Text) (accepts : Char → Bool) : Matcher Char := fun position ↦
  match text.charAt? position with
  | some c => if accepts c then .succeeded c (position + 1) else .failed
  | none => .failed

def bind (first : Matcher α) (next : α → Matcher β) : Matcher β := fun position ↦
  (first position).andThen next

def convert (first : Matcher α) (f : α → Except Fault β) : Matcher β := fun position ↦
  (first position).andThen fun value stop ↦ .ofExcept (f value) stop

/-- The first of the alternatives that does not fail; each starts over from the same position. -/
def firstOf : (count : Nat) → (Fin count → Matcher α) → Matcher α
  | 0, _, _ => .failed
  | count + 1, alternatives, position =>
    (alternatives 0 position).orElse fun _ ↦
      firstOf count (fun index ↦ alternatives index.succ) position

def keepRight (first : Matcher α) (second : Matcher β) : Matcher β := fun position ↦
  (first position).andThen fun _ middle ↦ second middle

def keepLeft (first : Matcher α) (second : Matcher β) : Matcher α := fun position ↦
  (first position).andThen fun value middle ↦
    (second middle).andThen fun _ stop ↦ .succeeded value stop

def pair (first : Matcher α) (second : Matcher β) : Matcher (α × β) := fun position ↦
  (first position).andThen fun left middle ↦
    (second middle).andThen fun right stop ↦ .succeeded (left, right) stop

def between (opening : Matcher α) (inner : Matcher β) (closing : Matcher γ) : Matcher β :=
  fun position ↦
    (opening position).andThen fun _ start ↦
      (inner start).andThen fun value stop ↦
        (closing stop).andThen fun _ past ↦ .succeeded value past

/-- One more value in front of the rest, or the end of the repetition. -/
def round (inner : Matcher α) (rest : Matcher (List α)) : Matcher (List α) := fun position ↦
  (inner position).branch
    (fun value next ↦ (rest next).andThen fun values stop ↦ .succeeded (value :: values) stop)
    fun _ ↦ .succeeded [] position

/-- The values of round after round, until the first failure. -/
def rounds (inner : Matcher α) : Nat → Matcher (List α)
  | 0 => round inner fun _ ↦ .endless
  | count + 1 => round inner (rounds inner count)

def many (text : Text) (inner : Matcher α) : Matcher (List α) := fun position ↦
  rounds inner (text.remaining position) position

def many1 (text : Text) (inner : Matcher α) : Matcher (List α) := fun position ↦
  (inner position).andThen fun head next ↦
    (many text inner next).andThen fun tail stop ↦ .succeeded (head :: tail) stop

/-- One operator with its term, folded into the accumulator, and then the rest. An incomplete pair
ends the chain, and what it consumed is given back. -/
def link (term : Matcher α) (operator : Matcher (α → α → Except Fault α)) (accumulator : α)
    (rest : α → Matcher α) : Matcher α := fun position ↦
  (operator position).branch
    (fun combine next ↦ (term next).branch
      (fun operand stop ↦ (Run.ofExcept (combine accumulator operand) stop).andThen rest)
      fun _ ↦ .succeeded accumulator position)
    fun _ ↦ .succeeded accumulator position

/-- Folds operators with their terms into the accumulator, until one is missing. -/
def links (term : Matcher α) (operator : Matcher (α → α → Except Fault α)) : Nat → α → Matcher α
  | 0, accumulator => link term operator accumulator fun _ _ ↦ .endless
  | count + 1, accumulator => link term operator accumulator (links term operator count)

def chainLeft (text : Text) (term : Matcher α) (operator : Matcher (α → α → Except Fault α)) :
    Matcher α := fun position ↦
  (term position).andThen fun first next ↦
    links term operator (text.remaining next) first next

/-- Records a completed run of the matcher under a tag. -/
def trace (tag : String) (inner : Matcher α) : Matcher α := fun position ↦
  (inner position).marked (fun stop ↦ .ran tag position (some stop)) (.ran tag position none)

/-- A step of a sequence and what follows it. A step that fails or raises a fault closes the
sequence. -/
def step (label : Option String) (first : Matcher α) (next : α → Matcher β) : Matcher β :=
  fun position ↦ ((first position).closedBy (Event.forLabel .closed label)).andThen next

/-- The end of a sequence, which is finished before its value is made. -/
def finish (label : Option String) (value : Except Fault α) : Matcher α := fun position ↦
  .after (Event.forLabel .finished label) (.ofExcept value position)

/-- Records that a run of the sequence starts. -/
def sequence (label : Option String) (steps : Matcher α) : Matcher α := fun position ↦
  .after (Event.forLabel .started label) (steps position)

/-- The matchers of rules that refer to each other, up to a depth of nested entries. -/
def resolve (rules : (κ → Matcher ρ) → κ → Matcher ρ) : Nat → κ → Matcher ρ
  | 0, _, _ => .endless
  | depth + 1, name, position => rules (resolve rules depth) name position

/-- A rule that refers to itself. -/
def recursive (text : Text) (rule : (Unit → Matcher ρ) → Matcher ρ) : Matcher ρ := fun position ↦
  resolve (fun inner _ ↦ rule inner) (text.remaining position + 1) () position

end Matcher

end ParserCombinators
