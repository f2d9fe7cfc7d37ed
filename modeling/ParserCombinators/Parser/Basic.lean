import ParserCombinators.Parser.Matcher

/-!
# Parsers

A parser is kept as a description of how it was put together, so that a statement about every parser
that can be built is an induction. The type `Parser κ ρ α` is that of parsers with values in `α`
that may refer to rules named by `κ`, all with values in `ρ`. What a parser does on a text is its
matcher, given the matchers of the rules that it refers to.

A `Script` is a sequence that decides after each step how to go on, and may also break off by
itself.
-/

namespace ParserCombinators

mutual

inductive Parser : Type → Type → Type → Type 1
  | item {κ ρ : Type} : Parser κ ρ Char
  | succeed {κ ρ α : Type} (value : α) : Parser κ ρ α
  | fail {κ ρ α : Type} : Parser κ ρ α
  /-- Stands where a parser could not be built. -/
  | raise {κ ρ α : Type} (fault : Fault) : Parser κ ρ α
  | satisfy {κ ρ : Type} (accepts : Char → Bool) : Parser κ ρ Char
  | bind {κ ρ α β : Type} (first : Parser κ ρ α) (next : α → Parser κ ρ β) : Parser κ ρ β
  | convert {κ ρ α β : Type} (first : Parser κ ρ α) (f : α → Except Fault β) : Parser κ ρ β
  | choice {κ ρ α : Type} (others : Nat) (alternatives : Fin (others + 1) → Parser κ ρ α) :
      Parser κ ρ α
  | keepRight {κ ρ α β : Type} (first : Parser κ ρ α) (second : Parser κ ρ β) : Parser κ ρ β
  | keepLeft {κ ρ α β : Type} (first : Parser κ ρ α) (second : Parser κ ρ β) : Parser κ ρ α
  | pair {κ ρ α β : Type} (first : Parser κ ρ α) (second : Parser κ ρ β) : Parser κ ρ (α × β)
  | between {κ ρ α β γ : Type} (opening : Parser κ ρ α) (inner : Parser κ ρ β)
      (closing : Parser κ ρ γ) : Parser κ ρ β
  | many {κ ρ α : Type} (inner : Parser κ ρ α) : Parser κ ρ (List α)
  | many1 {κ ρ α : Type} (inner : Parser κ ρ α) : Parser κ ρ (List α)
  | chainLeft {κ ρ α : Type} (term : Parser κ ρ α)
      (operator : Parser κ ρ (α → α → Except Fault α)) : Parser κ ρ α
  | sequence {κ ρ α : Type} (label : Option String) (script : Script κ ρ α) : Parser κ ρ α
  | trace {κ ρ α : Type} (tag : String) (inner : Parser κ ρ α) : Parser κ ρ α
  /-- Does what the named rule does at the time of the run. -/
  | forwarding {κ ρ : Type} (name : κ) : Parser κ ρ ρ
  /-- A rule that refers only to itself. -/
  | recursive {κ ρ τ : Type} (rule : Parser Unit τ τ) : Parser κ ρ τ

inductive Script : Type → Type → Type → Type 1
  | finish {κ ρ α : Type} (value : Except Fault α) : Script κ ρ α
  /-- Breaks off between two steps, neither finished nor closed. -/
  | raise {κ ρ α : Type} (fault : Fault) : Script κ ρ α
  | step {κ ρ α β : Type} (first : Parser κ ρ α) (next : α → Script κ ρ β) : Script κ ρ β

end

mutual

def Parser.matcher (text : Text) : {κ ρ α : Type} → Parser κ ρ α → (κ → Matcher ρ) → Matcher α
  | _, _, _, .item, _ => .item text
  | _, _, _, .succeed value, _ => .succeeded value
  | _, _, _, .fail, _ => fun _ ↦ .failed
  | _, _, _, .raise fault, _ => fun _ ↦ .raised fault
  | _, _, _, .satisfy accepts, _ => .satisfy text accepts
  | _, _, _, .bind first next, rules =>
    .bind (first.matcher text rules) fun value ↦ (next value).matcher text rules
  | _, _, _, .convert first f, rules => .convert (first.matcher text rules) f
  | _, _, _, .choice others alternatives, rules =>
    .firstOf (others + 1) fun index ↦ (alternatives index).matcher text rules
  | _, _, _, .keepRight first second, rules =>
    .keepRight (first.matcher text rules) (second.matcher text rules)
  | _, _, _, .keepLeft first second, rules =>
    .keepLeft (first.matcher text rules) (second.matcher text rules)
  | _, _, _, .pair first second, rules =>
    .pair (first.matcher text rules) (second.matcher text rules)
  | _, _, _, .between opening inner closing, rules =>
    .between (opening.matcher text rules) (inner.matcher text rules) (closing.matcher text rules)
  | _, _, _, .many inner, rules => .many text (inner.matcher text rules)
  | _, _, _, .many1 inner, rules => .many1 text (inner.matcher text rules)
  | _, _, _, .chainLeft term operator, rules =>
    .chainLeft text (term.matcher text rules) (operator.matcher text rules)
  | _, _, _, .sequence label script, rules => .sequence label (script.matcher text label rules)
  | _, _, _, .trace tag inner, rules => .trace tag (inner.matcher text rules)
  | _, _, _, .forwarding name, rules => rules name
  | _, _, _, .recursive rule, _ => .recursive text (rule.matcher text)

def Script.matcher (text : Text) :
    {κ ρ α : Type} → Script κ ρ α → Option String → (κ → Matcher ρ) → Matcher α
  | _, _, _, .finish value, label, _ => .finish label value
  | _, _, _, .raise fault, _, _ => fun _ ↦ .raised fault
  | _, _, _, .step first next, label, rules =>
    .step label (first.matcher text rules) fun value ↦ (next value).matcher text label rules

end

namespace Parser

variable {κ ρ α β : Type}

/-- A conversion that never raises a fault. -/
def map (f : α → β) (inner : Parser κ ρ α) : Parser κ ρ β :=
  .convert inner fun value ↦ .ok (f value)

def firstOf (first : Parser κ ρ α) (others : List (Parser κ ρ α)) : Parser κ ρ α :=
  .choice others.length fun index ↦ (first :: others).get index

def orElse (first second : Parser κ ρ α) : Parser κ ρ α := firstOf first [second]

/-- The run of a parser that refers to no rules, from a position of the text. -/
def runAt (parser : Parser Empty Empty α) (text : Text) (position : Int) : Run α :=
  parser.matcher text Empty.elim position

def run (parser : Parser Empty Empty α) (text : Text) : Run α := parser.runAt text 0

end Parser

end ParserCombinators
