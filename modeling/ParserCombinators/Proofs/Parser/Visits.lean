import Mathlib.Logic.Relation
import ParserCombinators.Proofs.Parser.Reading

/-!
# What happens in the course of a run

A run asks other parsers along the way. What is kept of that are the rules it enters, with the
positions at which it does, and the rounds of its repetitions and chains. Inside of a rule that
refers to itself, entering it again means to run it as a whole.

The account is complete: two readings of the rules that agree wherever a rule is entered lead to the
same run.
-/

namespace ParserCombinators

variable {κ ρ α β : Type}

inductive Visit (κ : Type)
  /-- The parser that forwards to the named rule is run at the position. -/
  | entry (name : κ) (position : Int)
  /-- In an entry of a recursive rule, the parser that forwards to it is run again. -/
  | reentry (outer inner : Int)
  /-- One round of a repetition, or one operator with its term in a chain. -/
  | round (start stop : Int)

/-- What is visited in an entry of a recursive rule, as it is seen from outside. -/
def Visit.seen (outer : Int) : Visit Unit → Visit κ
  | entry () inner => reentry outer inner
  | reentry outer inner => reentry outer inner
  | round start stop => round start stop

/-- The run succeeds, and the property holds of its value and its stop. -/
def Run.Succeeds (run : Run α) (property : α → Int → Prop) : Prop :=
  ∃ value stop, run.outcome = .success value stop ∧ property value stop

/-- The matcher succeeds from one position to the other. -/
def Matcher.Goes (inner : Matcher α) (start stop : Int) : Prop :=
  ∃ value, (inner start).outcome = .success value stop

/-- What is visited by round after round, each of which starts where the last one stopped. -/
def Matcher.LoopVisits (inner : Matcher α) (body : Int → Visit κ → Prop) (position : Int)
    (visit : Visit κ) : Prop :=
  ∃ start, Relation.ReflTransGen inner.Goes position start ∧
    (body start visit ∨ ∃ stop, inner.Goes start stop ∧ visit = .round start stop)

/-- Within a recursive rule, the parser that forwards to it runs it as a whole. -/
def Parser.entered {τ : Type} (text : Text) (rule : Parser Unit τ τ) : Unit → Matcher τ :=
  fun _ ↦ .recursive text (rule.matcher text)

mutual

/-- The run of the parser from the position visits what is asked for. -/
def Parser.Visits (text : Text) :
    {κ ρ α : Type} → Parser κ ρ α → (κ → Matcher ρ) → Int → Visit κ → Prop
  | _, _, _, .item, _, _, _ => False
  | _, _, _, .succeed _, _, _, _ => False
  | _, _, _, .fail, _, _, _ => False
  | _, _, _, .raise _, _, _, _ => False
  | _, _, _, .satisfy _, _, _, _ => False
  | _, _, _, .bind first next, rules, position, visit =>
    first.Visits text rules position visit ∨
      (first.matcher text rules position).Succeeds fun value middle ↦
        (next value).Visits text rules middle visit
  | _, _, _, .convert first _, rules, position, visit => first.Visits text rules position visit
  | _, _, _, .choice _ alternatives, rules, position, visit =>
    ∃ index, (∀ earlier < index,
        ((alternatives earlier).matcher text rules position).outcome = .failure) ∧
      (alternatives index).Visits text rules position visit
  | _, _, _, .keepRight first second, rules, position, visit =>
    first.Visits text rules position visit ∨
      (first.matcher text rules position).Succeeds fun _ middle ↦
        second.Visits text rules middle visit
  | _, _, _, .keepLeft first second, rules, position, visit =>
    first.Visits text rules position visit ∨
      (first.matcher text rules position).Succeeds fun _ middle ↦
        second.Visits text rules middle visit
  | _, _, _, .pair first second, rules, position, visit =>
    first.Visits text rules position visit ∨
      (first.matcher text rules position).Succeeds fun _ middle ↦
        second.Visits text rules middle visit
  | _, _, _, .between opening inner closing, rules, position, visit =>
    opening.Visits text rules position visit ∨
      (opening.matcher text rules position).Succeeds fun _ start ↦
        inner.Visits text rules start visit ∨
          (inner.matcher text rules start).Succeeds fun _ stop ↦
            closing.Visits text rules stop visit
  | _, _, _, .many inner, rules, position, visit =>
    (inner.matcher text rules).LoopVisits
      (fun start visit ↦ inner.Visits text rules start visit) position visit
  | _, _, _, .many1 inner, rules, position, visit =>
    inner.Visits text rules position visit ∨
      (inner.matcher text rules position).Succeeds fun _ next ↦
        (inner.matcher text rules).LoopVisits
          (fun start visit ↦ inner.Visits text rules start visit) next visit
  | _, _, _, .chainLeft term operator, rules, position, visit =>
    term.Visits text rules position visit ∨
      (term.matcher text rules position).Succeeds fun _ next ↦
        (Matcher.pair (operator.matcher text rules) (term.matcher text rules)).LoopVisits
          (fun start visit ↦ operator.Visits text rules start visit ∨
            (operator.matcher text rules start).Succeeds fun _ middle ↦
              term.Visits text rules middle visit) next visit
  | _, _, _, .sequence label script, rules, position, visit =>
    script.Visits text label rules position visit
  | _, _, _, .trace _ inner, rules, position, visit => inner.Visits text rules position visit
  | _, _, _, .forwarding name, _, position, visit => visit = .entry name position
  | _, _, _, .recursive rule, _, position, visit =>
    ∃ outer, Relation.ReflTransGen
        (fun outer inner ↦ rule.Visits text (rule.entered text) outer (.entry () inner))
        position outer ∧
      ∃ within, rule.Visits text (rule.entered text) outer within ∧ visit = within.seen outer

def Script.Visits (text : Text) : {κ ρ α : Type} → Script κ ρ α → Option String →
    (κ → Matcher ρ) → Int → Visit κ → Prop
  | _, _, _, .finish _, _, _, _, _ => False
  | _, _, _, .raise _, _, _, _, _ => False
  | _, _, _, .step first next, label, rules, position, visit =>
    first.Visits text rules position visit ∨
      (first.matcher text rules position).Succeeds fun value middle ↦
        (next value).Visits text label rules middle visit

end

/-! ## Runs of the same matchers -/

theorem Run.branch_congr {run : Run α} {onSuccess onSuccess' : α → Int → Run β}
    {onFailure onFailure' : Unit → Run β}
    (hsuccess : ∀ value stop, run.outcome = .success value stop →
      onSuccess' value stop = onSuccess value stop)
    (hfailure : run.outcome = .failure → onFailure' () = onFailure ()) :
    run.branch onSuccess' onFailure' = run.branch onSuccess onFailure := by
  obtain ⟨events, outcome⟩ := run
  cases outcome with
  | success value stop => exact congrArg (Run.after events) (hsuccess value stop rfl)
  | failure => exact congrArg (Run.after events) (hfailure rfl)
  | raised fault => rfl
  | endless => rfl

theorem Run.andThen_congr {run run' : Run α} {next next' : α → Int → Run β} (hrun : run' = run)
    (hnext : ∀ value stop, run.outcome = .success value stop → next' value stop = next value stop) :
    run'.andThen next' = run.andThen next := by
  subst hrun
  exact branch_congr hnext fun _ ↦ rfl

theorem Run.outcome_of_closedBy {run : Run α} {events : List Event} {value : α} {stop : Int}
    (hrun : (run.closedBy events).outcome = .success value stop) :
    run.outcome = .success value stop := by
  obtain ⟨before, _ | _ | _ | _⟩ := run <;> exact hrun

namespace Matcher

variable {inner inner' : Matcher α} {position : Int}

theorem firstOf_congr {count : Nat} {alternatives alternatives' : Fin count → Matcher α}
    (halternatives : ∀ index,
      (∀ earlier < index, (alternatives earlier position).outcome = .failure) →
        alternatives' index position = alternatives index position) :
    firstOf count alternatives' position = firstOf count alternatives position := by
  induction count with
  | zero => rfl
  | succ count ih =>
    have hfirst := halternatives 0 fun earlier hearlier ↦ absurd hearlier (Fin.not_lt_zero earlier)
    rw [firstOf, firstOf, hfirst]
    refine Run.branch_congr (fun _ _ _ ↦ rfl) fun hfailure ↦ ih fun index hindex ↦ ?_
    refine halternatives index.succ fun earlier hearlier ↦ ?_
    cases earlier using Fin.cases with
    | zero => exact hfailure
    | succ earlier => exact hindex earlier (Fin.succ_lt_succ_iff.1 hearlier)

theorem rounds_congr
    (hinner : ∀ start, Relation.ReflTransGen inner.Goes position start →
      inner' start = inner start) (count : Nat) :
    rounds inner' count position = rounds inner count position := by
  induction count generalizing position with
  | zero =>
    rw [rounds, rounds, round, round, hinner position .refl]
  | succ count ih =>
    rw [rounds, rounds, round, round, hinner position .refl]
    refine Run.branch_congr (fun value next hnext ↦ ?_) fun _ ↦ rfl
    refine Run.andThen_congr (ih fun start hstart ↦ hinner start ?_) fun _ _ _ ↦ rfl
    exact .head ⟨value, hnext⟩ hstart

theorem many_congr {text : Text}
    (hinner : ∀ start, Relation.ReflTransGen inner.Goes position start →
      inner' start = inner start) : many text inner' position = many text inner position :=
  rounds_congr hinner _

section Chains

variable {term term' : Matcher α} {operator operator' : Matcher (α → α → Except Fault α)}

theorem goes_pair {first : Matcher α} {second : Matcher β} {middle stop : Int} {value : α}
    {other : β} (hfirst : (first position).outcome = .success value middle)
    (hsecond : (second middle).outcome = .success other stop) :
    (pair first second).Goes position stop := by
  refine ⟨(value, other), (Run.outcome_branch_of_success hfirst).trans ?_⟩
  exact Run.outcome_branch_of_success hsecond

theorem link_congr {accumulator : α} {rest rest' : α → Matcher α}
    (hoperator : operator' position = operator position)
    (hterm : ∀ combine middle, (operator position).outcome = .success combine middle →
      term' middle = term middle)
    (hrest : ∀ value stop, (pair operator term).Goes position stop →
      rest' value stop = rest value stop) :
    link term' operator' accumulator rest' position =
      link term operator accumulator rest position := by
  rw [link, link, hoperator]
  refine Run.branch_congr (fun combine middle hmiddle ↦ ?_) fun _ ↦ rfl
  rw [hterm combine middle hmiddle]
  refine Run.branch_congr (fun operand stop hstop ↦ ?_) fun _ ↦ rfl
  cases combine accumulator operand with
  | ok value => exact hrest value stop (goes_pair hmiddle hstop)
  | error fault => rfl

theorem links_congr
    (hpair : ∀ start, Relation.ReflTransGen (pair operator term).Goes position start →
      operator' start = operator start ∧
        ∀ combine middle, (operator start).outcome = .success combine middle →
          term' middle = term middle)
    (count : Nat) (accumulator : α) :
    links term' operator' count accumulator position =
      links term operator count accumulator position := by
  induction count generalizing position accumulator with
  | zero =>
    obtain ⟨hoperator, hterm⟩ := hpair position .refl
    exact link_congr hoperator hterm fun _ _ _ ↦ rfl
  | succ count ih =>
    obtain ⟨hoperator, hterm⟩ := hpair position .refl
    exact link_congr hoperator hterm fun value stop hstop ↦
      ih (fun start hstart ↦ hpair start (.head hstop hstart)) value

end Chains

end Matcher

/-! ## The account is complete -/

mutual

/-- A run depends on the rules only where it enters them. -/
theorem Parser.matcher_congr (text : Text) : {κ ρ α : Type} → (parser : Parser κ ρ α) →
    {rules rules' : κ → Matcher ρ} → {position : Int} →
    (∀ name entry, parser.Visits text rules position (.entry name entry) →
      rules' name entry = rules name entry) →
    parser.matcher text rules' position = parser.matcher text rules position
  | _, _, _, .item, _, _, _, _ => rfl
  | _, _, _, .succeed _, _, _, _, _ => rfl
  | _, _, _, .fail, _, _, _, _ => rfl
  | _, _, _, .raise _, _, _, _, _ => rfl
  | _, _, _, .satisfy _, _, _, _, _ => rfl
  | _, _, _, .bind first next, _, _, _, hrules =>
    Run.andThen_congr (first.matcher_congr text fun _ _ hvisit ↦ hrules _ _ (.inl hvisit))
      fun value middle hmiddle ↦ (next value).matcher_congr text fun _ _ hvisit ↦
        hrules _ _ (.inr ⟨value, middle, hmiddle, hvisit⟩)
  | _, _, _, .convert first _, _, _, _, hrules =>
    Run.andThen_congr (first.matcher_congr text hrules) fun _ _ _ ↦ rfl
  | _, _, _, .choice _ alternatives, _, _, _, hrules =>
    Matcher.firstOf_congr fun index hindex ↦
      (alternatives index).matcher_congr text fun _ _ hvisit ↦
        hrules _ _ ⟨index, hindex, hvisit⟩
  | _, _, _, .keepRight first second, _, _, _, hrules =>
    Run.andThen_congr (first.matcher_congr text fun _ _ hvisit ↦ hrules _ _ (.inl hvisit))
      fun value middle hmiddle ↦ second.matcher_congr text fun _ _ hvisit ↦
        hrules _ _ (.inr ⟨value, middle, hmiddle, hvisit⟩)
  | _, _, _, .keepLeft first second, _, _, _, hrules =>
    Run.andThen_congr (first.matcher_congr text fun _ _ hvisit ↦ hrules _ _ (.inl hvisit))
      fun value middle hmiddle ↦ Run.andThen_congr
        (second.matcher_congr text fun _ _ hvisit ↦
          hrules _ _ (.inr ⟨value, middle, hmiddle, hvisit⟩)) fun _ _ _ ↦ rfl
  | _, _, _, .pair first second, _, _, _, hrules =>
    Run.andThen_congr (first.matcher_congr text fun _ _ hvisit ↦ hrules _ _ (.inl hvisit))
      fun value middle hmiddle ↦ Run.andThen_congr
        (second.matcher_congr text fun _ _ hvisit ↦
          hrules _ _ (.inr ⟨value, middle, hmiddle, hvisit⟩)) fun _ _ _ ↦ rfl
  | _, _, _, .between opening inner closing, _, _, _, hrules =>
    Run.andThen_congr (opening.matcher_congr text fun _ _ hvisit ↦ hrules _ _ (.inl hvisit))
      fun value start hstart ↦ Run.andThen_congr
        (inner.matcher_congr text fun _ _ hvisit ↦
          hrules _ _ (.inr ⟨value, start, hstart, .inl hvisit⟩))
        fun other stop hstop ↦ Run.andThen_congr
          (closing.matcher_congr text fun _ _ hvisit ↦
            hrules _ _ (.inr ⟨value, start, hstart, .inr ⟨other, stop, hstop, hvisit⟩⟩))
          fun _ _ _ ↦ rfl
  | _, _, _, .many inner, _, _, _, hrules =>
    Matcher.many_congr fun start hstart ↦ inner.matcher_congr text fun _ _ hvisit ↦
      hrules _ _ ⟨start, hstart, .inl hvisit⟩
  | _, _, _, .many1 inner, _, _, _, hrules =>
    Run.andThen_congr (inner.matcher_congr text fun _ _ hvisit ↦ hrules _ _ (.inl hvisit))
      fun value next hnext ↦ Run.andThen_congr
        (Matcher.many_congr fun start hstart ↦ inner.matcher_congr text fun _ _ hvisit ↦
          hrules _ _ (.inr ⟨value, next, hnext, start, hstart, .inl hvisit⟩)) fun _ _ _ ↦ rfl
  | _, _, _, .chainLeft term operator, _, _, _, hrules =>
    Run.andThen_congr (term.matcher_congr text fun _ _ hvisit ↦ hrules _ _ (.inl hvisit))
      fun value next hnext ↦ Matcher.links_congr (fun start hstart ↦
        ⟨operator.matcher_congr text fun _ _ hvisit ↦
          hrules _ _ (.inr ⟨value, next, hnext, start, hstart, .inl (.inl hvisit)⟩),
        fun combine middle hmiddle ↦ term.matcher_congr text fun _ _ hvisit ↦
          hrules _ _ (.inr ⟨value, next, hnext, start, hstart,
            .inl (.inr ⟨combine, middle, hmiddle, hvisit⟩)⟩)⟩) _ value
  | _, _, _, .sequence label script, _, _, _, hrules =>
    congrArg (Run.after _) (script.matcher_congr text label hrules)
  | _, _, _, .trace tag inner, _, _, position, hrules =>
    have hinner := inner.matcher_congr text hrules
    congrArg (·.marked (fun stop ↦ .ran tag position (some stop)) (.ran tag position none)) hinner
  | _, _, _, .forwarding name, _, _, position, hrules => hrules name position rfl
  | _, _, _, .recursive _, _, _, _, _ => rfl

theorem Script.matcher_congr (text : Text) : {κ ρ α : Type} → (script : Script κ ρ α) →
    (label : Option String) → {rules rules' : κ → Matcher ρ} → {position : Int} →
    (∀ name entry, script.Visits text label rules position (.entry name entry) →
      rules' name entry = rules name entry) →
    script.matcher text label rules' position = script.matcher text label rules position
  | _, _, _, .finish _, _, _, _, _, _ => rfl
  | _, _, _, .raise _, _, _, _, _, _ => rfl
  | _, _, _, .step first next, label, _, _, _, hrules =>
    have hfirst := first.matcher_congr text fun _ _ hvisit ↦ hrules _ _ (.inl hvisit)
    Run.andThen_congr (congrArg (Run.closedBy · _) hfirst) fun value middle hmiddle ↦
      (next value).matcher_congr text label fun _ _ hvisit ↦
        hrules _ _ (.inr ⟨value, middle, Run.outcome_of_closedBy hmiddle, hvisit⟩)

end

end ParserCombinators
