import ParserCombinators.Proofs.Parser.Laws
import ParserCombinators.Session.Building

/-!
# Sequences as bindings

A sequence asks for one parser after another, and leaves out some of them depending on the values
that it has received. It does what the bindings of its steps do, nested to the right. Beyond that it
records its start, and once it is over whether it was finished or closed. However sequences are
repeated or enter each other, these records are balanced, like brackets of two closing forms.
-/

namespace ParserCombinators

variable {κ ρ α β γ : Type}

/-- A step of a sequence, with the test that tells whether it is left out after the values received
before. -/
structure OptionalStep (κ ρ α : Type) : Type 1 where
  isSkipped : List α → Except Fault Bool
  parser : Parser κ ρ α

/-- Asks for one step after another, and is finished with all the values received. -/
def Script.ofSteps (finish : List α → Except Fault β) :
    List (OptionalStep κ ρ α) → List α → Script κ ρ β
  | [], received => .finish (finish received)
  | first :: rest, received =>
    match first.isSkipped received with
    | .ok true => ofSteps finish rest received
    | .ok false => .step first.parser fun value ↦ ofSteps finish rest (received ++ [value])
    | .error fault => .raise fault

/-- Binds one step after another, nested to the right, and ends with all the values received. -/
def Parser.nestedBind (finish : List α → Except Fault β) :
    List (OptionalStep κ ρ α) → List α → Parser κ ρ β
  | [], received => .ofExcept (finish received)
  | first :: rest, received =>
    match first.isSkipped received with
    | .ok true => nestedBind finish rest received
    | .ok false => first.parser.bind fun value ↦ nestedBind finish rest (received ++ [value])
    | .error fault => .raise fault

namespace Session

def optionalStep (step : Option Skip × AnyParser) : OptionalStep Cell Value Value where
  isSkipped received := (step.1.map (·.holds received)).getD (.ok false)
  parser := step.2

/-- The sequences of a session ask for their steps in this way. -/
theorem script_eq_ofSteps (finish : Finish) (steps : List (Option Skip × AnyParser))
    (received : List Value) :
    script finish steps received =
      .ofSteps finish.apply (steps.map optionalStep) received := by
  induction steps generalizing received with
  | nil => rfl
  | cons first rest ih =>
    obtain ⟨_ | skip, parser⟩ := first
    · simp only [script, ih, List.map_cons, Script.ofSteps, optionalStep, Option.map_none,
        Option.getD_none]
    · simp only [script, List.map_cons, Script.ofSteps, optionalStep, Option.map_some,
        Option.getD_some]
      obtain fault | _ | _ := skip.holds received
      · rfl
      · simp only [ih]
      · exact ih received

end Session

/-! ## The steps of a sequence -/

namespace Parser

variable {text : Text} {rules : κ → Matcher ρ}

theorem matcher_nestedBind (finish : List α → Except Fault β) (steps : List (OptionalStep κ ρ α))
    (received : List α) :
    (nestedBind finish steps received).matcher text rules =
      (Script.ofSteps finish steps received).matcher text none rules := by
  induction steps generalizing received with
  | nil => exact matcher_ofExcept ..
  | cons first rest ih =>
    rw [nestedBind, Script.ofSteps]
    split
    · exact ih received
    · funext position
      simp only [matcher, Script.matcher, Matcher.bind, Matcher.step, Event.forLabel,
        Option.map_none, Option.toList_none, Run.closedBy_nil, ih]
    · rfl

/-- The first steps by themselves hand the values that they have received to the others. -/
theorem matcher_nestedBind_append (finish : List α → Except Fault β)
    (before rest : List (OptionalStep κ ρ α)) (received : List α) :
    (nestedBind finish (before ++ rest) received).matcher text rules =
      .bind ((nestedBind .ok before received).matcher text rules) fun values ↦
        (nestedBind finish rest values).matcher text rules := by
  induction before generalizing received with
  | nil => rfl
  | cons first before ih =>
    rw [List.cons_append, nestedBind, nestedBind]
    split
    · exact ih received
    · simp only [matcher, Matcher.bind_assoc, ih]
    · rfl

/-- The steps behind one that fails are not asked for. -/
theorem matcher_nestedBind_of_failure {finish : List α → Except Fault β}
    {before later : List (OptionalStep κ ρ α)} {failing : OptionalStep κ ρ α}
    {position middle : Int} {events last : List Event} {received values : List α}
    (hbefore : (nestedBind .ok before received).matcher text rules position =
      ⟨events, .success values middle⟩)
    (hasked : failing.isSkipped values = .ok false)
    (hfailing : failing.parser.matcher text rules middle = ⟨last, .failure⟩) :
    (nestedBind finish (before ++ failing :: later) received).matcher text rules position =
      ⟨events ++ last, .failure⟩ := by
  have hrest : (nestedBind finish (failing :: later) values).matcher text rules middle =
      ⟨last, .failure⟩ := by
    rw [nestedBind, hasked]
    simp [Matcher.bind, hfailing, Run.andThen, Run.branch, Run.after, Run.failed]
  rw [matcher_nestedBind_append, Matcher.bind, hbefore]
  simp [Run.andThen, Run.branch, Run.after, hrest]

end Parser

/-! ## What a sequence records -/

/-- What a sequence records at its end. A fault is either that of a step, which closes the sequence,
or that of what it is finished with, or it breaks the sequence off between two steps. -/
inductive Outcome.Concludes (label : Option String) : Outcome α → List Event → Prop
  | finished {value : α} {stop : Int} :
      Concludes label (.success value stop) (Event.forLabel .finished label)
  | closed : Concludes label .failure (Event.forLabel .closed label)
  | raisedByStep {fault : Fault} : Concludes label (.raised fault) (Event.forLabel .closed label)
  | raisedByFinish {fault : Fault} :
      Concludes label (.raised fault) (Event.forLabel .finished label)
  | raisedBetween {fault : Fault} : Concludes label (.raised fault) []
  | endless : Concludes label .endless []

/-- The run records that a sequence starts and how it ends, and in between all that the bare run
does. -/
def Run.Encloses (label : Option String) (run bare : Run α) : Prop :=
  ∃ ending, bare.outcome.Concludes label ending ∧
    run = ⟨Event.forLabel .started label ++ (bare.events ++ ending), bare.outcome⟩

/-- A label adds no more than the end of the sequence to what is recorded without one. -/
theorem Script.exists_concludes (text : Text) : {κ ρ α : Type} → (script : Script κ ρ α) →
    (label : Option String) → (rules : κ → Matcher ρ) → (position : Int) →
    ∃ ending, (script.matcher text none rules position).outcome.Concludes label ending ∧
      script.matcher text label rules position =
        ⟨(script.matcher text none rules position).events ++ ending,
          (script.matcher text none rules position).outcome⟩
  | _, _, _, .finish (.ok _), label, _, _ => ⟨Event.forLabel .finished label, .finished, by
      simp [Matcher.finish, Run.ofExcept, Run.succeeded, Run.after, Event.forLabel]⟩
  | _, _, _, .finish (.error _), label, _, _ => ⟨Event.forLabel .finished label, .raisedByFinish, by
      simp [Matcher.finish, Run.ofExcept, Run.raised, Run.after, Event.forLabel]⟩
  | _, _, _, .raise _, _, _, _ => ⟨[], .raisedBetween, rfl⟩
  | _, _, _, .step first next, label, rules, position => by
    have hbare : (step first next).matcher text none rules position =
        (first.matcher text rules position).andThen fun value ↦
          (next value).matcher text none rules := by
      simp only [matcher, Matcher.step, Event.forLabel, Option.map_none, Option.toList_none,
        Run.closedBy_nil]
    rw [hbare, matcher, Matcher.step]
    obtain ⟨events, outcome⟩ := first.matcher text rules position
    cases outcome with
    | success value middle =>
      obtain ⟨ending, hending, hnext⟩ :=
        (next value).exists_concludes text label rules middle
      refine ⟨ending, hending, ?_⟩
      simp [Run.closedBy, Run.andThen, Run.branch, Run.after, hnext]
    | failure =>
      refine ⟨Event.forLabel .closed label, .closed, ?_⟩
      simp [Run.closedBy, Run.andThen, Run.branch, Run.after, Run.failed]
    | raised fault =>
      refine ⟨Event.forLabel .closed label, .raisedByStep, ?_⟩
      simp [Run.closedBy, Run.andThen, Run.branch, Run.after, Run.raised]
    | endless =>
      refine ⟨[], .endless, ?_⟩
      simp [Run.closedBy, Run.andThen, Run.branch, Run.after, Run.endless]

theorem Script.encloses (script : Script κ ρ α) (label : Option String) (text : Text)
    (rules : κ → Matcher ρ) (position : Int) :
    ((Parser.sequence label script).matcher text rules position).Encloses label
      (script.matcher text none rules position) := by
  obtain ⟨ending, hending, hscript⟩ := script.exists_concludes text label rules position
  refine ⟨ending, hending, ?_⟩
  rw [Parser.matcher, Matcher.sequence, hscript]
  rfl

theorem Run.Encloses.eq_of_failure {label : Option String} {run : Run α} {events : List Event}
    (hrun : run.Encloses label ⟨events, .failure⟩) :
    run = ⟨Event.forLabel .started label ++ (events ++ Event.forLabel .closed label),
      .failure⟩ := by
  obtain ⟨ending, hending, rfl⟩ := hrun
  cases hending
  rfl

/-! ## Balanced records -/

namespace Event

/-- Every sequence that is started is finished or closed once, and all sequences that are started in
between are over by then. -/
inductive Balanced : List Event → Prop
  | none : Balanced []
  | ran {tag : String} {start : Int} {stop : Option Int} {rest : List Event}
      (hrest : Balanced rest) : Balanced (.ran tag start stop :: rest)
  | sequence {label : String} {ending : Event} {inside rest : List Event}
      (hending : ending = .finished label ∨ ending = .closed label) (hinside : Balanced inside)
      (hrest : Balanced rest) : Balanced (.started label :: (inside ++ ending :: rest))

variable {first second inside : List Event}

theorem Balanced.append (hfirst : Balanced first) (hsecond : Balanced second) :
    Balanced (first ++ second) := by
  induction hfirst with
  | none => exact hsecond
  | ran _ ih => exact .ran ih
  | sequence hending hinside _ _ ih =>
    rw [List.cons_append, List.append_assoc, List.cons_append]
    exact .sequence hending hinside ih

/-- What is recorded in the course of a sequence, between what is recorded about it. -/
theorem balanced_forLabel {ended : String → Event} (hended : ended = .finished ∨ ended = .closed)
    (label : Option String) (hinside : Balanced inside) :
    Balanced (forLabel .started label ++ (inside ++ forLabel ended label)) := by
  cases label with
  | none => simpa [forLabel] using hinside
  | some label =>
    refine .sequence ?_ hinside .none
    exact hended.imp (congrFun · label) (congrFun · label)

end Event

namespace Run

variable {run : Run α}

/-- A run that ends without a fault leaves a balanced record. -/
def IsBalanced (run : Run α) : Prop :=
  (∀ fault, run.outcome ≠ .raised fault) → run.outcome ≠ .endless → Event.Balanced run.events

theorem isBalanced_succeeded (value : α) (position : Int) : (succeeded value position).IsBalanced :=
  fun _ _ ↦ .none

theorem isBalanced_failed : (failed : Run α).IsBalanced := fun _ _ ↦ .none

theorem isBalanced_raised (fault : Fault) : (raised fault : Run α).IsBalanced :=
  fun hraised _ ↦ absurd rfl (hraised fault)

theorem isBalanced_endless : (endless : Run α).IsBalanced := fun _ hendless ↦ absurd rfl hendless

theorem isBalanced_ofExcept (value : Except Fault α) (position : Int) :
    (ofExcept value position).IsBalanced := by
  cases value with
  | ok value => exact isBalanced_succeeded value position
  | error fault => exact isBalanced_raised fault

theorem IsBalanced.after {events : List Event} (hevents : Event.Balanced events)
    (hrun : run.IsBalanced) : (run.after events).IsBalanced :=
  fun hraised hendless ↦ hevents.append (hrun hraised hendless)

theorem IsBalanced.branch {onSuccess : α → Int → Run β} {onFailure : Unit → Run β}
    (hrun : run.IsBalanced) (hsuccess : ∀ value stop, (onSuccess value stop).IsBalanced)
    (hfailure : (onFailure ()).IsBalanced) : (run.branch onSuccess onFailure).IsBalanced := by
  obtain ⟨events, outcome⟩ := run
  cases outcome with
  | success value stop => exact (hsuccess value stop).after (hrun nofun nofun)
  | failure => exact hfailure.after (hrun nofun nofun)
  | raised fault => exact fun hraised _ ↦ absurd rfl (hraised fault)
  | endless => exact fun _ hendless ↦ absurd rfl hendless

theorem IsBalanced.andThen {next : α → Int → Run β} (hrun : run.IsBalanced)
    (hnext : ∀ value stop, (next value stop).IsBalanced) : (run.andThen next).IsBalanced :=
  hrun.branch hnext isBalanced_failed

theorem IsBalanced.marked {tag : String} {start : Int} (hrun : run.IsBalanced) :
    (run.marked (fun stop ↦ .ran tag start (some stop)) (.ran tag start none)).IsBalanced := by
  obtain ⟨events, outcome⟩ := run
  cases outcome with
  | success value stop => exact fun _ _ ↦ (hrun nofun nofun).append (.ran .none)
  | failure => exact fun _ _ ↦ (hrun nofun nofun).append (.ran .none)
  | raised fault => exact hrun
  | endless => exact hrun

theorem Encloses.isBalanced {label : Option String} {bare : Run α} (hrun : run.Encloses label bare)
    (hbare : bare.IsBalanced) : run.IsBalanced := by
  obtain ⟨ending, hending, rfl⟩ := hrun
  obtain ⟨events, outcome⟩ := bare
  cases hending with
  | finished => exact fun _ _ ↦ Event.balanced_forLabel (.inl rfl) label (hbare nofun nofun)
  | closed => exact fun _ _ ↦ Event.balanced_forLabel (.inr rfl) label (hbare nofun nofun)
  | raisedByStep | raisedByFinish | raisedBetween => exact fun hraised _ ↦ absurd rfl (hraised _)
  | endless => exact fun _ hendless ↦ absurd rfl hendless

end Run

namespace Matcher

variable {text : Text} {inner first : Matcher α} {second : Matcher β}

def IsBalanced (inner : Matcher α) : Prop := ∀ position, (inner position).IsBalanced

theorem isBalanced_item (text : Text) : (item text).IsBalanced := by
  intro position
  rw [item]
  split
  · exact Run.isBalanced_succeeded _ _
  · exact Run.isBalanced_failed

theorem isBalanced_satisfy (text : Text) (accepts : Char → Bool) :
    (satisfy text accepts).IsBalanced := by
  intro position
  rw [satisfy]
  split
  · split
    · exact Run.isBalanced_succeeded _ _
    · exact Run.isBalanced_failed
  · exact Run.isBalanced_failed

theorem IsBalanced.bind {next : α → Matcher β} (hfirst : first.IsBalanced)
    (hnext : ∀ value, (next value).IsBalanced) : (first.bind next).IsBalanced :=
  fun position ↦ (hfirst position).andThen hnext

theorem IsBalanced.convert (hfirst : first.IsBalanced) (f : α → Except Fault β) :
    (first.convert f).IsBalanced :=
  hfirst.bind fun value ↦ Run.isBalanced_ofExcept (f value)

theorem isBalanced_firstOf {count : Nat} {alternatives : Fin count → Matcher α}
    (halternatives : ∀ index, (alternatives index).IsBalanced) :
    (firstOf count alternatives).IsBalanced := by
  intro position
  induction count with
  | zero => exact Run.isBalanced_failed
  | succ count ih =>
    exact (halternatives 0 position).branch Run.isBalanced_succeeded
      (ih fun index ↦ halternatives index.succ)

theorem IsBalanced.pair (hfirst : first.IsBalanced) (hsecond : second.IsBalanced) :
    (first.pair second).IsBalanced :=
  hfirst.bind fun value ↦ hsecond.convert fun other ↦ .ok (value, other)

theorem IsBalanced.round {rest : Matcher (List α)} (hinner : inner.IsBalanced)
    (hrest : rest.IsBalanced) : (inner.round rest).IsBalanced :=
  fun position ↦ (hinner position).branch
    (fun _ next ↦ (hrest next).andThen fun _ _ ↦ Run.isBalanced_succeeded _ _)
    (Run.isBalanced_succeeded _ _)

theorem IsBalanced.many (hinner : inner.IsBalanced) : (inner.many text).IsBalanced := by
  have hrounds (count : Nat) : (inner.rounds count).IsBalanced := by
    induction count with
    | zero => exact hinner.round fun _ ↦ Run.isBalanced_endless
    | succ count ih => exact hinner.round ih
  exact fun position ↦ hrounds _ position

section Chains

variable {term : Matcher α} {operator : Matcher (α → α → Except Fault α)}

theorem IsBalanced.link {rest : α → Matcher α} (hterm : term.IsBalanced)
    (hoperator : operator.IsBalanced) (hrest : ∀ value, (rest value).IsBalanced) (accumulator : α) :
    (term.link operator accumulator rest).IsBalanced :=
  fun position ↦ (hoperator position).branch
    (fun _ middle ↦ (hterm middle).branch
      (fun _ _ ↦ (Run.isBalanced_ofExcept _ _).andThen hrest) (Run.isBalanced_succeeded _ _))
    (Run.isBalanced_succeeded _ _)

theorem IsBalanced.chainLeft (hterm : term.IsBalanced) (hoperator : operator.IsBalanced) :
    (term.chainLeft text operator).IsBalanced := by
  have hlinks (count : Nat) (accumulator : α) :
      (term.links operator count accumulator).IsBalanced := by
    induction count generalizing accumulator with
    | zero => exact hterm.link hoperator (fun _ _ ↦ Run.isBalanced_endless) accumulator
    | succ count ih => exact hterm.link hoperator ih accumulator
  exact fun position ↦ (hterm position).andThen fun accumulator stop ↦ hlinks _ accumulator stop

end Chains

/-- An entry of a rule is balanced because the entries within it are. -/
theorem isBalanced_resolve {rules : (κ → Matcher ρ) → κ → Matcher ρ}
    (hrules : ∀ inner, (∀ name, (inner name).IsBalanced) → ∀ name, (rules inner name).IsBalanced)
    (depth : Nat) (name : κ) : (resolve rules depth name).IsBalanced := by
  induction depth generalizing name with
  | zero => exact fun _ ↦ Run.isBalanced_endless
  | succ depth ih => exact hrules _ ih name

end Matcher

mutual

theorem Parser.isBalanced_matcher (text : Text) : {κ ρ α : Type} → (parser : Parser κ ρ α) →
    {rules : κ → Matcher ρ} → (∀ name, (rules name).IsBalanced) →
    (parser.matcher text rules).IsBalanced
  | _, _, _, .item, _, _ => Matcher.isBalanced_item text
  | _, _, _, .succeed value, _, _ => Run.isBalanced_succeeded value
  | _, _, _, .fail, _, _ => fun _ ↦ Run.isBalanced_failed
  | _, _, _, .raise fault, _, _ => fun _ ↦ Run.isBalanced_raised fault
  | _, _, _, .satisfy accepts, _, _ => Matcher.isBalanced_satisfy text accepts
  | _, _, _, .bind first next, _, hrules =>
    (first.isBalanced_matcher text hrules).bind fun value ↦
      (next value).isBalanced_matcher text hrules
  | _, _, _, .convert first f, _, hrules => (first.isBalanced_matcher text hrules).convert f
  | _, _, _, .choice _ alternatives, _, hrules =>
    Matcher.isBalanced_firstOf fun index ↦ (alternatives index).isBalanced_matcher text hrules
  | _, _, _, .keepRight first second, _, hrules =>
    (first.isBalanced_matcher text hrules).bind fun _ ↦ second.isBalanced_matcher text hrules
  | _, _, _, .keepLeft first second, _, hrules =>
    (first.isBalanced_matcher text hrules).bind fun value ↦
      (second.isBalanced_matcher text hrules).convert fun _ ↦ .ok value
  | _, _, _, .pair first second, _, hrules =>
    (first.isBalanced_matcher text hrules).pair (second.isBalanced_matcher text hrules)
  | _, _, _, .between opening inner closing, _, hrules =>
    (opening.isBalanced_matcher text hrules).bind fun _ ↦
      (inner.isBalanced_matcher text hrules).bind fun value ↦
        (closing.isBalanced_matcher text hrules).convert fun _ ↦ .ok value
  | _, _, _, .many inner, _, hrules => (inner.isBalanced_matcher text hrules).many
  | _, _, _, .many1 inner, _, hrules =>
    (inner.isBalanced_matcher text hrules).bind fun head ↦
      (inner.isBalanced_matcher text hrules).many.convert fun tail ↦ .ok (head :: tail)
  | _, _, _, .chainLeft term operator, _, hrules =>
    (term.isBalanced_matcher text hrules).chainLeft (operator.isBalanced_matcher text hrules)
  | _, _, _, .sequence label script, rules, hrules => fun position ↦
    (script.encloses label text rules position).isBalanced
      (script.isBalanced_matcher text hrules position)
  | _, _, _, .trace _ inner, _, hrules => fun position ↦
    (inner.isBalanced_matcher text hrules position).marked
  | _, _, _, .forwarding name, _, hrules => hrules name
  | _, _, _, .recursive rule, _, _ => fun position ↦
    Matcher.isBalanced_resolve (fun _ hinner _ ↦ rule.isBalanced_matcher text hinner) _ () position

theorem Script.isBalanced_matcher (text : Text) : {κ ρ α : Type} → (script : Script κ ρ α) →
    {rules : κ → Matcher ρ} → (∀ name, (rules name).IsBalanced) →
    (script.matcher text none rules).IsBalanced
  | _, _, _, .finish value, _, _ => Run.isBalanced_ofExcept value
  | _, _, _, .raise fault, _, _ => fun _ ↦ Run.isBalanced_raised fault
  | _, _, _, .step first next, _, hrules => fun position ↦ by
    have hfirst := first.isBalanced_matcher text hrules position
    rw [← Run.closedBy_nil (first.matcher text _ position)] at hfirst
    exact hfirst.andThen fun value ↦ (next value).isBalanced_matcher text hrules

end

namespace Cells

/-- An entry of a rule by way of its cell is balanced as well. -/
theorem isBalanced_runAt (cells : Cells ρ) (parser : Parser Cell ρ α) (text : Text) :
    Matcher.IsBalanced (cells.runAt parser text) := by
  have hentry (inner : Cell → Matcher ρ) (hinner : ∀ cell, (inner cell).IsBalanced) (cell : Cell) :
      (cells.entry text inner cell).IsBalanced := by
    unfold entry
    split
    · next rule _ => exact rule.isBalanced_matcher text hinner
    · exact fun _ ↦ Run.isBalanced_raised _
  exact fun position ↦
    parser.isBalanced_matcher text (Matcher.isBalanced_resolve hentry _) position

end Cells

/-- Without a label a sequence does what its bindings do. With one, it also records its start, and
that it was finished if it succeeds, or closed if it fails; this it does at the first step that
fails, at once. Whatever else is run before and after, or in the course of it, what is recorded by a
run that ends without a fault is balanced. -/
theorem sequence_ofSteps (finish : List α → Except Fault β)
    (steps : List (OptionalStep Cell ρ α)) :
    Parser.SameRuns (.sequence none (.ofSteps finish steps [])) (.nestedBind finish steps []) ∧
    (∀ label text (rules : Cell → Matcher ρ) position,
      Run.Encloses label
        ((Parser.sequence label (.ofSteps finish steps [])).matcher text rules position)
        ((Parser.nestedBind finish steps []).matcher text rules position)) ∧
    (∀ before failing later, steps = before ++ failing :: later →
      ∀ label text (rules : Cell → Matcher ρ) position events received middle last,
        (Parser.nestedBind .ok before []).matcher text rules position =
          ⟨events, .success received middle⟩ →
        failing.isSkipped received = .ok false →
        failing.parser.matcher text rules middle = ⟨last, .failure⟩ →
        (Parser.sequence label (.ofSteps finish steps [])).matcher text rules position =
          ⟨Event.forLabel .started label ++ (events ++ last ++ Event.forLabel .closed label),
            .failure⟩) ∧
    ∀ (cells : Cells ρ) (parser : Parser Cell ρ γ) (text : Text),
      Matcher.IsBalanced (cells.runAt parser text) := by
  have hencloses (label : Option String) (text : Text) (rules : Cell → Matcher ρ) (position : Int) :
      Run.Encloses label
        ((Parser.sequence label (.ofSteps finish steps [])).matcher text rules position)
        ((Parser.nestedBind finish steps []).matcher text rules position) := by
    rw [Parser.matcher_nestedBind]
    exact Script.encloses ..
  refine ⟨fun _ _ ↦ (Parser.matcher_nestedBind ..).symm, hencloses, ?_, Cells.isBalanced_runAt⟩
  rintro before failing later rfl label text rules position events received middle last
    hbefore hasked hfailing
  have hsequence := hencloses label text rules position
  rw [Parser.matcher_nestedBind_of_failure hbefore hasked hfailing] at hsequence
  exact hsequence.eq_of_failure

namespace Nesting

/-- Whether an `x` was received, which has nothing behind it. -/
def isBare (received : List Nat) : Except Fault Bool := .ok (received == [0])

/-- An `x` in any number of parentheses, which are counted. -/
def steps : List (OptionalStep Cell Nat Nat) :=
  [⟨fun _ ↦ .ok false, (Parser.satisfy "(x".toList.contains).map fun c ↦ if c == '(' then 1 else 0⟩,
    ⟨isBare, .forwarding ⟨0, none⟩⟩,
    ⟨isBare, (Parser.skipChar ')').map fun () ↦ 0⟩]

def total (received : List Nat) : Except Fault Nat := .ok (received.foldl (· + ·) 0)

def cells : Cells Nat := ⟨#[some (.sequence (some "nest") (.ofSteps total steps []))]⟩

/-- One sequence is repeated and enters itself. The last one, which finds no text left, is started
and closed within two others. -/
theorem sequence_ofSteps_nest :
    cells.runAt (.many (.forwarding ⟨0, none⟩)) #['(', 'x', ')', '(', '('] 0 =
        ⟨[.started "nest", .started "nest", .finished "nest", .finished "nest", .started "nest",
          .started "nest", .started "nest", .closed "nest", .closed "nest", .closed "nest"],
          .success [1] 3⟩ ∧
      Event.Balanced [.started "nest", .started "nest", .finished "nest", .finished "nest",
        .started "nest", .started "nest", .started "nest", .closed "nest", .closed "nest",
        .closed "nest"] ∧
      (Parser.sequence (some "nest") (.ofSteps total steps [])).matcher #['('] (fun _ _ ↦ .failed)
          0 = ⟨[.started "nest", .closed "nest"], .failure⟩ := by
  obtain ⟨-, -, hfailing, hbalanced⟩ := sequence_ofSteps total steps
  refine ⟨rfl, ?_, ?_⟩
  · exact hbalanced cells (.many (.forwarding ⟨0, none⟩)) #['(', 'x', ')', '(', '('] 0 nofun nofun
  · exact hfailing [steps[0]] steps[1] [steps[2]] rfl (some "nest") #['('] _ 0 [] [1] 1 []
      rfl rfl rfl

end Nesting

end ParserCombinators
