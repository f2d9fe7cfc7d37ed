import ParserCombinators.Fault

/-!
# Runs of parsers

A parser asked at a position succeeds with a value and the position after what it consumed, or fails
without a reason, so that an alternative can start over from the same place. Besides that a run can
raise a fault, and it can be endless, when a repetition or a rule comes back to where it was. Events
record what traced parsers did, in the order in which they were done.
-/

namespace ParserCombinators

inductive Event
  /-- A traced parser went from `start` to `stop`, or failed. -/
  | ran (tag : String) (start : Int) (stop : Option Int)
  | started (label : String)
  | finished (label : String)
  /-- A labelled sequence was given up because one of its steps failed or raised a fault. -/
  | closed (label : String)
  deriving DecidableEq, Repr

/-- The event for a label, if there is one. -/
def Event.forLabel (event : String → Event) (label : Option String) : List Event :=
  (label.map event).toList

inductive Outcome (α : Type)
  | success (value : α) (position : Int)
  | failure
  | raised (fault : Fault)
  | endless
  deriving DecidableEq, Repr

structure Run (α : Type) where
  events : List Event
  outcome : Outcome α
  deriving DecidableEq, Repr

namespace Run

variable {α β : Type}

def succeeded (value : α) (position : Int) : Run α := ⟨[], .success value position⟩

def failed : Run α := ⟨[], .failure⟩

def raised (fault : Fault) : Run α := ⟨[], .raised fault⟩

def endless : Run α := ⟨[], .endless⟩

/-- The value of a computation that may have met a fault. -/
def ofExcept (value : Except Fault α) (position : Int) : Run α :=
  match value with
  | .ok value => succeeded value position
  | .error fault => raised fault

/-- A run with earlier events in front. -/
def after (events : List Event) (run : Run α) : Run α := ⟨events ++ run.events, run.outcome⟩

/-- Goes on after a success and after a failure; a fault or an endless run stays. -/
def branch (run : Run α) (onSuccess : α → Int → Run β) (onFailure : Unit → Run β) : Run β :=
  match run.outcome with
  | .success value position => after run.events (onSuccess value position)
  | .failure => after run.events (onFailure ())
  | .raised fault => after run.events (raised fault)
  | .endless => after run.events endless

/-- Goes on after a success. -/
def andThen (run : Run α) (next : α → Int → Run β) : Run β := run.branch next fun _ ↦ failed

/-- Goes on after a failure. -/
def orElse (run : Run α) (other : Unit → Run α) : Run α := run.branch succeeded other

/-- A run with an event at its end that tells whether it succeeded, and where; a run that raises a
fault gets none. -/
def marked (run : Run α) (ifSucceeded : Int → Event) (ifFailed : Event) : Run α :=
  match run.outcome with
  | .success _ position => ⟨run.events ++ [ifSucceeded position], run.outcome⟩
  | .failure => ⟨run.events ++ [ifFailed], run.outcome⟩
  | _ => run

/-- A run with events at its end in case it fails or raises a fault. -/
def closedBy (run : Run α) (events : List Event) : Run α :=
  match run.outcome with
  | .failure => ⟨run.events ++ events, run.outcome⟩
  | .raised _ => ⟨run.events ++ events, run.outcome⟩
  | _ => run

@[simp]
theorem after_nil (run : Run α) : after [] run = run := rfl

@[simp]
theorem after_after (first second : List Event) (run : Run α) :
    after first (after second run) = after (first ++ second) run := by
  simp [after]

@[simp]
theorem branch_succeeded (value : α) (position : Int) (onSuccess : α → Int → Run β)
    (onFailure : Unit → Run β) :
    (succeeded value position).branch onSuccess onFailure = onSuccess value position := rfl

@[simp]
theorem branch_failed (onSuccess : α → Int → Run β) (onFailure : Unit → Run β) :
    failed.branch onSuccess onFailure = onFailure () := rfl

@[simp]
theorem branch_raised (fault : Fault) (onSuccess : α → Int → Run β) (onFailure : Unit → Run β) :
    (raised fault).branch onSuccess onFailure = raised fault := rfl

@[simp]
theorem branch_endless (onSuccess : α → Int → Run β) (onFailure : Unit → Run β) :
    endless.branch onSuccess onFailure = endless := rfl

@[simp]
theorem branch_after (events : List Event) (run : Run α) (onSuccess : α → Int → Run β)
    (onFailure : Unit → Run β) :
    (after events run).branch onSuccess onFailure =
      after events (run.branch onSuccess onFailure) := by
  rcases run with ⟨_, _ | _ | _ | _⟩ <;> simp [after, branch]

end Run

end ParserCombinators
