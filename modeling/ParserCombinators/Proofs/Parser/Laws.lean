import ParserCombinators.Parser.Cells
import ParserCombinators.Proofs.Parser.Reading

/-!
# Laws of binding

Every way to put one parser after another does what a binding of a special form does: the same
events in the same order, the same outcome, and so the same fault where one is raised. Binding itself
is associative, with `succeed` as its unit and `fail` as its zero. The laws are proved for matchers,
each written out by itself, and hold of parsers whatever the rules do that these refer to.
-/

namespace ParserCombinators

variable {κ ρ α β γ δ : Type}

theorem Run.andThen_succeeded (run : Run α) : run.andThen succeeded = run := by
  obtain ⟨events, outcome⟩ := run
  cases outcome <;> simp [andThen, branch, after, succeeded, failed, raised, endless]

namespace Matcher

theorem succeeded_bind (value : α) (next : α → Matcher β) :
    bind (Run.succeeded value) next = next value := rfl

theorem bind_succeeded (first : Matcher α) : bind first Run.succeeded = first :=
  funext fun position ↦ (first position).andThen_succeeded

theorem failed_bind (next : α → Matcher β) :
    bind (fun _ ↦ Run.failed) next = fun _ ↦ Run.failed := rfl

theorem bind_assoc (first : Matcher α) (next : α → Matcher β) (last : β → Matcher γ) :
    bind (bind first next) last = bind first fun value ↦ bind (next value) last :=
  funext fun position ↦ (first position).andThen_andThen next last

theorem convert_eq_bind (first : Matcher α) (f : α → Except Fault β) :
    convert first f = bind first fun value ↦ Run.ofExcept (f value) := rfl

theorem keepRight_eq_bind (first : Matcher α) (second : Matcher β) :
    keepRight first second = bind first fun _ ↦ second := rfl

theorem keepLeft_eq_bind (first : Matcher α) (second : Matcher β) :
    keepLeft first second = bind first fun value ↦ convert second fun _ ↦ .ok value := rfl

theorem pair_eq_bind (first : Matcher α) (second : Matcher β) :
    pair first second = bind first fun value ↦ convert second fun other ↦ .ok (value, other) := rfl

theorem between_eq_keepRight (opening : Matcher α) (inner : Matcher β) (closing : Matcher γ) :
    between opening inner closing = keepRight opening (keepLeft inner closing) := rfl

theorem keepLeft_keepRight (opening : Matcher α) (inner : Matcher β) (closing : Matcher γ) :
    keepLeft (keepRight opening inner) closing = keepRight opening (keepLeft inner closing) := by
  rw [keepLeft_eq_bind, keepRight_eq_bind, bind_assoc]
  rfl

theorem many1_eq_bind (text : Text) (inner : Matcher α) :
    many1 text inner =
      bind inner fun head ↦ convert (many text inner) fun tail ↦ .ok (head :: tail) := rfl

end Matcher

namespace Parser

/-- On every text and from every position, the two parsers do the same, whatever the rules do that
they refer to. A run has its events in order, so parts that are traced are run in the same order. -/
def SameRuns (first second : Parser κ ρ α) : Prop :=
  ∀ text (rules : κ → Matcher ρ), first.matcher text rules = second.matcher text rules

theorem SameRuns.runAt_eq {first second : Parser Cell ρ α} (hsame : first.SameRuns second)
    (cells : Cells ρ) (text : Text) (position : Int) :
    cells.runAt first text position = cells.runAt second text position := by
  rw [Cells.runAt, Cells.runAt, hsame]

/-- Succeeds with the value of a computation, or raises its fault. -/
def ofExcept : Except Fault α → Parser κ ρ α
  | .ok value => succeed value
  | .error fault => raise fault

theorem matcher_ofExcept (result : Except Fault α) (text : Text) (rules : κ → Matcher ρ) :
    (ofExcept result).matcher text rules = Run.ofExcept result := by
  cases result <;> rfl

/-- In a sequence of parsers, all positions and failures are passed on as in a binding. -/
theorem sameRuns_bind (a : Parser κ ρ α) (b : Parser κ ρ β) (c : Parser κ ρ γ)
    (f : α → Except Fault δ) (next : α → Parser κ ρ β) (last : β → Parser κ ρ γ) (value : α) :
    SameRuns (a.keepRight b) (a.bind fun _ ↦ b) ∧
    SameRuns (a.keepLeft b) (a.bind fun x ↦ b.map fun _ ↦ x) ∧
    SameRuns (a.pair b) (a.bind fun x ↦ b.map fun y ↦ (x, y)) ∧
    SameRuns (a.convert f) (a.bind fun x ↦ .ofExcept (f x)) ∧
    SameRuns (a.between b c) ((a.keepRight b).keepLeft c) ∧
    SameRuns (a.between b c) (a.keepRight (b.keepLeft c)) ∧
    SameRuns a.many1 (a.bind fun x ↦ a.many.map fun xs ↦ x :: xs) ∧
    SameRuns ((a.bind next).bind last) (a.bind fun x ↦ (next x).bind last) ∧
    SameRuns ((succeed value).bind next) (next value) ∧
    SameRuns (a.bind succeed) a ∧
    SameRuns ((fail : Parser κ ρ α).bind next) fail := by
  refine ⟨?_, ?_, ?_, ?_, ?_, ?_, ?_, ?_, ?_, ?_, ?_⟩ <;> intro text rules
  · exact Matcher.keepRight_eq_bind ..
  · exact Matcher.keepLeft_eq_bind ..
  · exact Matcher.pair_eq_bind ..
  · simp only [matcher, Matcher.convert_eq_bind, matcher_ofExcept]
  · exact (Matcher.between_eq_keepRight ..).trans (Matcher.keepLeft_keepRight ..).symm
  · exact Matcher.between_eq_keepRight ..
  · exact Matcher.many1_eq_bind ..
  · exact Matcher.bind_assoc ..
  · exact Matcher.succeeded_bind ..
  · exact Matcher.bind_succeeded ..
  · exact Matcher.failed_bind ..

end Parser

end ParserCombinators
