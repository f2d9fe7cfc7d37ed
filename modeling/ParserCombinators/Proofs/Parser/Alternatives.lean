import Mathlib.Data.List.Fold
import ParserCombinators.Proofs.Parser.Laws

/-!
# Alternatives as a monoid

The choice between two parsers is associative, and a parser that always fails is its unit. So a
choice among many is the choice between two taken over the list, from either end, and neither such a
unit nor a choice within the choice makes a difference. What all alternatives have in common on
their left can be put in front of the choice; then it is run only once.
-/

namespace ParserCombinators

variable {κ ρ α β : Type}

namespace Run

theorem orElse_failed (run : Run α) : (run.orElse fun _ ↦ failed) = run := run.andThen_succeeded

theorem orElse_orElse (run : Run α) (other last : Unit → Run α) :
    (run.orElse other).orElse last = run.orElse fun _ ↦ (other ()).orElse last :=
  run.branch_branch ..

/-- What comes first is run for each alternative until one succeeds, from the same place with the
same outcome. -/
theorem outcome_andThen_orElse (run : Run β) (next other : Int → Run α) :
    ((run.andThen fun _ stop ↦ next stop).orElse fun _ ↦
      run.andThen fun _ stop ↦ other stop).outcome =
        (run.andThen fun _ stop ↦ (next stop).orElse fun _ ↦ other stop).outcome := by
  obtain ⟨events, outcome⟩ := run
  cases outcome with
  | success value stop =>
    change ((after events (next stop)).orElse fun _ ↦ after events (other stop)).outcome =
      (after events ((next stop).orElse fun _ ↦ other stop)).outcome
    obtain ⟨_, _ | _ | _ | _⟩ := next stop <;> rfl
  | failure => rfl
  | raised fault => rfl
  | endless => rfl

end Run

namespace Matcher

def orElse (first second : Matcher α) : Matcher α := fun position ↦
  (first position).orElse fun _ ↦ second position

theorem orElse_assoc (first second third : Matcher α) :
    (first.orElse second).orElse third = first.orElse (second.orElse third) :=
  funext fun position ↦ (first position).orElse_orElse ..

instance : Std.Associative (orElse : Matcher α → Matcher α → Matcher α) := ⟨orElse_assoc⟩

theorem failed_orElse (other : Matcher α) : orElse (fun _ ↦ .failed) other = other := rfl

theorem orElse_failed (first : Matcher α) : (first.orElse fun _ ↦ .failed) = first :=
  funext fun position ↦ (first position).orElse_failed

/-- The first of a list of matchers that does not fail. -/
def anyOf (matchers : List (Matcher α)) : Matcher α := matchers.foldr orElse fun _ ↦ .failed

theorem anyOf_append (before behind : List (Matcher α)) :
    anyOf (before ++ behind) = (anyOf before).orElse (anyOf behind) := by
  calc anyOf (before ++ behind)
      = before.foldr orElse (anyOf behind) := List.foldr_append
    _ = before.foldr orElse (orElse (fun _ ↦ .failed) (anyOf behind)) := by rw [failed_orElse]
    _ = (anyOf before).orElse (anyOf behind) := List.foldr_assoc

end Matcher

namespace Parser

variable {text : Text} {rules : κ → Matcher ρ}

/-- The choice among the alternatives of a list, of which there has to be one. -/
def among (alternatives : List (Parser κ ρ α)) (hsome : alternatives ≠ []) : Parser κ ρ α :=
  .firstOf (alternatives.head hsome) alternatives.tail

theorem matcher_firstOf (first : Parser κ ρ α) (others : List (Parser κ ρ α)) :
    (firstOf first others).matcher text rules =
      Matcher.anyOf ((first :: others).map (·.matcher text rules)) := by
  induction others generalizing first with
  | nil => rfl
  | cons next others ih => exact congrArg (Matcher.orElse (first.matcher text rules)) (ih next)

theorem matcher_orElse (first second : Parser κ ρ α) :
    (orElse first second).matcher text rules =
      (first.matcher text rules).orElse (second.matcher text rules) :=
  (matcher_firstOf first [second]).trans
    (congrArg (Matcher.orElse (first.matcher text rules)) (Matcher.orElse_failed _))

theorem matcher_among (alternatives : List (Parser κ ρ α)) (hsome : alternatives ≠ []) :
    (among alternatives hsome).matcher text rules =
      Matcher.anyOf (alternatives.map (·.matcher text rules)) := by
  rw [among, matcher_firstOf, List.cons_head_tail]

theorem matcher_foldl_orElse (first : Parser κ ρ α) (others : List (Parser κ ρ α)) :
    (others.foldl orElse first).matcher text rules =
      Matcher.anyOf ((first :: others).map (·.matcher text rules)) := by
  induction others generalizing first with
  | nil => exact (Matcher.orElse_failed _).symm
  | cons next others ih =>
    rw [List.foldl_cons, ih, List.map_cons, matcher_orElse]
    exact Matcher.orElse_assoc ..

theorem matcher_foldr_orElse (before : List (Parser κ ρ α)) (last : Parser κ ρ α) :
    (before.foldr orElse last).matcher text rules =
      Matcher.anyOf ((before ++ [last]).map (·.matcher text rules)) := by
  induction before with
  | nil => exact (Matcher.orElse_failed _).symm
  | cons first before ih =>
    rw [List.foldr_cons, matcher_orElse, ih]
    rfl

/-- A choice among many does what the choices between two do, taken from the left or from the right,
and runs the alternatives in the same order. It makes no difference where a parser that always fails
stands among them, or that one of them is a choice itself. Only the outcome is the same where the
alternatives start alike, since what they have in common is then run once instead of for each. -/
theorem sameRuns_among (alternatives : List (Parser κ ρ α)) (hsome : alternatives ≠ []) :
    SameRuns (among alternatives hsome)
      (alternatives.tail.foldl orElse (alternatives.head hsome)) ∧
    SameRuns (among alternatives hsome)
      (alternatives.dropLast.foldr orElse (alternatives.getLast hsome)) ∧
    (∀ before behind, alternatives = before ++ behind →
      SameRuns (among (before ++ fail :: behind) (by simp)) (among alternatives hsome)) ∧
    (∀ before inner behind (hinner : inner ≠ []),
      alternatives = before ++ among inner hinner :: behind →
        SameRuns (among alternatives hsome)
          (among (before ++ (inner ++ behind)) (by simp [hinner]))) ∧
    ∀ (β : Type) (first : Parser κ ρ β) (second other : Parser κ ρ α) text
      (rules : κ → Matcher ρ) position,
      ((orElse (first.keepRight second) (first.keepRight other)).matcher text rules
          position).outcome =
        ((first.keepRight (orElse second other)).matcher text rules position).outcome := by
  refine ⟨fun text rules ↦ ?_, fun text rules ↦ ?_, ?_, ?_, ?_⟩
  · rw [matcher_among, matcher_foldl_orElse, List.cons_head_tail]
  · rw [matcher_among, matcher_foldr_orElse, List.dropLast_concat_getLast]
  · rintro before behind rfl text rules
    simp only [matcher_among, List.map_append, List.map_cons, Matcher.anyOf_append]
    rfl
  · rintro before inner behind hinner rfl text rules
    simp only [matcher_among, List.map_append, List.map_cons, Matcher.anyOf_append]
    rfl
  · intro β first second other text rules position
    rw [matcher_orElse]
    simp only [matcher, matcher_orElse]
    exact Run.outcome_andThen_orElse _ (second.matcher text rules) (other.matcher text rules)

/-- The character, with a record of the attempt. -/
def attempt (c : Char) : Parser Empty Empty Char := .trace c.toString (.satisfy (· == c))

/-- Of three alternatives the second one is chosen, and the third one is not run. A choice within
the choice and a parser that always fails do not show. -/
theorem sameRuns_among_attempts :
    (orElse (orElse (attempt 'a') (attempt 'b')) (attempt 'c')).runAt #['b'] 0 =
      ⟨[.ran "a" 0 none, .ran "b" 0 (some 1)], .success 'b' 1⟩ ∧
    (among [attempt 'a', fail, among [attempt 'b', attempt 'c'] nofun] nofun).runAt #['b'] 0 =
      ⟨[.ran "a" 0 none, .ran "b" 0 (some 1)], .success 'b' 1⟩ := by
  obtain ⟨hleft, -⟩ := sameRuns_among [attempt 'a', attempt 'b', attempt 'c'] nofun
  obtain ⟨-, -, hfail, hinner, -⟩ :=
    sameRuns_among [attempt 'a', among [attempt 'b', attempt 'c'] nofun] nofun
  have hflat := hinner [attempt 'a'] [attempt 'b', attempt 'c'] [] nofun rfl #['b'] Empty.elim
  have hshorter :=
    hfail [attempt 'a'] [among [attempt 'b', attempt 'c'] nofun] rfl #['b'] Empty.elim
  exact ⟨congrFun (hleft #['b'] Empty.elim).symm 0, congrFun (hshorter.trans hflat) 0⟩

end Parser

end ParserCombinators
