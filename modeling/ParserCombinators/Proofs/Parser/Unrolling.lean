import ParserCombinators.Proofs.Parser.Folding

/-!
# Repetitions unrolled

A repetition applies its parser again and again, and the first application that does not succeed
decides how the repetition ends. One application with the repetition behind it, or else nothing,
does the same as the repetition: it has the same outcome, and all events in the same order.
-/

namespace ParserCombinators

variable {ρ α : Type}

theorem Run.orElse_of_ne_failure {run : Run α} (hrun : run.outcome ≠ .failure)
    (other : Unit → Run α) : run.orElse other = run := by
  have hsame : run.orElse other = run.andThen succeeded :=
    branch_congr (fun _ _ _ ↦ rfl) fun hfailure ↦ absurd hfailure hrun
  rw [hsame, andThen_succeeded]

namespace Matcher

variable {inner inner' : Matcher α} {text : Text} {low position stop : Int} {events : List Event}
  {values : List α}

/-! ## Applications one after another -/

/-- Application after application from the position on, each from where the last one stopped. All of
them succeed, and these are their events and their values. -/
inductive Successive (inner : Matcher α) : Int → List Event → List α → Int → Prop
  | none {position : Int} : Successive inner position [] [] position
  | next {position middle stop : Int} {first events : List Event} {value : α} {values : List α} :
      inner position = ⟨first, .success value middle⟩ →
      Successive inner middle events values stop →
      Successive inner position (first ++ events) (value :: values) stop

/-- From the position on, an application that succeeds consumes something. -/
def PassesFrom (text : Text) (low : Int) (inner : Matcher α) : Prop :=
  ∀ start, low ≤ start → ∀ value stop, (inner start).outcome = .success value stop →
    text.Passes true start stop

/-- An application that succeeds for one of two parsers does the same for the other. -/
theorem Successive.congr (hpasses : inner.PassesFrom text low)
    (hsame : ∀ start, low ≤ start → ∀ value stop, (inner start).outcome = .success value stop →
      inner' start = inner start)
    (hposition : low ≤ position) (hvalues : inner.Successive position events values stop) :
    inner'.Successive position events values stop ∧ low ≤ stop := by
  induction hvalues with
  | none => exact ⟨.none, hposition⟩
  | next hfirst _ ih =>
    have hsuccess := congrArg Run.outcome hfirst
    have hmiddle := hpasses _ hposition _ _ hsuccess
    obtain ⟨hrest, hstop⟩ := ih (Int.le_trans hposition hmiddle.le)
    exact ⟨.next ((hsame _ hposition _ _ hsuccess).trans hfirst) hrest, hstop⟩

theorem Successive.length_le (hpasses : inner.PassesFrom text low) (hposition : low ≤ position)
    (hvalues : inner.Successive position events values stop) :
    values.length ≤ text.remaining position := by
  induction hvalues with
  | none => exact Nat.zero_le _
  | next hfirst _ ih =>
    have hmiddle := hpasses _ hposition _ _ (congrArg Run.outcome hfirst)
    exact Nat.lt_of_le_of_lt (ih (Int.le_trans hposition hmiddle.le)) hmiddle.remaining_lt

/-! ## A round and the repetition behind it -/

namespace PassesFrom

variable (hpasses : inner.PassesFrom text low) (hposition : low ≤ position)

include hpasses hposition

theorem round_congr {rest rest' : Matcher (List α)}
    (hrest : ∀ middle, text.Passes true position middle → rest' middle = rest middle) :
    round inner rest' position = round inner rest position := by
  refine Run.branch_congr (fun value middle hvalue ↦ ?_) fun _ ↦ rfl
  rw [hrest middle (hpasses position hposition value middle hvalue)]

/-- A budget of as many rounds as there are characters left is as good as any larger one. -/
theorem rounds_eq_round {count : Nat} (hcount : text.remaining position ≤ count) :
    rounds inner count position = round inner (many text inner) position := by
  induction count using Nat.strongRecOn generalizing position with
  | ind count ih =>
    cases count with
    | zero =>
      -- A first round that succeeded would leave fewer characters than none.
      refine hpasses.round_congr hposition fun middle hmiddle ↦ ?_
      have := hmiddle.remaining_lt
      omega
    | succ count =>
      refine hpasses.round_congr hposition fun middle hmiddle ↦ ?_
      have hfewer := hmiddle.remaining_lt
      have hlow := Int.le_trans hposition hmiddle.le
      have hrounds := ih count (Nat.lt_succ_self count) hlow (by omega)
      have hmany := ih (text.remaining middle) (by omega) hlow (Nat.le_refl _)
      exact hrounds.trans hmany.symm

theorem many_eq_round : many text inner position = round inner (many text inner) position :=
  hpasses.rounds_eq_round hposition (Nat.le_refl _)

theorem many_eq_orElse :
    many text inner position =
      (bind inner (fun head ↦ convert (many text inner) fun tail ↦ .ok (head :: tail))
        position).orElse fun _ ↦ .succeeded [] position := by
  have hcons (head : α) (middle : Int) :
      ((many text inner middle).andThen fun tail stop ↦ .succeeded (head :: tail) stop).outcome ≠
        .failure :=
    Run.outcome_andThen_ne_failure (outcome_rounds_ne_failure _) fun _ _ ↦ nofun
  rw [hpasses.many_eq_round hposition, round, bind, Run.orElse, Run.andThen, Run.branch_branch]
  refine Run.branch_congr (fun head middle _ ↦ ?_) fun _ ↦ rfl
  exact (Run.orElse_of_ne_failure (hcons head middle) _).symm

end PassesFrom

/-! ## The applications of a repetition -/

/-- How a repetition with these values ends, once an application does not succeed. -/
def lastRound (last : Run α) (values : List α) (stop : Int) : Run (List α) :=
  last.branch (fun _ _ ↦ .endless) fun _ ↦ .succeeded values stop

variable {last : Run α}

theorem lastRound_andThen_cons (value : α) :
    (lastRound last values stop).andThen (fun tail late ↦ .succeeded (value :: tail) late) =
      lastRound last (value :: values) stop :=
  Run.branch_branch ..

theorem lastRound_of_failure (hlast : last.outcome = .failure) :
    lastRound last values stop = ⟨last.events, .success values stop⟩ := by
  simp [lastRound, Run.branch, hlast, Run.after, Run.succeeded]

theorem lastRound_of_raised {fault : Fault} (hlast : last.outcome = .raised fault) :
    lastRound last values stop = ⟨last.events, .raised fault⟩ := by
  simp [lastRound, Run.branch, hlast, Run.after, Run.raised]

theorem outcome_lastRound_of_endless (hlast : last.outcome = .endless) :
    (lastRound last values stop).outcome = .endless := by
  simp [lastRound, Run.branch, hlast, Run.after, Run.endless]

theorem PassesFrom.exists_successive (hpasses : inner.PassesFrom text low)
    (hposition : low ≤ position) :
    ∃ events values stop, inner.Successive position events values stop ∧
      (∀ value next, (inner stop).outcome ≠ .success value next) ∧
      many text inner position = .after events (lastRound (inner stop) values stop) := by
  induction hremaining : text.remaining position using Nat.strongRecOn generalizing position with
  | ind remaining ih =>
    rw [hpasses.many_eq_round hposition, round]
    by_cases hsuccess : ∃ value middle, (inner position).outcome = .success value middle
    · obtain ⟨value, middle, hvalue⟩ := hsuccess
      have hmiddle := hpasses position hposition value middle hvalue
      obtain ⟨events, values, stop, hvalues, hlast, hmany⟩ := ih _
        (hremaining ▸ hmiddle.remaining_lt) (Int.le_trans hposition hmiddle.le) rfl
      have hfirst : inner position = ⟨(inner position).events, .success value middle⟩ := by
        rw [← hvalue]
      refine ⟨(inner position).events ++ events, value :: values, stop, .next hfirst hvalues,
        hlast, ?_⟩
      calc (inner position).branch
            (fun value next ↦ (many text inner next).andThen fun tail stop ↦
              .succeeded (value :: tail) stop) (fun _ ↦ .succeeded [] position)
          = .after (inner position).events ((many text inner middle).andThen fun tail stop ↦
              .succeeded (value :: tail) stop) := by rw [hfirst]; rfl
        _ = .after (inner position).events (.after events
              ((lastRound (inner stop) values stop).andThen fun tail late ↦
                .succeeded (value :: tail) late)) := by
            rw [hmany, Run.andThen, Run.branch_after]; rfl
        _ = .after ((inner position).events ++ events)
              (lastRound (inner stop) (value :: values) stop) := by
            rw [lastRound_andThen_cons, Run.after_after]
    · have hnone (value : α) (next : Int) : (inner position).outcome ≠ .success value next :=
        fun hvalue ↦ hsuccess ⟨value, next, hvalue⟩
      refine ⟨[], [], position, .none, hnone, ?_⟩
      exact Run.branch_congr (fun value next hvalue ↦ absurd hvalue (hnone value next)) fun _ ↦ rfl

theorem Exhausts.outcome_eq_failure (hvalues : inner.Exhausts position values stop) :
    (inner stop).outcome = .failure := by
  induction hvalues with
  | fails hfailure => exact hfailure
  | succeeds _ _ ih => exact ih

/-- Where a repetition stopped, its parser fails. -/
theorem outcome_keepRight_many_ne_success {value : α} :
    (keepRight (many text inner) inner position).outcome ≠ .success value stop := by
  intro hboth
  obtain ⟨values, middle, hvalues, hvalue⟩ := Run.outcome_andThen_eq_success.1 hboth
  rw [(exhausts_of_rounds hvalues).outcome_eq_failure] at hvalue
  cases hvalue

end Matcher

namespace Cells

variable {cells : Cells ρ} {parser : Parser Cell ρ α} {text : Text}

/-- Applications that all succeed consume a character each. The one after them ends the repetition:
if it fails, with all the values so far, and if it raises a fault or never ends, in the same way. -/
theorem runAt_many (cells : Cells ρ) (parser : Parser Cell ρ α) (text : Text) (position : Int)
    (hparser : cells.Supports parser) (hadvances : Matcher.Advances (cells.runAt parser text)) :
    (∃ events values stop,
      Matcher.Successive (cells.runAt parser text) position events values stop ∧
      values.length + 1 ≤ text.remaining position + 1 ∧
      ((cells.runAt parser text stop).outcome = .failure ∧
          cells.runAt parser.many text position =
            ⟨events ++ (cells.runAt parser text stop).events, .success values stop⟩ ∨
        (∃ fault, (cells.runAt parser text stop).outcome = .raised fault ∧
          cells.runAt parser.many text position =
            ⟨events ++ (cells.runAt parser text stop).events, .raised fault⟩) ∨
        (cells.runAt parser text stop).outcome = .endless ∧
          (cells.runAt parser.many text position).outcome = .endless)) ∧
    (∀ value stop,
      (cells.runAt (parser.many.keepRight parser) text position).outcome ≠ .success value stop) ∧
    cells.runAt parser.many text position =
      cells.runAt (.orElse (parser.bind fun head ↦ parser.many.map (head :: ·)) (.succeed []))
        text position := by
  let inner := parser.matcher text (cells.level text (cells.depth text position))
  have hle : position ≤ position := Int.le_refl position
  have hpasses : inner.PassesFrom text position := fun _ hstart _ _ ↦
    hparser.passes_of_advances hadvances hstart
  have hsame (start : Int) (hends : (inner start).outcome ≠ .endless) :
      cells.runAt parser text start = inner start := hparser.runAt_eq_of_ends hends
  refine ⟨?_, fun _ _ ↦ Matcher.outcome_keepRight_many_ne_success, hpasses.many_eq_orElse hle⟩
  obtain ⟨events, values, stop, hvalues, hlast, hmany⟩ := hpasses.exists_successive hle
  have hmany : cells.runAt parser.many text position =
    .after events (Matcher.lastRound (inner stop) values stop) := hmany
  obtain ⟨happlied, hstop⟩ := hvalues.congr hpasses
    (fun start _ value stop hvalue ↦ hsame start (by rw [hvalue]; exact nofun)) hle
  refine ⟨events, values, stop, happlied,
    Nat.succ_le_succ (hvalues.length_le hpasses hle), ?_⟩
  cases houtcome : (inner stop).outcome with
  | success value next => exact absurd houtcome (hlast value next)
  | failure =>
    have hrun := hsame stop (by rw [houtcome]; exact nofun)
    rw [hmany, hrun, Matcher.lastRound_of_failure houtcome]
    exact .inl ⟨houtcome, rfl⟩
  | raised fault =>
    have hrun := hsame stop (by rw [houtcome]; exact nofun)
    rw [hmany, hrun, Matcher.lastRound_of_raised houtcome]
    exact .inr (.inl ⟨fault, houtcome, rfl⟩)
  | endless =>
    rw [← hparser.outcome_eq hstop, hmany]
    exact .inr (.inr ⟨houtcome, Matcher.outcome_lastRound_of_endless houtcome⟩)

/-- The dangling operator at the end is not consumed. -/
theorem runAt_many_minus :
    Construction.nesting.cells.Supports (minus.pair nested) ∧
      Matcher.Advances (Construction.nesting.cells.runAt (minus.pair nested)
        #['-', 'x', '-', '(', 'x', ')', '-']) ∧
      (Construction.nesting.cells.runAt (minus.pair nested).many
        #['-', 'x', '-', '(', 'x', ')', '-'] 0).outcome =
          .success [(weigh, 0), (weigh, 1)] 6 := by
  have hsupports := supports_minus.pair supports_nested
  have hadvances := supports_nested.advances_pair
    (advances_minus #['-', 'x', '-', '(', 'x', ')', '-'])
  obtain ⟨-, -, hunrolled⟩ := runAt_many Construction.nesting.cells (minus.pair nested)
    #['-', 'x', '-', '(', 'x', ')', '-'] 0 hsupports hadvances
  refine ⟨hsupports, hadvances, ?_⟩
  rw [hunrolled]
  rfl

end Cells

end ParserCombinators
