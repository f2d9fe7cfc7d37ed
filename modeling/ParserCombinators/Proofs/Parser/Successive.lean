import ParserCombinators.Proofs.Parser.Behaviour
import ParserCombinators.Proofs.Parser.Depth

/-!
# Run after run

A repetition runs its parser again and again, each time from where the last run stopped, and ends
at the first run that fails. If every run that succeeds ends beyond its start, then there are no
more runs than characters, so that the budget of the repetition is enough for all of them.
-/

namespace ParserCombinators

variable {ρ α β γ : Type}

namespace Run

variable {run : Run α} {next : α → Int → Run β}

theorem outcome_andThen_eq_failure :
    (run.andThen next).outcome = .failure ↔ run.outcome = .failure ∨
      ∃ value stop, run.outcome = .success value stop ∧ (next value stop).outcome = .failure := by
  obtain ⟨events, outcome⟩ := run
  cases outcome <;> simp [andThen, branch, after, failed, raised, endless]

theorem outcome_andThen_ne_failure (hrun : run.outcome ≠ .failure)
    (hnext : ∀ value stop, (next value stop).outcome ≠ .failure) :
    (run.andThen next).outcome ≠ .failure := by
  intro hfailure
  obtain hfirst | ⟨value, stop, -, hsecond⟩ := outcome_andThen_eq_failure.1 hfailure
  · exact hrun hfirst
  · exact hnext value stop hsecond

theorem outcome_branch_ne_failure {onSuccess : α → Int → Run β} {onFailure : Unit → Run β}
    (hsuccess : ∀ value stop, (onSuccess value stop).outcome ≠ .failure)
    (hfailure : (onFailure ()).outcome ≠ .failure) :
    (run.branch onSuccess onFailure).outcome ≠ .failure := by
  obtain ⟨events, outcome⟩ := run
  cases outcome with
  | success value stop => exact hsuccess value stop
  | failure => exact hfailure
  | raised | endless => exact nofun

theorem outcome_ofExcept_ne_failure (result : Except Fault α) (position : Int) :
    (ofExcept result position).outcome ≠ .failure := by
  cases result <;> exact nofun

theorem outcome_ofExcept_eq_success {result : Except Fault α} {position stop : Int} {value : α} :
    (ofExcept result position).outcome = .success value stop ↔
      result = .ok value ∧ position = stop := by
  cases result <;> simp [ofExcept, succeeded, raised]

end Run

namespace Matcher

variable {inner inner' : Matcher α} {text : Text} {low position stop : Int} {values : List α}

/-- Every run that succeeds ends beyond its start. -/
def Advances (inner : Matcher α) : Prop :=
  ∀ start value stop, (inner start).outcome = .success value stop → start < stop

/-- The values of run after run, each from where the last one stopped, up to the first failure. -/
inductive Exhausts (inner : Matcher α) : Int → List α → Int → Prop
  | fails {position : Int} : (inner position).outcome = .failure →
      Exhausts inner position [] position
  | succeeds {position middle stop : Int} {value : α} {values : List α} :
      (inner position).outcome = .success value middle → Exhausts inner middle values stop →
      Exhausts inner position (value :: values) stop

/-- Only what happens from the first position on is looked at. -/
theorem Exhausts.congr
    (hsame : ∀ start, low ≤ start → (inner start).outcome = (inner' start).outcome)
    (hpasses : ∀ start, low ≤ start → ∀ value stop, (inner start).outcome = .success value stop →
      start ≤ stop)
    (hposition : low ≤ position) (hvalues : inner.Exhausts position values stop) :
    inner'.Exhausts position values stop := by
  induction hvalues with
  | fails hfailure => exact .fails ((hsame _ hposition).symm.trans hfailure)
  | succeeds hvalue _ ih =>
    have hmiddle := Int.le_trans hposition (hpasses _ hposition _ _ hvalue)
    exact .succeeds ((hsame _ hposition).symm.trans hvalue) (ih hmiddle)

/-! ## The rounds of a repetition -/

theorem outcome_round_ne_failure {rest : Matcher (List α)}
    (hrest : ∀ stop, (rest stop).outcome ≠ .failure) :
    (round inner rest position).outcome ≠ .failure :=
  Run.outcome_branch_ne_failure
    (fun _ stop ↦ Run.outcome_andThen_ne_failure (hrest stop) fun _ _ ↦ nofun) nofun

theorem outcome_rounds_ne_failure (count : Nat) :
    (rounds inner count position).outcome ≠ .failure := by
  induction count generalizing position with
  | zero => exact outcome_round_ne_failure fun _ ↦ nofun
  | succ count ih => exact outcome_round_ne_failure fun _ ↦ ih

theorem exhausts_of_round {rest : Matcher (List α)}
    (hrest : ∀ middle values, (rest middle).outcome = .success values stop →
      inner.Exhausts middle values stop)
    (hround : (round inner rest position).outcome = .success values stop) :
    inner.Exhausts position values stop := by
  rw [round, Run.outcome_branch_eq_success] at hround
  obtain ⟨value, middle, hvalue, hafter⟩ | ⟨hfailure, hdone⟩ := hround
  · obtain ⟨tail, late, htail, hdone⟩ := Run.outcome_andThen_eq_success.1 hafter
    obtain ⟨rfl, rfl⟩ := Outcome.success.inj hdone
    exact .succeeds hvalue (hrest middle tail htail)
  · obtain ⟨rfl, rfl⟩ := Outcome.success.inj hdone
    exact .fails hfailure

theorem exhausts_of_rounds {count : Nat}
    (hrounds : (rounds inner count position).outcome = .success values stop) :
    inner.Exhausts position values stop := by
  induction count generalizing position values with
  | zero =>
    refine exhausts_of_round (fun _ _ hendless ↦ ?_) hrounds
    cases hendless
  | succ count ih => exact exhausts_of_round (fun _ _ ↦ ih) hrounds

theorem Exhausts.rounds {count : Nat} (hcount : values.length ≤ count)
    (hvalues : inner.Exhausts position values stop) :
    (rounds inner count position).outcome = .success values stop := by
  induction hvalues generalizing count with
  | fails hfailure => cases count <;> exact Run.outcome_branch_of_failure hfailure
  | succeeds hvalue _ ih =>
    obtain ⟨count, rfl⟩ : ∃ rest, count = rest + 1 := ⟨count - 1, by
      rw [List.length_cons] at hcount
      omega⟩
    have hrest := ih (Nat.le_of_succ_le_succ hcount)
    exact (Run.outcome_branch_of_success hvalue).trans (Run.outcome_branch_of_success hrest)

/-- Every run consumes a character of its own. -/
theorem Exhausts.length_le
    (hpasses : ∀ start, low ≤ start → ∀ value stop, (inner start).outcome = .success value stop →
      text.Passes true start stop)
    (hposition : low ≤ position) (hvalues : inner.Exhausts position values stop) :
    values.length ≤ text.remaining position := by
  induction hvalues with
  | fails => exact Nat.zero_le _
  | succeeds hvalue _ ih =>
    have hmiddle := hpasses _ hposition _ _ hvalue
    exact Nat.lt_of_le_of_lt (ih (Int.le_trans hposition hmiddle.le)) hmiddle.remaining_lt

end Matcher

/-! ## Repetitions of parsers -/

namespace Cells

variable {cells : Cells ρ} {parser : Parser Cell ρ α} {text : Text} {start position stop : Int}
  {value : α} {values : List α}

theorem reaches_of_runAt (hrun : (cells.runAt parser text position).outcome = .success value stop) :
    text.Reaches position stop := by
  let c := Comparison.self text position (fun _ ↦ True) (fun _ ↦ False) False
  have hstrict : c.IsStrict := ⟨fun _ ↦ trivial, fun _ ↦ id, id⟩
  exact (hstrict.runAt_other cells parser).2.reaches value stop hrun

/-- What the parser does in a run from `start` on. -/
theorem Supports.passes_of_advances (hparser : cells.Supports parser)
    (hadvances : Matcher.Advances (cells.runAt parser text)) (hposition : start ≤ position)
    (hrun : (parser.matcher text (cells.level text (cells.depth text start)) position).outcome =
      .success value stop) : text.Passes true position stop := by
  rw [hparser.outcome_eq hposition] at hrun
  exact ⟨reaches_of_runAt hrun, fun _ ↦ hadvances _ _ _ hrun⟩

/-- The values of a repetition are those of all runs up to the first that fails. -/
theorem Supports.runAt_many_eq_success (hparser : cells.Supports parser)
    (hadvances : Matcher.Advances (cells.runAt parser text)) :
    (cells.runAt parser.many text position).outcome = .success values stop ↔
      Matcher.Exhausts (cells.runAt parser text) position values stop := by
  -- The rounds all have the depth of the whole run, and each of the runs by itself has its own.
  have hle : position ≤ position := Int.le_refl position
  constructor
  · intro hrun
    exact (Matcher.exhausts_of_rounds hrun).congr (fun _ hstart ↦ hparser.outcome_eq hstart)
      (fun _ hstart _ _ hvalue ↦ (hparser.passes_of_advances hadvances hstart hvalue).le) hle
  · intro hvalues
    have hpart : (parser.matcher text (cells.level text (cells.depth text position))).Exhausts
        position values stop :=
      hvalues.congr (fun _ hstart ↦ (hparser.outcome_eq hstart).symm)
        (fun start _ value stop hvalue ↦ Int.le_of_lt (hadvances start value stop hvalue)) hle
    refine hpart.rounds (hpart.length_le (fun _ hstart _ _ ↦ ?_) hle)
    exact hparser.passes_of_advances hadvances hstart

/-- A repetition ends if its parser does. -/
theorem Supports.ends_many (hparser : cells.Supports parser)
    (hadvances : Matcher.Advances (cells.runAt parser text))
    (hends : ∀ start, (cells.runAt parser text start).outcome ≠ .endless) :
    (cells.runAt parser.many text position).outcome ≠ .endless := by
  have hrounds : (parser.matcher text (cells.level text (cells.depth text position))).EndsFrom text
      true position := fun start hstart ↦
    ⟨hparser.outcome_eq hstart ▸ hends start,
      fun _ _ hvalue ↦ hparser.passes_of_advances hadvances hstart hvalue⟩
  exact (hrounds.rounds (Int.le_refl position) (Nat.le_refl _)).ends

/-! ## Repetitions behind a first parser -/

section Following

variable {first : Parser Cell ρ β} {f : β → List α → Except Fault γ} {result : γ}

theorem Supports.many (hparser : cells.Supports parser) : cells.Supports parser.many :=
  ⟨hparser.isClosed, hparser.holds⟩

/-- A repetition never fails, so only the first parser can. -/
theorem outcome_bind_many_eq_failure :
    (cells.runAt (first.bind fun head ↦ parser.many.convert (f head)) text position).outcome =
        .failure ↔ (cells.runAt first text position).outcome = .failure := by
  refine Run.outcome_andThen_eq_failure.trans (or_iff_left ?_)
  rintro ⟨head, next, -, hmany⟩
  refine Run.outcome_andThen_ne_failure (Matcher.outcome_rounds_ne_failure _) ?_ hmany
  exact fun values stop ↦ Run.outcome_ofExcept_ne_failure (f head values) stop

theorem Supports.outcome_bind_many_eq_success (hparser : cells.Supports parser)
    (hadvances : Matcher.Advances (cells.runAt parser text)) :
    (cells.runAt (first.bind fun head ↦ parser.many.convert (f head)) text position).outcome =
        .success result stop ↔
      ∃ head next values, (cells.runAt first text position).outcome = .success head next ∧
        Matcher.Exhausts (cells.runAt parser text) next values stop ∧
        f head values = .ok result := by
  have hmany {head : β} {next : Int}
      (hhead : (cells.runAt first text position).outcome = .success head next) :
      (parser.many.matcher text (cells.level text (cells.depth text position)) next).outcome =
        (cells.runAt parser.many text next).outcome :=
    hparser.many.outcome_eq (reaches_of_runAt hhead).le
  constructor
  · intro hrun
    obtain ⟨head, next, hhead, hrest⟩ := Run.outcome_andThen_eq_success.1 hrun
    obtain ⟨values, late, hvalues, hdone⟩ := Run.outcome_andThen_eq_success.1 hrest
    obtain ⟨hresult, rfl⟩ := Run.outcome_ofExcept_eq_success.1 hdone
    have hrepeated := (hmany hhead).symm.trans hvalues
    exact ⟨head, next, values, hhead, (hparser.runAt_many_eq_success hadvances).1 hrepeated,
      hresult⟩
  · rintro ⟨head, next, values, hhead, hvalues, hresult⟩
    have hrepeated := (hparser.runAt_many_eq_success hadvances).2 hvalues
    refine Run.outcome_andThen_eq_success.2 ⟨head, next, hhead, ?_⟩
    refine Run.outcome_andThen_eq_success.2 ⟨values, stop, (hmany hhead).trans hrepeated, ?_⟩
    exact Run.outcome_ofExcept_eq_success.2 ⟨hresult, rfl⟩

theorem Supports.ends_bind_many (hparser : cells.Supports parser)
    (hadvances : Matcher.Advances (cells.runAt parser text))
    (hfirst : (cells.runAt first text position).outcome ≠ .endless)
    (hends : ∀ start, (cells.runAt parser text start).outcome ≠ .endless) :
    (cells.runAt (first.bind fun head ↦ parser.many.convert (f head)) text position).outcome ≠
      .endless := by
  have hhead : (cells.runAt first text position).Ends (position ≤ ·) :=
    ⟨hfirst, fun _ _ hvalue ↦ (reaches_of_runAt hvalue).le⟩
  have hwhole : (cells.runAt (first.bind fun head ↦ parser.many.convert (f head)) text
      position).Ends fun _ ↦ True := by
    refine hhead.andThen fun head next hnext ↦ ?_
    have hmany : (cells.runAt parser.many text next).outcome ≠ .endless :=
      hparser.ends_many hadvances hends
    rw [← hparser.many.outcome_eq hnext] at hmany
    refine (Run.Ends.mk hmany fun _ _ _ ↦ trivial).andThen fun values stop _ ↦ ?_
    exact Run.ends_ofExcept _ trivial
  exact hwhole.ends

end Following

end Cells

end ParserCombinators
