import ParserCombinators.Proofs.Parser.Choosing
import ParserCombinators.Proofs.Parser.Positions
import ParserCombinators.Proofs.Parser.Visits

/-!
# Runs that end

A run ends unless a repetition comes back to where it was or a rule enters itself without end. Both
are ruled out step by step: what is repeated consumes something, and a rule enters itself only
behind an opening bracket that it has read. What a parser does is stated from a position on, so that
the statements go together as parsers do.
-/

namespace ParserCombinators

variable {κ ρ α β γ : Type}

/-! ## Positions -/

namespace Text

variable {text : Text} {marks : Char → Bool} {start middle stop : Int} {strictly also : Bool}

/-- A run from `start` can stop at `stop`; strictly, if something has to be consumed. -/
def Passes (text : Text) (strictly : Bool) (start stop : Int) : Prop :=
  text.Reaches start stop ∧ (strictly = true → start < stop)

theorem Passes.le (hpasses : text.Passes strictly start stop) : start ≤ stop := hpasses.1.le

theorem Passes.lt (hpasses : text.Passes true start stop) : start < stop := hpasses.2 rfl

theorem passes_refl (text : Text) (start : Int) : text.Passes false start start :=
  ⟨.refl, nofun⟩

theorem passes_succ {c : Char} (hc : text.charAt? start = some c) :
    text.Passes true start (start + 1) :=
  ⟨reaches_succ hc, fun _ ↦ by omega⟩

theorem Passes.trans (hfirst : text.Passes strictly start middle)
    (hsecond : text.Passes also middle stop) : text.Passes (strictly || also) start stop := by
  refine ⟨hfirst.1.trans hsecond.1, fun hstrictly ↦ ?_⟩
  have hle := hfirst.le
  have hle' := hsecond.le
  obtain rfl | rfl := Bool.or_eq_true_iff.1 hstrictly
  · exact Int.lt_of_lt_of_le hfirst.lt hle'
  · exact Int.lt_of_le_of_lt hle hsecond.lt

theorem Passes.weaken (hpasses : text.Passes strictly start stop) :
    text.Passes false start stop :=
  ⟨hpasses.1, nofun⟩

/-- Fewer characters remain after something was consumed. -/
theorem Passes.remaining_lt (hpasses : text.Passes true start stop) :
    text.remaining stop < text.remaining start := by
  obtain ⟨hreaches, hlt⟩ := hpasses
  have := hlt rfl
  unfold Reaches at hreaches
  unfold remaining
  omega

/-- A character of the kind stands at `start` or after it, but before `stop`. -/
def HasBetween (text : Text) (marks : Char → Bool) (start stop : Int) : Prop :=
  ∃ place c, text.charAt? place = some c ∧ marks c = true ∧ start ≤ place ∧ place < stop

theorem HasBetween.lt (hbetween : text.HasBetween marks start stop) : start < stop := by
  obtain ⟨place, c, -, -, hstart, hstop⟩ := hbetween
  omega

theorem HasBetween.mono {earlier later : Int} (hbetween : text.HasBetween marks start stop)
    (hstart : earlier ≤ start) (hstop : stop ≤ later) : text.HasBetween marks earlier later := by
  obtain ⟨place, c, hc, hmarks, hplace, hplace'⟩ := hbetween
  exact ⟨place, c, hc, hmarks, by omega, by omega⟩

theorem HasBetween.remaining_lt (hbetween : text.HasBetween marks start stop) :
    text.remaining stop < text.remaining start := by
  obtain ⟨place, c, hc, -, hstart, hstop⟩ := hbetween
  have := lt_size_of_charAt? hc
  unfold remaining
  omega

end Text

/-! ## Runs -/

/-- The run is not endless, and if it succeeds, it stops as expected. -/
structure Run.Ends (run : Run α) (expects : Int → Prop) : Prop where
  ends : run.outcome ≠ .endless
  stops : ∀ value stop, run.outcome = .success value stop → expects stop

namespace Run

variable {run : Run α} {expects expects' : Int → Prop} {value : α} {stop : Int}

theorem ends_succeeded (hstop : expects stop) : (succeeded value stop).Ends expects := by
  refine ⟨nofun, fun other stop' hother ↦ ?_⟩
  obtain ⟨-, rfl⟩ := Outcome.success.inj hother
  exact hstop

theorem ends_failed : (failed : Run α).Ends expects := ⟨nofun, nofun⟩

theorem ends_raised (fault : Fault) : (raised fault : Run α).Ends expects := ⟨nofun, nofun⟩

theorem ends_ofExcept (result : Except Fault α) (hstop : expects stop) :
    (ofExcept result stop).Ends expects := by
  cases result with
  | ok value => exact ends_succeeded hstop
  | error fault => exact ends_raised fault

theorem Ends.imp (hrun : run.Ends expects) (himp : ∀ stop, expects stop → expects' stop) :
    run.Ends expects' :=
  ⟨hrun.ends, fun value stop hstop ↦ himp stop (hrun.stops value stop hstop)⟩

theorem Ends.branch {onSuccess : α → Int → Run β} {onFailure : Unit → Run β}
    (hrun : run.Ends expects) (hsuccess : ∀ value stop, expects stop →
      (onSuccess value stop).Ends expects') (hfailure : (onFailure ()).Ends expects') :
    (run.branch onSuccess onFailure).Ends expects' := by
  obtain ⟨events, outcome⟩ := run
  cases outcome with
  | success value stop =>
    obtain ⟨hends, hstops⟩ := hsuccess value stop (hrun.stops value stop rfl)
    exact ⟨hends, hstops⟩
  | failure => exact ⟨hfailure.ends, hfailure.stops⟩
  | raised fault => exact ⟨nofun, nofun⟩
  | endless => exact absurd rfl hrun.ends

theorem Ends.andThen {next : α → Int → Run β} (hrun : run.Ends expects)
    (hnext : ∀ value stop, expects stop → (next value stop).Ends expects') :
    (run.andThen next).Ends expects' :=
  hrun.branch hnext ends_failed

end Run

theorem Matcher.ends_firstOf {count : Nat} {alternatives : Fin count → Matcher α} {start : Int}
    {expects : Int → Prop} (halternatives : ∀ index, (alternatives index start).Ends expects) :
    (firstOf count alternatives start).Ends expects := by
  induction count with
  | zero => exact Run.ends_failed
  | succ count ih =>
    rw [firstOf]
    exact (halternatives 0).branch (fun _ _ ↦ Run.ends_succeeded)
      (ih fun index ↦ halternatives index.succ)

/-! ## Loops -/

namespace Matcher

variable {text : Text} {low position start : Int} {strictly : Bool}

/-- From a position on, every run ends and passes on in the text. -/
def EndsFrom (text : Text) (strictly : Bool) (low : Int) (inner : Matcher α) : Prop :=
  ∀ start, low ≤ start → (inner start).Ends (text.Passes strictly start)

variable {inner : Matcher α}

theorem EndsFrom.reaches (hinner : inner.EndsFrom text strictly low) (hposition : low ≤ position)
    (hloop : Relation.ReflTransGen inner.Goes position start) :
    text.Passes false position start := by
  induction hloop with
  | refl => exact text.passes_refl position
  | tail _ hgoes ih =>
    obtain ⟨value, hvalue⟩ := hgoes
    have hlast := (hinner _ (Int.le_trans hposition ih.le)).stops value _ hvalue
    exact ⟨ih.1.trans hlast.1, nofun⟩

theorem EndsFrom.round (hinner : inner.EndsFrom text true low) (hposition : low ≤ position)
    {rest : Matcher (List α)} (hrest : ∀ stop, text.Passes true position stop →
      (rest stop).Ends (text.Passes false stop)) :
    (round inner rest position).Ends (text.Passes false position) := by
  refine (hinner position hposition).branch (fun value stop hstop ↦ ?_)
    (Run.ends_succeeded (text.passes_refl position))
  refine (hrest stop hstop).andThen fun values late hlate ↦ ?_
  exact Run.ends_succeeded (hstop.weaken.trans hlate)

/-- The budget of a repetition suffices: every round leaves fewer characters. -/
theorem EndsFrom.rounds (hinner : inner.EndsFrom text true low) (hposition : low ≤ position)
    {count : Nat} (hcount : text.remaining position ≤ count) :
    (rounds inner count position).Ends (text.Passes false position) := by
  induction count generalizing position with
  | zero => exact hinner.round hposition fun stop hstop ↦ absurd hstop.remaining_lt (by omega)
  | succ count ih =>
    refine hinner.round hposition fun stop hstop ↦ ?_
    have hfewer := hstop.remaining_lt
    exact ih (Int.le_trans hposition hstop.le) (by omega)

section Chains

variable {operator : Matcher (α → α → Except Fault α)}

theorem EndsFrom.link (hterm : inner.EndsFrom text strictly low)
    (hoperator : operator.EndsFrom text true low) (hposition : low ≤ position) (accumulator : α)
    {rest : α → Matcher α} (hrest : ∀ value stop, text.Passes true position stop →
      (rest value stop).Ends (text.Passes false stop)) :
    (link inner operator accumulator rest position).Ends (text.Passes false position) := by
  have hdone : (Run.succeeded accumulator position).Ends (text.Passes false position) :=
    Run.ends_succeeded (text.passes_refl position)
  refine (hoperator position hposition).branch (fun combine middle hmiddle ↦ ?_) hdone
  refine (hterm middle (Int.le_trans hposition hmiddle.le)).branch (fun operand stop hstop ↦ ?_) hdone
  have hpair : text.Passes true position stop := hmiddle.trans hstop
  refine (Run.ends_ofExcept _ hpair).andThen fun value late hlate ↦ ?_
  exact (hrest value late hlate).imp fun last hlast ↦ hlate.weaken.trans hlast

theorem EndsFrom.links (hterm : inner.EndsFrom text strictly low)
    (hoperator : operator.EndsFrom text true low) (hposition : low ≤ position) (accumulator : α)
    {count : Nat} (hcount : text.remaining position ≤ count) :
    (links inner operator count accumulator position).Ends (text.Passes false position) := by
  induction count generalizing position accumulator with
  | zero =>
    refine hterm.link hoperator hposition accumulator fun _ stop hstop ↦ ?_
    exact absurd hstop.remaining_lt (by omega)
  | succ count ih =>
    refine hterm.link hoperator hposition accumulator fun value stop hstop ↦ ?_
    have hfewer := hstop.remaining_lt
    exact ih (Int.le_trans hposition hstop.le) value (by omega)

end Chains

end Matcher

/-! ## What parsers do -/

/-- A text with the rules on it. Rules may be entered only behind an opening bracket that stands at
the origin or after it. -/
structure Surroundings (κ ρ : Type) where
  text : Text
  rules : κ → Matcher ρ
  opens : Char → Bool
  origin : Int

/-- Rounds consume something, and rules are entered behind opening brackets. -/
def Visit.IsGuarded (text : Text) (opens : Char → Bool) (origin : Int) : Visit κ → Prop
  | entry _ position => text.HasBetween opens origin position
  | reentry outer inner => text.HasBetween opens outer inner
  | round start stop => start < stop

/-- The run from a position ends as expected, and all its visits are guarded. -/
structure Parser.Behaves (s : Surroundings κ ρ) (parser : Parser κ ρ α) (start : Int)
    (expects : Int → Prop) : Prop where
  ends : (parser.matcher s.text s.rules start).Ends expects
  guarded : ∀ visit, parser.Visits s.text s.rules start visit →
    visit.IsGuarded s.text s.opens s.origin

namespace Parser

variable {s : Surroundings κ ρ} {first : Parser κ ρ α} {second : Parser κ ρ β}
  {third : Parser κ ρ γ} {start : Int} {expects expects' expects'' : Int → Prop}

theorem Behaves.imp (hfirst : first.Behaves s start expects)
    (himp : ∀ stop, expects stop → expects' stop) : first.Behaves s start expects' :=
  ⟨hfirst.ends.imp himp, hfirst.guarded⟩

theorem behaves_succeed (value : α) (hstart : expects start) :
    (succeed value : Parser κ ρ α).Behaves s start expects :=
  ⟨Run.ends_succeeded hstart, nofun⟩

theorem behaves_satisfy (s : Surroundings κ ρ) (accepts : Char → Bool) (start : Int) :
    (satisfy accepts : Parser κ ρ Char).Behaves s start fun stop ↦
      s.text.Passes true start stop ∧
        ∃ c, s.text.charAt? start = some c ∧ accepts c = true := by
  refine ⟨?_, nofun⟩
  rw [matcher, Matcher.satisfy]
  cases hc : s.text.charAt? start with
  | none => exact Run.ends_failed
  | some c =>
    dsimp only
    split
    case isTrue haccepts => exact Run.ends_succeeded ⟨Text.passes_succ hc, c, rfl, haccepts⟩
    case isFalse => exact Run.ends_failed

theorem Behaves.bind {next : α → Parser κ ρ β} (hfirst : first.Behaves s start expects)
    (hnext : ∀ value middle, expects middle → (next value).Behaves s middle expects') :
    (bind first next).Behaves s start expects' := by
  refine ⟨hfirst.ends.andThen fun value middle hmiddle ↦ (hnext value middle hmiddle).ends, ?_⟩
  rintro visit (hvisit | ⟨value, middle, hmiddle, hvisit⟩)
  · exact hfirst.guarded visit hvisit
  · exact (hnext value middle (hfirst.ends.stops value middle hmiddle)).guarded visit hvisit

theorem Behaves.convert (hfirst : first.Behaves s start expects) (f : α → Except Fault β) :
    (convert first f).Behaves s start expects :=
  ⟨hfirst.ends.andThen fun _ _ hstop ↦ Run.ends_ofExcept _ hstop, hfirst.guarded⟩

theorem Behaves.map (hfirst : first.Behaves s start expects) (f : α → β) :
    (map f first).Behaves s start expects :=
  hfirst.convert _

theorem behaves_choice {others : Nat} {alternatives : Fin (others + 1) → Parser κ ρ α}
    (halternatives : ∀ index, (alternatives index).Behaves s start expects) :
    (choice others alternatives).Behaves s start expects := by
  refine ⟨Matcher.ends_firstOf fun index ↦ (halternatives index).ends, ?_⟩
  rintro visit ⟨index, -, hvisit⟩
  exact (halternatives index).guarded visit hvisit

theorem behaves_firstOf {others : List (Parser κ ρ α)}
    (halternatives : ∀ parser ∈ first :: others, parser.Behaves s start expects) :
    (firstOf first others).Behaves s start expects :=
  behaves_choice fun index ↦ halternatives _ (List.get_mem (first :: others) index)

/-! The other ways to put two parsers one after another are bindings of a special form. -/

theorem Behaves.keepRight (hfirst : first.Behaves s start expects)
    (hsecond : ∀ middle, expects middle → second.Behaves s middle expects') :
    (keepRight first second).Behaves s start expects' :=
  have hbind := hfirst.bind fun _ ↦ hsecond
  ⟨hbind.ends, hbind.guarded⟩

theorem Behaves.keepLeft (hfirst : first.Behaves s start expects)
    (hsecond : ∀ middle, expects middle → second.Behaves s middle expects') :
    (keepLeft first second).Behaves s start expects' :=
  have hbind := hfirst.bind fun value middle hmiddle ↦ (hsecond middle hmiddle).map fun _ ↦ value
  ⟨hbind.ends, hbind.guarded⟩

theorem Behaves.pair (hfirst : first.Behaves s start expects)
    (hsecond : ∀ middle, expects middle → second.Behaves s middle expects') :
    (pair first second).Behaves s start expects' :=
  have hbind := hfirst.bind fun left middle hmiddle ↦
    (hsecond middle hmiddle).map fun right ↦ (left, right)
  ⟨hbind.ends, hbind.guarded⟩

theorem Behaves.between (hfirst : first.Behaves s start expects)
    (hsecond : ∀ middle, expects middle → second.Behaves s middle expects')
    (hthird : ∀ middle, expects' middle → third.Behaves s middle expects'') :
    (between first second third).Behaves s start expects'' :=
  have hbind := hfirst.bind fun _ middle hmiddle ↦ (hsecond middle hmiddle).keepLeft hthird
  ⟨hbind.ends, hbind.guarded⟩

theorem Behaves.step {next : α → Script κ ρ β} (hfirst : first.Behaves s start expects)
    (hnext : ∀ value middle, expects middle →
      (sequence none (next value)).Behaves s middle expects') :
    (sequence none (.step first next)).Behaves s start expects' := by
  have hbind := hfirst.bind hnext
  refine ⟨?_, hbind.guarded⟩
  rw [matcher_step]
  exact hbind.ends

theorem behaves_finish (result : Except Fault α) (hstart : expects start) :
    (sequence none (.finish result) : Parser κ ρ α).Behaves s start expects :=
  ⟨Run.ends_ofExcept result hstart, nofun⟩

/-! ## Parsers that pass on -/

/-- From a position on, the parser behaves and passes on in the text; strictly, if it consumes
something wherever it succeeds. -/
def Passes (s : Surroundings κ ρ) (strictly : Bool) (low : Int) (parser : Parser κ ρ α) : Prop :=
  ∀ start, low ≤ start → parser.Behaves s start (s.text.Passes strictly start)

variable {strictly also : Bool} {low : Int}

theorem Passes.endsFrom (hfirst : first.Passes s strictly low) :
    (first.matcher s.text s.rules).EndsFrom s.text strictly low :=
  fun start hstart ↦ (hfirst start hstart).ends

theorem Passes.weaken (hfirst : first.Passes s strictly low) : first.Passes s false low :=
  fun start hstart ↦ (hfirst start hstart).imp fun _ hstop ↦ hstop.weaken

/-- What comes second starts where the first one stopped, which is further on. -/
theorem Passes.after (hsecond : second.Passes s also low) (hstart : low ≤ start) {middle : Int}
    (hmiddle : s.text.Passes strictly start middle) :
    second.Behaves s middle (s.text.Passes (strictly || also) start) :=
  (hsecond middle (Int.le_trans hstart hmiddle.le)).imp fun _ hstop ↦ hmiddle.trans hstop

theorem passes_succeed (s : Surroundings κ ρ) (low : Int) (value : α) :
    (succeed value : Parser κ ρ α).Passes s false low :=
  fun start _ ↦ behaves_succeed value (s.text.passes_refl start)

theorem passes_satisfy (s : Surroundings κ ρ) (low : Int) (accepts : Char → Bool) :
    (satisfy accepts : Parser κ ρ Char).Passes s true low :=
  fun start _ ↦ (behaves_satisfy s accepts start).imp fun _ hstop ↦ hstop.1

theorem Passes.bind {next : α → Parser κ ρ β} (hfirst : first.Passes s strictly low)
    (hnext : ∀ value, (next value).Passes s also low) :
    (Parser.bind first next).Passes s (strictly || also) low :=
  fun start hstart ↦ (hfirst start hstart).bind fun value _ ↦ (hnext value).after hstart

theorem Passes.convert (hfirst : first.Passes s strictly low) (f : α → Except Fault β) :
    (Parser.convert first f).Passes s strictly low :=
  fun start hstart ↦ (hfirst start hstart).convert f

theorem Passes.map (hfirst : first.Passes s strictly low) (f : α → β) :
    (Parser.map f first).Passes s strictly low :=
  hfirst.convert _

theorem passes_firstOf {others : List (Parser κ ρ α)}
    (halternatives : ∀ parser ∈ first :: others, parser.Passes s strictly low) :
    (firstOf first others).Passes s strictly low :=
  fun start hstart ↦ behaves_firstOf fun parser hparser ↦ halternatives parser hparser start hstart

theorem Passes.orElse {other : Parser κ ρ α} (hfirst : first.Passes s strictly low)
    (hother : other.Passes s strictly low) : (Parser.orElse first other).Passes s strictly low :=
  passes_firstOf (by simpa using ⟨hfirst, hother⟩)

theorem Passes.keepRight (hfirst : first.Passes s strictly low)
    (hsecond : second.Passes s also low) :
    (Parser.keepRight first second).Passes s (strictly || also) low :=
  fun start hstart ↦ (hfirst start hstart).keepRight fun _ ↦ hsecond.after hstart

theorem Passes.keepLeft (hfirst : first.Passes s strictly low)
    (hsecond : second.Passes s also low) :
    (Parser.keepLeft first second).Passes s (strictly || also) low :=
  fun start hstart ↦ (hfirst start hstart).keepLeft fun _ ↦ hsecond.after hstart

theorem Passes.pair (hfirst : first.Passes s strictly low) (hsecond : second.Passes s also low) :
    (Parser.pair first second).Passes s (strictly || also) low :=
  fun start hstart ↦ (hfirst start hstart).pair fun _ ↦ hsecond.after hstart

theorem Passes.between {still : Bool} (hfirst : first.Passes s strictly low)
    (hsecond : second.Passes s also low) (hthird : third.Passes s still low) :
    (Parser.between first second third).Passes s (strictly || (also || still)) low :=
  fun start hstart ↦
    have hkeep := hfirst.keepRight (hsecond.keepLeft hthird) start hstart
    ⟨hkeep.ends, hkeep.guarded⟩

theorem Passes.step {next : α → Script κ ρ β} (hfirst : first.Passes s strictly low)
    (hnext : ∀ value, (sequence none (next value)).Passes s also low) :
    (sequence none (.step first next)).Passes s (strictly || also) low :=
  fun start hstart ↦ (hfirst start hstart).step fun value _ ↦ (hnext value).after hstart

theorem passes_finish (s : Surroundings κ ρ) (low : Int) (result : Except Fault α) :
    (sequence none (.finish result) : Parser κ ρ α).Passes s false low :=
  fun start _ ↦ behaves_finish result (s.text.passes_refl start)

/-- Round after round, the loop gets on. -/
theorem Passes.guarded_of_loop (hfirst : first.Passes s true low) (hstart : low ≤ start)
    {visit : Visit κ} (hvisit : (first.matcher s.text s.rules).LoopVisits
      (fun start visit ↦ first.Visits s.text s.rules start visit) start visit) :
    visit.IsGuarded s.text s.opens s.origin := by
  obtain ⟨late, hloop, hvisit⟩ := hvisit
  have hlate := Int.le_trans hstart (hfirst.endsFrom.reaches hstart hloop).le
  obtain hvisit | ⟨stop, ⟨value, hvalue⟩, rfl⟩ := hvisit
  · exact (hfirst late hlate).guarded visit hvisit
  · exact ((hfirst late hlate).ends.stops value stop hvalue).lt

theorem Passes.many (hfirst : first.Passes s true low) : (Parser.many first).Passes s false low :=
  fun _ hstart ↦ ⟨hfirst.endsFrom.rounds hstart (Nat.le_refl _),
    fun _ hvisit ↦ hfirst.guarded_of_loop hstart hvisit⟩

theorem Passes.many1 (hfirst : first.Passes s true low) : (Parser.many1 first).Passes s true low :=
  fun start hstart ↦
    have hbind := (hfirst.bind fun head ↦ hfirst.many.map fun tail ↦ head :: tail) start hstart
    ⟨hbind.ends, hbind.guarded⟩

/-- The pairs of a chain are those of the operator and the term, one after another. -/
theorem Passes.chainLeft {operator : Parser κ ρ (α → α → Except Fault α)}
    (hterm : first.Passes s strictly low) (hoperator : operator.Passes s true low) :
    (Parser.chainLeft first operator).Passes s strictly low := by
  intro start hstart
  have hpairs : (Parser.pair operator first).Passes s true low := hoperator.pair hterm
  refine ⟨(hterm start hstart).ends.andThen fun value next hnext ↦ ?_, ?_⟩
  · have hlow := Int.le_trans hstart hnext.le
    have hlinks := hterm.endsFrom.links hoperator.endsFrom hlow value (Nat.le_refl _)
    refine hlinks.imp fun stop hstop ↦ ?_
    simpa using hnext.trans hstop
  · rintro visit (hvisit | ⟨value, next, hnext, hvisit⟩)
    · exact (hterm start hstart).guarded visit hvisit
    · have hlow := Int.le_trans hstart ((hterm start hstart).ends.stops value next hnext).le
      exact hpairs.guarded_of_loop hlow hvisit

end Parser

end ParserCombinators
