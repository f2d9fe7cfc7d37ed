import ParserCombinators.Expression.Evaluation
import ParserCombinators.Proofs.Parser.Folding

/-!
# Chains and conversions

A conversion of the value of a chain can be moved into the chain, if it turns what the functions do
to the operands into what other functions do to the converted operands. When the conversion itself
can raise a fault, the converted chain stops at the first one. The value of the whole chain then
meets the same fault, but only after all of the chain was parsed.

So it does not matter whether a tree is built from a chain and evaluated, or numbers are put
together as they are parsed.
-/

namespace ParserCombinators

variable {ρ α β γ : Type}

/-- The second run does what a conversion of the first one does, or it stops at a fault that the
conversion of the value of the first one meets too, if there is such a value. -/
def Run.Fuses (h : α → Except Fault β) (run : Run α) (direct : Run β) : Prop :=
  direct = (run.andThen fun value stop ↦ .ofExcept (h value) stop) ∨
    ∃ fault, direct.outcome = .raised fault ∧ (∃ value, h value = .error fault) ∧
      run.outcome ≠ .failure ∧
      ∀ value stop, run.outcome = .success value stop → h value = .error fault

namespace Run

variable {h : α → Except Fault β} {run : Run γ} {f : γ → Int → Run α} {direct : γ → Int → Run β}

theorem Fuses.after {first : Run α} {second : Run β} (hfuses : Fuses h first second)
    (events : List Event) : Fuses h (after events first) (after events second) := by
  obtain rfl | hcut := hfuses
  · exact .inl (branch_after ..).symm
  · exact .inr hcut

theorem fuses_failed : Fuses h failed failed := .inl rfl

theorem fuses_raised (fault : Fault) : Fuses h (raised fault) (raised fault) := .inl rfl

theorem fuses_endless : Fuses h endless endless := .inl rfl

theorem fuses_branch {otherwise : Unit → Run α} {directly : Unit → Run β}
    (hsuccess : ∀ value stop, run.outcome = .success value stop →
      Fuses h (f value stop) (direct value stop))
    (hfailure : Fuses h (otherwise ()) (directly ())) :
    Fuses h (run.branch f otherwise) (run.branch direct directly) := by
  obtain ⟨events, outcome⟩ := run
  cases outcome with
  | success value stop => exact (hsuccess value stop rfl).after events
  | failure => exact hfailure.after events
  | raised fault => exact (fuses_raised fault).after events
  | endless => exact fuses_endless.after events

theorem fuses_andThen (hsuccess : ∀ value stop, run.outcome = .success value stop →
      Fuses h (f value stop) (direct value stop)) :
    Fuses h (run.andThen f) (run.andThen direct) :=
  fuses_branch hsuccess fuses_failed

/-- A conversion that raises no fault leaves no other way. -/
theorem Fuses.eq_of_total {first : Run α} {second : Run β} (hfuses : Fuses h first second)
    (htotal : ∀ value fault, h value ≠ .error fault) :
    second = first.andThen fun value stop ↦ .ofExcept (h value) stop := by
  obtain heq | ⟨fault, -, ⟨value, hvalue⟩, -⟩ := hfuses
  · exact heq
  · exact absurd hvalue (htotal value fault)

end Run

namespace Matcher

/-! ## Folds -/

variable {inner : Matcher γ} {combine : α → γ → Except Fault α} {direct : β → γ → Except Fault β}
  {h : α → Except Fault β} {region : Int → Prop} {position stop : Int} {accumulator value : α}

theorem outcome_fold_ne_failure {rest : α → Matcher α}
    (hrest : ∀ next stop, (rest next stop).outcome ≠ .failure) :
    (fold inner combine accumulator rest position).outcome ≠ .failure :=
  Run.outcome_branch_ne_failure
    (fun _ _ ↦ Run.outcome_andThen_ne_failure (Run.outcome_ofExcept_ne_failure _ _) hrest) nofun

theorem outcome_folds_ne_failure (count : Nat) :
    (folds inner combine count accumulator position).outcome ≠ .failure := by
  induction count generalizing accumulator position with
  | zero => exact outcome_fold_ne_failure fun _ _ ↦ nofun
  | succ count ih => exact outcome_fold_ne_failure fun _ _ ↦ ih

theorem GivesWithin.fold_invariant {keeps : α → Prop} {rest : α → Matcher α}
    (hinner : inner.GivesWithin region fun value ↦
      ∀ accumulator next, keeps accumulator → combine accumulator value = .ok next → keeps next)
    (hposition : region position) (hkeeps : keeps accumulator)
    (hrest : ∀ next middle, region middle → keeps next →
      (rest next middle).outcome = .success value stop → keeps value)
    (hrun : (fold inner combine accumulator rest position).outcome = .success value stop) :
    keeps value := by
  obtain ⟨given, middle, hgiven, hnext⟩ | ⟨-, hdone⟩ := Run.outcome_branch_eq_success.1 hrun
  · obtain ⟨next, late, hcombined, hlast⟩ := Run.outcome_andThen_eq_success.1 hnext
    obtain ⟨hcombine, rfl⟩ := Run.outcome_ofExcept_eq_success.1 hcombined
    obtain ⟨hmiddle, hkept⟩ := hinner position hposition given middle hgiven
    exact hrest next middle hmiddle (hkept accumulator next hkeeps hcombine) hlast
  · obtain ⟨rfl, -⟩ := Outcome.success.inj hdone
    exact hkeeps

/-- What every function keeps of the accumulator holds of the result. -/
theorem GivesWithin.folds_invariant {keeps : α → Prop} {count : Nat}
    (hinner : inner.GivesWithin region fun value ↦
      ∀ accumulator next, keeps accumulator → combine accumulator value = .ok next → keeps next)
    (hposition : region position) (hkeeps : keeps accumulator)
    (hrun : (folds inner combine count accumulator position).outcome = .success value stop) :
    keeps value := by
  induction count generalizing accumulator position with
  | zero =>
    refine hinner.fold_invariant hposition hkeeps (fun _ _ _ _ hendless ↦ ?_) hrun
    cases hendless
  | succ count ih =>
    exact hinner.fold_invariant hposition hkeeps (fun _ _ hmiddle hnext ↦ ih hmiddle hnext) hrun

/-- The function does to operands what the other one does to converted operands. -/
def Commutes (h : α → Except Fault β) (combine : α → γ → Except Fault α)
    (direct : β → γ → Except Fault β) (given : γ) : Prop :=
  ∀ accumulator, ∃ next, combine accumulator given = .ok next ∧
    h next = h accumulator >>= fun converted ↦ direct converted given

/-- A fault of the accumulator becomes the fault of everything that it is folded into. -/
theorem GivesWithin.fuses_folds_of_error
    (hinner : inner.GivesWithin region (Commutes h combine direct)) {fault : Fault}
    (hfault : h accumulator = .error fault) (hposition : region position) (count : Nat) :
    Run.Fuses h (folds inner combine count accumulator position) (.raised fault) := by
  refine .inr ⟨fault, rfl, ⟨accumulator, hfault⟩, outcome_folds_ne_failure count, ?_⟩
  have hkeeps : inner.GivesWithin region fun given ↦ ∀ accumulator next,
      h accumulator = .error fault → combine accumulator given = .ok next →
        h next = .error fault := by
    refine hinner.imp fun given hgiven accumulator next hfault hcombine ↦ ?_
    obtain ⟨other, hother, hconverted⟩ := hgiven accumulator
    obtain rfl := Except.ok.inj (hcombine.symm.trans hother)
    rw [hconverted, hfault]
    rfl
  exact fun value stop ↦ hkeeps.folds_invariant hposition hfault

theorem GivesWithin.fuses_fold (hinner : inner.GivesWithin region (Commutes h combine direct))
    (hposition : region position) {converted : β} (hconverted : h accumulator = .ok converted)
    {rest : α → Matcher α} {directly : β → Matcher β}
    (hrest : ∀ next stop, region stop →
      Run.Fuses h (rest next stop) ((Run.ofExcept (h next) stop).andThen directly)) :
    Run.Fuses h (fold inner combine accumulator rest position)
      (fold inner direct converted directly position) := by
  refine Run.fuses_branch (fun given stop hgiven ↦ ?_) (.inl ?_)
  · obtain ⟨hstop, hcommutes⟩ := hinner position hposition given stop hgiven
    obtain ⟨next, hnext, hdirect⟩ := hcommutes accumulator
    rw [hconverted] at hdirect
    have hrest := hrest next stop hstop
    rw [hdirect] at hrest
    rw [hnext]
    exact hrest
  · rw [Run.succeeded_andThen, hconverted]
    rfl

theorem GivesWithin.fuses_folds (hinner : inner.GivesWithin region (Commutes h combine direct))
    (count : Nat) (accumulator : α) (hposition : region position) :
    Run.Fuses h (folds inner combine count accumulator position)
      ((Run.ofExcept (h accumulator) position).andThen (folds inner direct count)) := by
  -- The two loops go on together until the accumulator has no converted value any more.
  induction count generalizing accumulator position with
  | zero =>
    cases hconverted : h accumulator with
    | error fault => exact hinner.fuses_folds_of_error hconverted hposition 0
    | ok converted =>
      refine hinner.fuses_fold hposition hconverted fun next stop _ ↦ ?_
      cases hnext : h next with
      | error fault => exact .inr ⟨fault, rfl, ⟨next, hnext⟩, nofun, nofun⟩
      | ok _ => exact Run.fuses_endless
  | succ count ih =>
    cases hconverted : h accumulator with
    | error fault => exact hinner.fuses_folds_of_error hconverted hposition (count + 1)
    | ok converted => exact hinner.fuses_fold hposition hconverted fun next _ ↦ ih next

/-! ## Chains -/

variable {δ : Type} {symbols : Matcher δ} {build : δ → α → α → Except Fault α}
  {apply : δ → β → β → Except Fault β} {term : Matcher α} {text : Text}

theorem GivesWithin.fuses_chainLeft
    (hpairs : (pair symbols term).GivesWithin region
      (Commutes h (fun left both ↦ build both.1 left both.2)
        fun left both ↦ h both.2 >>= apply both.1 left))
    (hterm : ∀ first next, (term position).outcome = .success first next → region next) :
    Run.Fuses h (chainLeft text term (convert symbols fun symbol ↦ .ok (build symbol)) position)
      (chainLeft text (convert term h) (convert symbols fun symbol ↦ .ok (apply symbol))
        position) := by
  have hbuilt := folds_pair_convert symbols build term .ok
  rw [convert_ok] at hbuilt
  rw [chainLeft_eq_bind, chainLeft_eq_bind]
  simp only [bind, convert_eq_bind term, Run.andThen_andThen]
  refine Run.fuses_andThen fun first next hfirst ↦ ?_
  have hfolds := hpairs.fuses_folds (text.remaining next) first (hterm first next hfirst)
  rw [← convert_eq_bind, hbuilt]
  simp only [folds_pair_convert]
  cases hconverted : h first with
  | error fault => rwa [hconverted] at hfolds
  | ok value => rwa [hconverted] at hfolds

end Matcher

/-! ## Chains of parsers -/

/-- The tree of an operation, as a function of its operands. -/
def Operator.join (operator : Operator) (left right : Expression) : Except Fault Expression :=
  .ok (.operation left operator right)

namespace Cells

variable {cells : Cells ρ} {text : Text} {position : Int} {h : α → Except Fault β}

theorem Supports.fuses_chainLeft {term : Parser Cell ρ α} {symbols : Parser Cell ρ γ}
    {build : γ → α → α → Except Fault α} {apply : γ → β → β → Except Fault β}
    (hterm : cells.Supports term) (hsymbols : cells.Supports symbols)
    (hcommutes : ∀ start symbol stop,
      (cells.runAt symbols text start).outcome = .success symbol stop → ∀ left right, ∃ value,
        build symbol left right = .ok value ∧
          h value = h left >>= fun x ↦ h right >>= fun y ↦ apply symbol x y) :
    Run.Fuses h (cells.runAt (term.chainLeft (symbols.map build)) text position)
      (cells.runAt ((term.convert h).chainLeft (symbols.map apply)) text position) := by
  let rules := cells.level text (cells.depth text position)
  have hpairs : ((symbols.pair term).matcher text rules).GivesWithin (position ≤ ·)
      (Matcher.Commutes h (fun left both ↦ build both.1 left both.2)
        fun left both ↦ h both.2 >>= apply both.1 left) :=
    (hsymbols.pair_givesWithin hterm hcommutes).imp fun both hboth left ↦ hboth left both.2
  exact hpairs.fuses_chainLeft fun first next hfirst ↦ (reaches_of_runAt hfirst).le

/-- A conversion may go before a chain or after it; and trees may be built and then evaluated, or
their values put together at once, unless the arithmetic raises a fault. Both ways meet the same
one, but the one with the trees only after all of the chain is parsed. -/
theorem runAt_map_chainLeft (cells : Cells ρ) (text : Text) (position : Int) :
    (∀ {α β : Type} (term : Parser Cell ρ α) (operator : Parser Cell ρ (α → α → Except Fault α))
        (h : α → β) (image : (α → α → Except Fault α) → β → β → Except Fault β),
      cells.Supports term → cells.Supports operator →
      (∀ start combine stop, (cells.runAt operator text start).outcome = .success combine stop →
        ∀ left right, ∃ value, combine left right = .ok value ∧
          image combine (h left) (h right) = .ok (h value)) →
      cells.runAt ((term.chainLeft operator).map h) text position =
        cells.runAt ((term.map h).chainLeft (operator.map image)) text position) ∧
    ∀ {α : Type} [Arithmetic α] (environment : Environment α) (term : Parser Cell ρ Expression)
        (operator : Parser Cell ρ Operator),
      cells.Supports term → cells.Supports operator →
      let tree := term.chainLeft (operator.map Operator.join)
      let value := (term.convert (Expression.evaluate environment)).chainLeft
        (operator.map Arithmetic.apply)
      cells.runAt value text position =
          cells.runAt (tree.convert (Expression.evaluate environment)) text position ∨
        ∃ fault, (cells.runAt value text position).outcome = .raised fault ∧
          (∃ other, Expression.evaluate environment other = .error fault) ∧
          (cells.runAt tree text position).outcome ≠ .failure ∧
          ∀ whole stop, (cells.runAt tree text position).outcome = .success whole stop →
            whole.evaluate environment = .error fault := by
  constructor
  · intro α β term operator h image hterm hoperator himage
    have hfuses : Run.Fuses (fun value ↦ .ok (h value))
        (cells.runAt (term.chainLeft (operator.map id)) text position)
        (cells.runAt ((term.map h).chainLeft (operator.map image)) text position) := by
      refine hterm.fuses_chainLeft hoperator fun start combine stop hcombine left right ↦ ?_
      obtain ⟨value, hvalue, himage⟩ := himage start combine stop hcombine left right
      exact ⟨value, hvalue, himage.symm⟩
    have hid : cells.runAt (term.chainLeft (operator.map id)) text position =
        cells.runAt (term.chainLeft operator) text position := by
      simp only [runAt, Parser.map, Parser.matcher, id, Matcher.convert_ok]
    have htotal : ∀ (value : α) fault, (.ok (h value) : Except Fault β) ≠ .error fault := by
      intro value fault hnone
      cases hnone
    rw [hfuses.eq_of_total htotal, hid]
    rfl
  · intro α _ environment term operator hterm hoperator
    refine hterm.fuses_chainLeft hoperator fun start symbol stop _ left right ↦ ?_
    exact ⟨.operation left symbol right, rfl, rfl⟩

def subtraction : Parser Cell Nat Operator := (Parser.skipChar '-').map fun () ↦ .subtract

def nestedConstant : Parser Cell Nat Expression := nested.map fun count : Nat ↦ .constant count

theorem runAt_map_chainLeft_minus :
    Construction.nesting.cells.runAt ((nested.chainLeft minus).map (· % 3))
        #['(', 'x', ')', '-', 'x', '-', 'x', '-'] 0 =
      Construction.nesting.cells.runAt ((nested.map (· % 3)).chainLeft (minus.map fun _ left right ↦
        .ok ((2 * left + right) % 3))) #['(', 'x', ')', '-', 'x', '-', 'x', '-'] 0 ∧
    (Construction.nesting.cells.runAt
        ((nestedConstant.chainLeft (subtraction.map Operator.join)).convert
          (Expression.evaluate (Environment.empty : Environment Number)))
        #['x', '-', '(', 'x', ')', '-'] 0).outcome = .success (.integer (-1)) 5 := by
  constructor
  · refine (runAt_map_chainLeft Construction.nesting.cells _ 0).1 nested minus (· % 3) _
      supports_nested supports_minus fun start combine stop hrun left right ↦ ?_
    obtain ⟨-, rfl⟩ := Parser.Yields.of_map ⟨_, _, start, stop, hrun⟩
    refine ⟨2 * left + right, rfl, congrArg Except.ok ?_⟩
    omega
  · have hterm : Construction.nesting.cells.Supports nestedConstant :=
      supports_of_isWithin (Parser.isWithin_map.2 isWithin_nested)
    have hoperator : Construction.nesting.cells.Supports subtraction :=
      supports_of_isWithin (Parser.isWithin_map.2 (Parser.isWithin_skipChar '-'))
    have hvalue : (Construction.nesting.cells.runAt
        ((nestedConstant.convert
          (Expression.evaluate (Environment.empty : Environment Number))).chainLeft
            (subtraction.map Arithmetic.apply))
        #['x', '-', '(', 'x', ')', '-'] 0).outcome = .success (.integer (-1)) 5 := rfl
    obtain heq | ⟨fault, hraised, -⟩ := (runAt_map_chainLeft Construction.nesting.cells _ 0).2
      (.empty : Environment Number) nestedConstant subtraction hterm hoperator
    · rwa [heq] at hvalue
    · rw [hvalue] at hraised
      cases hraised

end Cells

end ParserCombinators
