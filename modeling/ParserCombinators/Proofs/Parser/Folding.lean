import ParserCombinators.Proofs.Parser.Laws
import ParserCombinators.Proofs.Parser.Stability
import ParserCombinators.Proofs.Parser.Successive
import ParserCombinators.Proofs.Parser.Termination

/-!
# Chains as folds

A chain runs operator and term in pairs, and folds each pair into the accumulator as soon as it is
complete. As long as the functions that the operator yields raise no fault, that is the same as to
collect all pairs first and to fold them from the left afterwards: a pair that is begun and not
completed counts for neither.
-/

namespace ParserCombinators

variable {ρ α β γ : Type}

/-- Puts an operand to the accumulator with the function that comes with it. -/
def applyPair (accumulator : α) (pair : (α → α → Except Fault α) × α) : Except Fault α :=
  pair.1 accumulator pair.2

/-- The function combines any two operands. -/
def NeverRaises (combine : α → α → Except Fault α) : Prop :=
  ∀ left right, ∃ value, combine left right = .ok value

namespace Run

@[simp]
theorem ofExcept_andThen_ok (value : α) (position : Int) (next : α → Int → Run β) :
    (ofExcept (.ok value) position).andThen next = next value position := rfl

theorem ofExcept_bind (result : Except Fault α) (f : α → Except Fault β) (position : Int) :
    ofExcept (result >>= f) position =
      (ofExcept result position).andThen fun value stop ↦ ofExcept (f value) stop := by
  cases result <;> rfl

end Run

namespace Matcher

/-! ## Runs folded one by one -/

/-- Folds one more value into the accumulator and goes on, or ends with what was folded so far. -/
def fold (inner : Matcher γ) (combine : α → γ → Except Fault α) (accumulator : α)
    (rest : α → Matcher α) : Matcher α := fun position ↦
  (inner position).branch
    (fun value stop ↦ (Run.ofExcept (combine accumulator value) stop).andThen rest)
    fun _ ↦ .succeeded accumulator position

/-- Folds the values of round after round into the accumulator, until the first failure. -/
def folds (inner : Matcher γ) (combine : α → γ → Except Fault α) : Nat → α → Matcher α
  | 0, accumulator => fold inner combine accumulator fun _ _ ↦ .endless
  | count + 1, accumulator => fold inner combine accumulator (folds inner combine count)

section Pairs

variable (term : Matcher α) (operator : Matcher (α → α → Except Fault α))

/-- A term that fails gives back its operator, so that the pair is missing as a whole. -/
theorem link_eq_fold (accumulator : α) (rest : α → Matcher α) :
    link term operator accumulator rest =
      fold (pair operator term) applyPair accumulator rest := by
  funext position
  simp only [link, fold, pair, applyPair, Run.andThen, Run.branch_branch, Run.branch_succeeded,
    Run.branch_failed]

theorem links_eq_folds (count : Nat) (accumulator : α) :
    links term operator count accumulator =
      folds (pair operator term) applyPair count accumulator := by
  induction count generalizing accumulator with
  | zero => exact link_eq_fold ..
  | succ count ih =>
    rw [links, folds, link_eq_fold]
    exact congrArg _ (funext ih)

theorem chainLeft_eq_bind (text : Text) :
    chainLeft text term operator =
      bind term fun first position ↦
        folds (pair operator term) applyPair (text.remaining position) first position := by
  funext position
  simp only [chainLeft, bind, links_eq_folds]

end Pairs

section Conversions

variable (inner : Matcher β) (f : β → Except Fault γ) (combine : α → γ → Except Fault α)

theorem fold_convert (accumulator : α) (rest : α → Matcher α) :
    fold (convert inner f) combine accumulator rest =
      fold inner (fun accumulator value ↦ f value >>= combine accumulator) accumulator rest := by
  funext position
  simp only [fold, convert, Run.andThen, Run.branch_branch, Run.ofExcept_bind, Run.branch_failed]
  congr 1
  funext value stop
  cases f value <;> rfl

theorem folds_convert (count : Nat) (accumulator : α) :
    folds (convert inner f) combine count accumulator =
      folds inner (fun accumulator value ↦ f value >>= combine accumulator) count accumulator := by
  induction count generalizing accumulator with
  | zero => exact fold_convert ..
  | succ count ih =>
    rw [folds, folds, fold_convert]
    exact congrArg _ (funext ih)

end Conversions

section ConvertedPairs

variable {δ : Type}

theorem convert_ok (inner : Matcher α) : convert inner .ok = inner := bind_succeeded inner

theorem keepRight_eq_convert (first : Matcher α) (second : Matcher β) :
    keepRight first second = convert (pair first second) fun both ↦ .ok both.2 := by
  funext position
  simp only [keepRight, pair, convert, Run.andThen_andThen, Run.succeeded_andThen]
  exact Run.andThen_congr rfl fun _ _ _ ↦ (Run.andThen_succeeded _).symm

theorem pair_convert (first : Matcher α) (f : α → β) (second : Matcher γ)
    (g : γ → Except Fault δ) :
    pair (convert first fun value ↦ .ok (f value)) (convert second g) =
      convert (pair first second) fun both ↦ g both.2 >>= fun other ↦ .ok (f both.1, other) := by
  funext position
  simp only [pair, convert, Run.andThen_andThen, Run.ofExcept_andThen_ok, Run.succeeded_andThen,
    Run.ofExcept_bind]
  rfl

/-- The pairs of a chain are the runs of its symbol and its term, each converted by itself. -/
theorem folds_pair_convert (symbols : Matcher δ) (build : δ → α → α → Except Fault α)
    (term : Matcher γ) (g : γ → Except Fault α) (count : Nat) (accumulator : α) :
    folds (pair (convert symbols fun symbol ↦ .ok (build symbol)) (convert term g)) applyPair count
        accumulator =
      folds (pair symbols term)
        (fun accumulator both ↦ g both.2 >>= build both.1 accumulator) count accumulator := by
  have hcombine : (fun (accumulator : α) (both : δ × γ) ↦
      (g both.2 >>= fun operand ↦ .ok (build both.1, operand)) >>= applyPair accumulator) =
      fun accumulator both ↦ g both.2 >>= build both.1 accumulator := by
    funext accumulator both
    cases g both.2 <;> rfl
  rw [pair_convert, folds_convert, hcombine]

end ConvertedPairs

/-! ## Values collected before they are folded -/

/-- From each position of a region, a run that succeeds stays in it and gives what is expected. -/
def GivesWithin (inner : Matcher α) (region : Int → Prop) (expects : α → Prop) : Prop :=
  ∀ start, region start → ∀ value stop, (inner start).outcome = .success value stop →
    region stop ∧ expects value

variable {inner : Matcher γ} {combine : α → γ → Except Fault α} {region : Int → Prop}
  {position : Int}

theorem GivesWithin.imp {expects expects' : γ → Prop} (hinner : inner.GivesWithin region expects)
    (himp : ∀ value, expects value → expects' value) : inner.GivesWithin region expects' :=
  fun start hstart value stop hvalue ↦
    (hinner start hstart value stop hvalue).imp_right (himp value)

section Collecting

variable (hinner : inner.GivesWithin region fun value ↦
  ∀ accumulator, ∃ next, combine accumulator value = .ok next)

include hinner

theorem GivesWithin.fold_eq_convert {rest : α → Matcher α} {others : Matcher (List γ)}
    (accumulator : α) (hposition : region position)
    (hrest : ∀ next stop, region stop →
      rest next stop = convert others (List.foldlM combine next) stop) :
    fold inner combine accumulator rest position =
      convert (round inner others) (List.foldlM combine accumulator) position := by
  rw [fold, convert, round, Run.branch_andThen]
  refine Run.branch_congr (fun value stop hvalue ↦ ?_) fun _ ↦ rfl
  obtain ⟨hstop, hcombine⟩ := hinner position hposition value stop hvalue
  obtain ⟨next, hnext⟩ := hcombine accumulator
  rw [hnext, Run.ofExcept_andThen_ok, hrest next stop hstop, Run.andThen_andThen]
  simp only [Run.succeeded_andThen, List.foldlM_cons, hnext]
  rfl

/-- While no function raises a fault, it makes no difference when the values are folded. -/
theorem GivesWithin.folds_eq_convert (count : Nat) (accumulator : α)
    (hposition : region position) :
    folds inner combine count accumulator position =
      convert (rounds inner count) (List.foldlM combine accumulator) position := by
  -- Both sides have the same budget, so that they also run out of it in the same round.
  induction count generalizing accumulator position with
  | zero => exact hinner.fold_eq_convert accumulator hposition fun _ _ _ ↦ rfl
  | succ count ih =>
    exact hinner.fold_eq_convert accumulator hposition fun next _ hstop ↦ ih next hstop

end Collecting

end Matcher

/-! ## Chains of parsers -/

namespace Cells

variable {cells : Cells ρ} {text : Text} {position : Int}

theorem advances_of_passes {parser : Parser Cell ρ α}
    (hparser : ∀ s : Surroundings Cell ρ, parser.Passes s true s.origin) :
    Matcher.Advances (cells.runAt parser text) := by
  intro start value stop hrun
  let s : Surroundings Cell ρ :=
    ⟨text, cells.level text (cells.depth text start), fun _ ↦ false, start⟩
  exact ((hparser s start (Int.le_refl start)).ends.stops value stop hrun).lt

section Pairs

variable {first : Parser Cell ρ α} {second : Parser Cell ρ β}

theorem Supports.pair (hfirst : cells.Supports first) (hsecond : cells.Supports second) :
    cells.Supports (first.pair second) :=
  ⟨hfirst.isClosed, fun cell hcell ↦ hcell.elim (hfirst.holds cell) (hsecond.holds cell)⟩

theorem Supports.pair_givesWithin (hfirst : cells.Supports first)
    (hsecond : cells.Supports second) {expects : α → Prop}
    (hexpects : ∀ start value stop, (cells.runAt first text start).outcome = .success value stop →
      expects value) :
    ((first.pair second).matcher text (cells.level text (cells.depth text position))).GivesWithin
      (position ≤ ·) fun pair ↦ expects pair.1 := by
  rintro start hstart pair stop hpair
  rw [(hfirst.pair hsecond).outcome_eq hstart] at hpair
  refine ⟨Int.le_trans hstart (reaches_of_runAt hpair).le, ?_⟩
  obtain ⟨value, middle, hvalue, hrest⟩ := Run.outcome_andThen_eq_success.1 hpair
  obtain ⟨operand, late, -, hdone⟩ := Run.outcome_andThen_eq_success.1 hrest
  obtain ⟨rfl, -⟩ := Outcome.success.inj hdone
  exact hexpects start value middle hvalue

theorem Supports.advances_pair (hsecond : cells.Supports second)
    (hadvances : Matcher.Advances (cells.runAt first text)) :
    Matcher.Advances (cells.runAt (first.pair second) text) := by
  intro start pair stop hpair
  obtain ⟨value, middle, hvalue, hrest⟩ := Run.outcome_andThen_eq_success.1 hpair
  obtain ⟨operand, late, hoperand, hdone⟩ := Run.outcome_andThen_eq_success.1 hrest
  obtain ⟨-, rfl⟩ := Outcome.success.inj hdone
  have hmiddle : start < middle := hadvances start value middle hvalue
  have hpart := (hsecond.outcome_eq (Int.le_of_lt hmiddle)).symm.trans hoperand
  exact Int.lt_of_lt_of_le hmiddle (reaches_of_runAt hpart).le

theorem Supports.ends_pair (hsecond : cells.Supports second)
    (hfirst_ends : ∀ start, (cells.runAt first text start).outcome ≠ .endless)
    (hsecond_ends : ∀ start, (cells.runAt second text start).outcome ≠ .endless) :
    (cells.runAt (first.pair second) text position).outcome ≠ .endless := by
  have hfirst : (cells.runAt first text position).Ends (position ≤ ·) :=
    ⟨hfirst_ends position, fun _ _ hvalue ↦ (reaches_of_runAt hvalue).le⟩
  have hpair : (cells.runAt (first.pair second) text position).Ends fun _ ↦ True := by
    refine hfirst.andThen fun value middle hmiddle ↦ ?_
    have hlast := hsecond_ends middle
    rw [← hsecond.outcome_eq hmiddle] at hlast
    exact (Run.Ends.mk hlast fun _ _ _ ↦ trivial).andThen fun _ _ _ ↦ Run.ends_succeeded trivial
  exact hpair.ends

end Pairs

theorem Supports.runAt_chainLeft_eq_bind (hterm : cells.Supports term)
    (hoperator : cells.Supports operator)
    (hcombines : ∀ start combine stop,
      (cells.runAt operator text start).outcome = .success combine stop → NeverRaises combine) :
    cells.runAt (term.chainLeft operator) text position =
      cells.runAt (term.bind fun first ↦
        (operator.pair term).many.convert (List.foldlM applyPair first)) text position := by
  let rules := cells.level text (cells.depth text position)
  have hpairs : ((operator.pair term).matcher text rules).GivesWithin (position ≤ ·) fun pair ↦
      NeverRaises pair.1 := hoperator.pair_givesWithin hterm hcombines
  have hfolds : ((operator.pair term).matcher text rules).GivesWithin (position ≤ ·) fun pair ↦
      ∀ accumulator, ∃ next, applyPair accumulator pair = .ok next :=
    hpairs.imp fun pair hpair accumulator ↦ hpair accumulator pair.2
  refine (congrFun (Matcher.chainLeft_eq_bind ..) position).trans ?_
  -- What is known of the pairs is known from the start on, and the first term does not go back.
  refine Run.andThen_congr rfl fun first next hfirst ↦ ?_
  exact hfolds.folds_eq_convert _ first (reaches_of_runAt hfirst).le

/-- A chain folds the pairs of operator and term from the left, as many as are complete. -/
theorem runAt_chainLeft (cells : Cells ρ) (term : Parser Cell ρ α)
    (operator : Parser Cell ρ (α → α → Except Fault α)) (text : Text) (position : Int)
    (hterm : cells.Supports term) (hoperator : cells.Supports operator)
    (hadvances : Matcher.Advances (cells.runAt (operator.pair term) text))
    (hcombines : ∀ start combine stop,
      (cells.runAt operator text start).outcome = .success combine stop → NeverRaises combine) :
    cells.runAt (term.chainLeft operator) text position =
        cells.runAt (term.bind fun first ↦
          (operator.pair term).many.convert (List.foldlM applyPair first)) text position ∧
      ((cells.runAt (term.chainLeft operator) text position).outcome = .failure ↔
        (cells.runAt term text position).outcome = .failure) ∧
      (∀ value stop,
        (cells.runAt (term.chainLeft operator) text position).outcome = .success value stop ↔
          ∃ first next pairs, (cells.runAt term text position).outcome = .success first next ∧
            Matcher.Exhausts (cells.runAt (operator.pair term) text) next pairs stop ∧
            pairs.foldlM applyPair first = .ok value) ∧
      ((∀ start, (cells.runAt term text start).outcome ≠ .endless) →
        (∀ start, (cells.runAt operator text start).outcome ≠ .endless) →
        (cells.runAt (term.chainLeft operator) text position).outcome ≠ .endless) := by
  have hpair : cells.Supports (operator.pair term) := hoperator.pair hterm
  rw [hterm.runAt_chainLeft_eq_bind hoperator hcombines]
  refine ⟨rfl, outcome_bind_many_eq_failure, fun _ _ ↦ ?_, fun hterm_ends hoperator_ends ↦ ?_⟩
  · exact hpair.outcome_bind_many_eq_success hadvances
  · refine hpair.ends_bind_many hadvances (hterm_ends position) fun _ ↦ ?_
    exact hterm.ends_pair hoperator_ends hterm_ends

/-- An `x` in parentheses, by the rule in the cell. -/
def nested : Parser Cell Nat Nat := .forwarding ⟨0, none⟩

/-- Counts the nesting on the left twice, so that it makes a difference how pairs are folded. -/
def weigh (left right : Nat) : Except Fault Nat := .ok (2 * left + right)

def minus : Parser Cell Nat (Nat → Nat → Except Fault Nat) :=
  (Parser.skipChar '-').map fun () ↦ weigh

theorem isWithin_nested : nested.IsWithin Construction.nesting.Knows :=
  Parser.isWithin_forwarding.2 List.mem_cons_self

theorem supports_of_isWithin {parser : Parser Cell Nat α}
    (hparser : parser.IsWithin Construction.nesting.Knows) :
    Construction.nesting.cells.Supports parser :=
  (Construction.isScoped_empty.becomes Construction.becomes_nesting).supports hparser

theorem supports_nested : Construction.nesting.cells.Supports nested :=
  supports_of_isWithin isWithin_nested

theorem supports_minus : Construction.nesting.cells.Supports minus :=
  supports_of_isWithin (Parser.isWithin_map.2 (Parser.isWithin_skipChar '-'))

theorem advances_minus (text : Text) :
    Matcher.Advances (Construction.nesting.cells.runAt minus text) :=
  advances_of_passes fun s ↦ (Parser.passes_skipChar s s.origin '-').map _

theorem neverRaises_minus (text : Text) (start : Int) (combine : Nat → Nat → Except Fault Nat)
    (stop : Int) (hrun : (Construction.nesting.cells.runAt minus text start).outcome =
      .success combine stop) : NeverRaises combine := by
  obtain ⟨-, rfl⟩ := Parser.Yields.of_map ⟨_, _, start, stop, hrun⟩
  exact fun left right ↦ ⟨2 * left + right, rfl⟩

theorem runAt_chainLeft_minus :
    Matcher.Advances (Construction.nesting.cells.runAt (minus.pair nested)
        #['(', 'x', ')', '-', 'x', '-', 'x', '-']) ∧
      (Construction.nesting.cells.runAt (nested.chainLeft minus)
        #['(', 'x', ')', '-', 'x', '-', 'x', '-'] 0).outcome = .success 4 7 := by
  have hadvances := supports_nested.advances_pair
    (advances_minus #['(', 'x', ')', '-', 'x', '-', 'x', '-'])
  refine ⟨hadvances, ?_⟩
  obtain ⟨-, -, hsuccess, -⟩ := runAt_chainLeft _ nested minus _ 0 supports_nested supports_minus
    hadvances (neverRaises_minus _)
  refine (hsuccess 4 7).2 ⟨1, 3, [(weigh, 0), (weigh, 0)], rfl, ?_, rfl⟩
  exact .succeeds rfl (.succeeds rfl (.fails rfl))

end Cells

end ParserCombinators
