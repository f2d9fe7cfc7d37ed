import ParserCombinators.Json.Grammar
import ParserCombinators.Proofs.Parser.Folding

/-!
# Separated items as a chain

Separated items can be read in two ways: the first one and then, again and again, a separator with
an item behind it; or as a chain in which every separator appends the lists on its two sides. Both
ways do the same. A separator without an item behind it is left unread.
-/

namespace ParserCombinators

variable {κ ρ α β : Type}

namespace Matcher

variable {item : Matcher α} {separator : Matcher β}

/-- Appending lists of one item each keeps the items in order. -/
theorem foldlM_append (before values : List α) :
    values.foldlM (fun items value ↦ (.ok (items ++ [value]) : Except Fault (List α))) before =
      .ok (before ++ values) := by
  induction values generalizing before with
  | nil =>
    rw [List.append_nil]
    rfl
  | cons value rest ih =>
    have htail := ih (before ++ [value])
    rwa [List.append_assoc, List.singleton_append] at htail

theorem folds_append_eq (count : Nat) (items : List α) :
    folds (pair (convert separator fun _ ↦ .ok fun left right ↦ .ok (left ++ right))
        (convert item fun value ↦ .ok [value])) applyPair count items =
      convert (rounds (keepRight separator item) count) fun rest ↦ .ok (items ++ rest) := by
  have hgives : (keepRight separator item).GivesWithin (fun _ ↦ True) fun value ↦
      ∀ items : List α, ∃ next, (.ok (items ++ [value]) : Except Fault (List α)) = .ok next :=
    fun _ _ value _ _ ↦ ⟨trivial, fun items ↦ ⟨items ++ [value], rfl⟩⟩
  funext position
  calc
    _ = folds (keepRight separator item) (fun items value ↦ .ok (items ++ [value])) count items
        position := by
      rw [folds_pair_convert, keepRight_eq_convert, folds_convert]
      rfl
    _ = convert (rounds (keepRight separator item) count)
        (List.foldlM (fun items value ↦ .ok (items ++ [value])) items) position :=
      hgives.folds_eq_convert count items trivial
    _ = convert (rounds (keepRight separator item) count) (fun rest ↦ .ok (items ++ rest))
        position := by
      simp only [convert, foldlM_append]

end Matcher

/-! ## Items behind a separator -/

namespace Cells

variable {cells : Cells ρ} {first : Parser Cell ρ α} {second : Parser Cell ρ β} {text : Text}
  {position : Int}

theorem Supports.keepRight (hfirst : cells.Supports first) (hsecond : cells.Supports second) :
    cells.Supports (first.keepRight second) :=
  ⟨hfirst.isClosed, (hfirst.pair hsecond).holds⟩

theorem runAt_keepRight (start : Int) :
    cells.runAt (first.keepRight second) text start =
      (cells.runAt (first.pair second) text start).andThen fun both stop ↦ .succeeded both.2 stop :=
  congrFun (Matcher.keepRight_eq_convert ..) start

theorem Supports.advances_keepRight (hsecond : cells.Supports second)
    (hadvances : Matcher.Advances (cells.runAt first text)) :
    Matcher.Advances (cells.runAt (first.keepRight second) text) := by
  intro start value stop hrun
  rw [runAt_keepRight, Run.outcome_andThen_eq_success] at hrun
  obtain ⟨both, middle, hboth, hdone⟩ := hrun
  obtain ⟨-, rfl⟩ := Outcome.success.inj hdone
  exact hsecond.advances_pair hadvances start both middle hboth

theorem Supports.ends_keepRight (hsecond : cells.Supports second)
    (hfirst_ends : ∀ start, (cells.runAt first text start).outcome ≠ .endless)
    (hsecond_ends : ∀ start, (cells.runAt second text start).outcome ≠ .endless) :
    (cells.runAt (first.keepRight second) text position).outcome ≠ .endless := by
  have hpair : (cells.runAt (first.pair second) text position).Ends fun _ ↦ True :=
    ⟨hsecond.ends_pair hfirst_ends hsecond_ends, fun _ _ _ ↦ trivial⟩
  have hboth : (cells.runAt (first.keepRight second) text position).Ends fun _ ↦ True := by
    rw [runAt_keepRight]
    exact hpair.andThen fun _ _ _ ↦ Run.ends_succeeded trivial
  exact hboth.ends

end Cells

/-! ## Separated items -/

theorem Run.outcome_orElse_succeeded_eq_success {run : Run α} {default value : α}
    {position stop : Int} :
    (run.orElse fun _ ↦ succeeded default position).outcome = .success value stop ↔
      run.outcome = .success value stop ∨
        run.outcome = .failure ∧ value = default ∧ stop = position := by
  rw [orElse, outcome_branch_eq_success]
  simp [succeeded, eq_comm]

namespace Parser

/-- The first item, and then items behind separators as long as there are any. -/
def items (item : Parser κ ρ α) (separator : Parser κ ρ β) : Parser κ ρ (List α) :=
  item.bind fun first ↦ (separator.keepRight item).many.convert fun rest ↦ .ok (first :: rest)

/-- The same items as a chain of lists that are appended. -/
def appended (item : Parser κ ρ α) (separator : Parser κ ρ β) : Parser κ ρ (List α) :=
  (item.map fun value ↦ [value]).chainLeft (separator.map fun _ left right ↦ .ok (left ++ right))

variable {item : Parser κ ρ α} {separator : Parser κ ρ β}

theorem sameRuns_items : (appended item separator).SameRuns (items item separator) := by
  intro text rules
  funext position
  refine (congrFun (Matcher.chainLeft_eq_bind ..) position).trans ?_
  refine (Run.andThen_andThen ..).trans (Run.andThen_congr rfl fun first next _ ↦ ?_)
  exact congrFun (Matcher.folds_append_eq _ [first]) next

theorem matcher_orElse_succeed (parser : Parser κ ρ α) (value : α) (text : Text)
    (rules : κ → Matcher ρ) (position : Int) :
    (orElse parser (succeed value)).matcher text rules position =
      (parser.matcher text rules position).orElse fun _ ↦ .succeeded value position := rfl

/-- Nothing is recorded about a sequence without a label, so it is a binding like any other. -/
theorem sameRuns_separatedBy :
    (Json.separatedBy item separator).SameRuns (orElse (items item separator) (succeed [])) := by
  intro text rules
  have hsteps : (sequence none (.step item fun first ↦
      .step (separator.keepRight item).many fun rest ↦ .finish (.ok (first :: rest)))).matcher
        text rules = (items item separator).matcher text rules := by
    rw [matcher_step]
    funext position
    refine Run.andThen_congr rfl fun first next _ ↦ ?_
    rw [matcher_step]
    rfl
  funext position
  rw [Json.separatedBy, matcher_orElse_succeed, matcher_orElse_succeed, hsteps]

theorem SameRuns.orElse_succeed {parser other : Parser κ ρ α} (hsame : parser.SameRuns other)
    (value : α) : (orElse parser (succeed value)).SameRuns (orElse other (succeed value)) := by
  intro text rules
  funext position
  rw [matcher_orElse_succeed, matcher_orElse_succeed, hsame]

end Parser

namespace Cells

/-- Separated items are a chain of lists that are appended, or none; the last separator is left
unread unless an item follows it. -/
theorem runAt_separatedBy (cells : Cells ρ) (item : Parser Cell ρ α) (separator : Parser Cell ρ β)
    (text : Text) (position : Int) (hitem : cells.Supports item)
    (hseparator : cells.Supports separator)
    (hadvances : Matcher.Advances (cells.runAt (separator.keepRight item) text)) :
    cells.runAt (Json.separatedBy item separator) text position =
        cells.runAt (.orElse ((item.map fun value ↦ [value]).chainLeft
          (separator.map fun _ left right ↦ .ok (left ++ right))) (.succeed [])) text position ∧
      (cells.runAt (Json.separatedBy item separator) text position).outcome ≠ .failure ∧
      (∀ values stop,
        (cells.runAt (Json.separatedBy item separator) text position).outcome =
            .success values stop ↔
          (cells.runAt item text position).outcome = .failure ∧ values = [] ∧ stop = position ∨
            ∃ first next rest, (cells.runAt item text position).outcome = .success first next ∧
              Matcher.Exhausts (cells.runAt (separator.keepRight item) text) next rest stop ∧
              values = first :: rest) ∧
      ((∀ start, (cells.runAt item text start).outcome ≠ .endless) →
        (∀ start, (cells.runAt separator text start).outcome ≠ .endless) →
        (cells.runAt (Json.separatedBy item separator) text position).outcome ≠ .endless) := by
  have hboth : cells.Supports (separator.keepRight item) := hseparator.keepRight hitem
  have hrun : cells.runAt (Json.separatedBy item separator) text position =
      (cells.runAt (Parser.items item separator) text position).orElse fun _ ↦
        .succeeded [] position := Parser.sameRuns_separatedBy.runAt_eq cells text position
  refine ⟨?_, ?_, fun values stop ↦ ?_, fun hitem_ends hseparator_ends ↦ ?_⟩
  · rw [Parser.sameRuns_separatedBy.runAt_eq]
    exact (Parser.sameRuns_items.orElse_succeed []).runAt_eq cells text position |>.symm
  · rw [hrun]
    exact Run.outcome_branch_ne_failure (fun _ _ ↦ nofun) nofun
  · rw [hrun, Run.outcome_orElse_succeeded_eq_success, or_comm]
    refine or_congr (and_congr_left' outcome_bind_many_eq_failure) ?_
    refine (hboth.outcome_bind_many_eq_success hadvances).trans ?_
    simp only [Except.ok.injEq, eq_comm]
  · have hitems : (cells.runAt (Parser.items item separator) text position).Ends fun _ ↦ True :=
      ⟨hboth.ends_bind_many hadvances (hitem_ends position) fun _ ↦
        hitem.ends_keepRight hseparator_ends hitem_ends, fun _ _ _ ↦ trivial⟩
    rw [hrun]
    exact (hitems.branch (fun _ _ _ ↦ Run.ends_succeeded trivial)
      (Run.ends_succeeded trivial)).ends

theorem runAt_separatedBy_comma :
    Matcher.Advances (Construction.nesting.cells.runAt ((Parser.skipChar ',').keepRight nested)
        #['(', 'x', ')', ',', 'x', ',', ')']) ∧
      (Construction.nesting.cells.runAt (Json.separatedBy nested (.skipChar ','))
        #['(', 'x', ')', ',', 'x', ',', ')'] 0).outcome = .success [1, 0] 5 := by
  have hcomma : Construction.nesting.cells.Supports (.skipChar ',') :=
    supports_of_isWithin (Parser.isWithin_skipChar ',')
  have hadvances : Matcher.Advances (Construction.nesting.cells.runAt
      ((Parser.skipChar ',').keepRight nested) #['(', 'x', ')', ',', 'x', ',', ')']) :=
    supports_nested.advances_keepRight
      (advances_of_passes fun s ↦ Parser.passes_skipChar s s.origin ',')
  refine ⟨hadvances, ?_⟩
  obtain ⟨-, -, hsuccess, -⟩ := runAt_separatedBy Construction.nesting.cells nested (.skipChar ',')
    _ 0 supports_nested hcomma hadvances
  refine (hsuccess [1, 0] 5).2 (.inr ⟨1, 3, [0], rfl, ?_, rfl⟩)
  exact .succeeds rfl (.fails rfl)

end Cells

end ParserCombinators
