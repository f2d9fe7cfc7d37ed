import ParserCombinators.Proofs.Parser.Reading

/-!
# What alternatives, sequences and recursive rules read

An alternative is tried only where all earlier ones fail. A sequence reads what its steps read one
after another. A rule that refers to itself reads like its own definition, in which the references
stand for the rule at one depth less; a depth of the number of characters left is enough, since a
reference is met only after something was consumed.
-/

namespace ParserCombinators

namespace Parser

variable {κ ρ α β : Type} {text : Text} {rules : κ → Matcher ρ} {language : Language α}
  {left middle rest : List Char} {value : α} {other : β}

/-! ## Alternatives -/

section Alternatives

variable {first next : Parser κ ρ α} {others : List (Parser κ ρ α)}

theorem reads_succeed : (succeed value : Parser κ ρ α).Reads text rules left value left := rfl

theorem Reads.firstOf (hfirst : first.Reads text rules left value rest) :
    (firstOf first others).Reads text rules left value rest :=
  Run.outcome_branch_of_success hfirst

theorem Rejects.firstOf_nil (hfirst : first.Rejects text rules left) :
    (firstOf first []).Rejects text rules left :=
  Run.outcome_branch_of_failure hfirst

theorem Rejects.firstOf_reads (hfirst : first.Rejects text rules left)
    (hothers : (firstOf next others).Reads text rules left value rest) :
    (firstOf first (next :: others)).Reads text rules left value rest :=
  (Run.outcome_branch_of_failure hfirst).trans hothers

theorem Rejects.firstOf_rejects (hfirst : first.Rejects text rules left)
    (hothers : (firstOf next others).Rejects text rules left) :
    (firstOf first (next :: others)).Rejects text rules left :=
  (Run.outcome_branch_of_failure hfirst).trans hothers

theorem respects_firstOf
    (halternatives : ∀ parser ∈ first :: others, parser.Respects text rules language left) :
    (firstOf first others).Respects text rules language left := by
  induction others generalizing first with
  | nil =>
    obtain hrejects | ⟨slice, value, rest, rfl, hslice, hreads⟩ := halternatives first (by simp)
    · exact .inl hrejects.firstOf_nil
    · exact .inr ⟨slice, value, rest, rfl, hslice, hreads.firstOf⟩
  | cons next others ih =>
    obtain hrejects | ⟨slice, value, rest, rfl, hslice, hreads⟩ := halternatives first (by simp)
    · obtain hothers | ⟨slice, value, rest, rfl, hslice, hreads⟩ :=
        ih fun parser hparser ↦ halternatives parser (List.mem_cons_of_mem _ hparser)
      · exact .inl (hrejects.firstOf_rejects hothers)
      · exact .inr ⟨slice, value, rest, rfl, hslice, hrejects.firstOf_reads hreads⟩
    · exact .inr ⟨slice, value, rest, rfl, hslice, hreads.firstOf⟩

theorem Reads.orElse (hfirst : first.Reads text rules left value rest) :
    (first.orElse next).Reads text rules left value rest :=
  hfirst.firstOf

theorem Rejects.orElse_reads (hfirst : first.Rejects text rules left)
    (hnext : next.Reads text rules left value rest) :
    (first.orElse next).Reads text rules left value rest :=
  hfirst.firstOf_reads hnext.firstOf

theorem Rejects.orElse_rejects (hfirst : first.Rejects text rules left)
    (hnext : next.Rejects text rules left) : (first.orElse next).Rejects text rules left :=
  hfirst.firstOf_rejects hnext.firstOf_nil

end Alternatives

/-! ## Sequences -/

section Sequences

variable {first : Parser κ ρ α} {next : α → Script κ ρ β} {firstLanguage : Language α}
  {finalLanguage : Language β}

theorem matcher_step (text : Text) (first : Parser κ ρ α) (next : α → Script κ ρ β)
    (rules : κ → Matcher ρ) :
    (sequence none (.step first next)).matcher text rules =
      (first.bind fun value ↦ sequence none (next value)).matcher text rules := by
  have hsequence (steps : Matcher β) : Matcher.sequence none steps = steps := rfl
  have hclosed (run : Run α) : run.closedBy (Event.forLabel .closed none) = run := run.closedBy_nil
  funext position
  simp only [matcher, Script.matcher, hsequence, Matcher.step, Matcher.bind, hclosed]

theorem reads_finish :
    (sequence none (.finish (.ok other)) : Parser κ ρ β).Reads text rules left other left := rfl

theorem Reads.step (hfirst : first.Reads text rules left value middle)
    (hnext : (sequence none (next value)).Reads text rules middle other rest) :
    (sequence none (.step first next)).Reads text rules left other rest := by
  rw [Reads, matcher_step]
  exact (Run.outcome_branch_of_success hfirst).trans hnext

theorem Rejects.step (hfirst : first.Rejects text rules left) :
    (sequence none (.step first next)).Rejects text rules left := by
  rw [Rejects, matcher_step]
  exact Run.outcome_branch_of_failure hfirst

theorem Reads.step_rejects (hfirst : first.Reads text rules left value middle)
    (hnext : (sequence none (next value)).Rejects text rules middle) :
    (sequence none (.step first next)).Rejects text rules left := by
  rw [Rejects, matcher_step]
  exact (Run.outcome_branch_of_success hfirst).trans hnext

/-- The slice of a sequence goes on with a slice of what follows its first step. -/
theorem Respects.step (hfirst : first.Respects text rules firstLanguage left)
    (hnext : ∀ slice value rest, left = slice ++ rest → firstLanguage slice value →
      (sequence none (next value)).Respects text rules
        (fun slice' other ↦ finalLanguage (slice ++ slice') other) rest) :
    (sequence none (.step first next)).Respects text rules finalLanguage left := by
  obtain hrejects | ⟨slice, value, middle, rfl, hslice, hreads⟩ := hfirst
  · exact .inl hrejects.step
  obtain hrejects | ⟨slice', other, rest, rfl, hslice', hreads'⟩ := hnext _ _ _ rfl hslice
  · exact .inl (hreads.step_rejects hrejects)
  · exact .inr ⟨slice ++ slice', other, rest, (List.append_assoc ..).symm, hslice',
      hreads.step hreads'⟩

theorem respects_finish (hother : finalLanguage [] other) :
    (sequence none (.finish (.ok other)) : Parser κ ρ β).Respects text rules finalLanguage left :=
  .inr ⟨[], other, left, rfl, hother, rfl⟩

end Sequences

/-! ## Rules that refer to themselves -/

section Rules

variable {τ : Type} {rule : Parser Unit τ τ} {depth : Nat}

/-- What a rule stands for inside itself, up to a depth of nested references. -/
def nested (text : Text) (rule : Parser Unit τ τ) (depth : Nat) : Unit → Matcher τ :=
  Matcher.resolve (fun inner _ ↦ rule.matcher text inner) depth

theorem reads_recursive {value : τ} :
    (recursive rule : Parser κ ρ τ).Reads text rules left value rest ↔
      rule.Reads text (rule.nested text left.length) left value rest := by
  simp only [Reads, matcher, Matcher.recursive, Text.remaining_positionOf]
  rfl

theorem rejects_recursive :
    (recursive rule : Parser κ ρ τ).Rejects text rules left ↔
      rule.Rejects text (rule.nested text left.length) left := by
  simp only [Rejects, matcher, Matcher.recursive, Text.remaining_positionOf]
  rfl

theorem respects_recursive {language : Language τ} :
    (recursive rule : Parser κ ρ τ).Respects text rules language left ↔
      rule.Respects text (rule.nested text left.length) language left := by
  simp only [Respects, reads_recursive, rejects_recursive]

theorem respects_forwarding_succ {language : Language τ} :
    (forwarding () : Parser Unit τ τ).Respects text (rule.nested text (depth + 1)) language left ↔
      rule.Respects text (rule.nested text depth) language left :=
  Iff.rfl

theorem rejects_forwarding_succ :
    (forwarding () : Parser Unit τ τ).Rejects text (rule.nested text (depth + 1)) left ↔
      rule.Rejects text (rule.nested text depth) left :=
  Iff.rfl

theorem reads_forwarding_succ {value : τ} :
    (forwarding () : Parser Unit τ τ).Reads text (rule.nested text (depth + 1)) left value rest ↔
      rule.Reads text (rule.nested text depth) left value rest :=
  Iff.rfl

end Rules

end Parser

end ParserCombinators
