import ParserCombinators.Proofs.Parser.Reading

/-!
# What repetitions and chains read

A repetition has a budget of rounds, and a larger budget changes no run that ends. So a run of a
repetition is a first round, and then a run of the same repetition where that round stopped,
provided that the round consumed something. The same holds of the pairs of a chain.
-/

namespace ParserCombinators

namespace Matcher

variable {α : Type} {inner : Matcher α} {position stop : Int}

theorem outcome_round_mono {rest larger : Matcher (List α)} {values : List α}
    (hrest : ∀ position values stop, (rest position).outcome = .success values stop →
      (larger position).outcome = .success values stop)
    (hround : (round inner rest position).outcome = .success values stop) :
    (round inner larger position).outcome = .success values stop := by
  rw [round, Run.outcome_branch_eq_success] at hround ⊢
  refine hround.imp_left ?_
  rintro ⟨value, next, hinner, htail⟩
  obtain ⟨tail, late, htail, hvalues⟩ := Run.outcome_andThen_eq_success.1 htail
  exact ⟨value, next, hinner,
    Run.outcome_andThen_eq_success.2 ⟨tail, late, hrest _ _ _ htail, hvalues⟩⟩

theorem outcome_rounds_mono {few many : Nat} {values : List α} (hle : few ≤ many)
    (hrounds : (rounds inner few position).outcome = .success values stop) :
    (rounds inner many position).outcome = .success values stop := by
  induction few generalizing many position values stop with
  | zero =>
    cases many with
    | zero => exact hrounds
    | succ many => exact outcome_round_mono (fun _ _ _ hendless ↦ by cases hendless) hrounds
  | succ few ih =>
    obtain ⟨many, rfl⟩ : ∃ count, many = count + 1 := ⟨many - 1, by omega⟩
    exact outcome_round_mono (fun _ _ _ hrest ↦ ih (by omega) hrest) hrounds

variable {term : Matcher α} {operator : Matcher (α → α → Except Fault α)}

theorem outcome_link_mono {accumulator value : α} {rest larger : α → Matcher α}
    (hrest : ∀ accumulator position value stop,
      (rest accumulator position).outcome = .success value stop →
      (larger accumulator position).outcome = .success value stop)
    (hlink : (link term operator accumulator rest position).outcome = .success value stop) :
    (link term operator accumulator larger position).outcome = .success value stop := by
  simp only [link, Run.outcome_branch_eq_success, Run.outcome_andThen_eq_success] at hlink ⊢
  refine hlink.imp_left ?_
  rintro ⟨combine, next, hoperator, hlinked | hfailed⟩
  · obtain ⟨operand, late, hterm, combined, after, hcombined, hlate⟩ := hlinked
    exact ⟨combine, next, hoperator, .inl ⟨operand, late, hterm, combined, after, hcombined,
      hrest _ _ _ _ hlate⟩⟩
  · exact ⟨combine, next, hoperator, .inr hfailed⟩

theorem outcome_links_mono {few many : Nat} {accumulator value : α} (hle : few ≤ many)
    (hlinks : (links term operator few accumulator position).outcome = .success value stop) :
    (links term operator many accumulator position).outcome = .success value stop := by
  induction few generalizing many accumulator position value stop with
  | zero =>
    cases many with
    | zero => exact hlinks
    | succ many => exact outcome_link_mono (fun _ _ _ _ hendless ↦ by cases hendless) hlinks
  | succ few ih =>
    obtain ⟨many, rfl⟩ : ∃ count, many = count + 1 := ⟨many - 1, by omega⟩
    exact outcome_link_mono (fun _ _ _ _ hrest ↦ ih (by omega) hrest) hlinks

end Matcher

/-- Zero or more slices of a language, one after another. -/
inductive Language.Repeated {α : Type} (language : Language α) : Language (List α)
  | nil : Repeated language [] []
  | cons {slice slices : List Char} {value : α} {values : List α} :
      language slice value → Repeated language slices values →
      Repeated language (slice ++ slices) (value :: values)

theorem Language.Repeated.append {α : Type} {language : Language α} {slices : List Char}
    {values values' : List α} (hfirst : language.Repeated slice values)
    (hsecond : language.Repeated slices values') :
    language.Repeated (slice ++ slices) (values ++ values') := by
  induction hfirst with
  | nil => exact hsecond
  | cons hslice _ ih =>
    rw [List.append_assoc]
    exact .cons hslice ih

theorem Language.Repeated.mono {α : Type} {narrow wide : Language α} {slice : List Char}
    {values : List α} (hrepeated : narrow.Repeated slice values)
    (hwide : ∀ slice value, narrow slice value → wide slice value) :
    wide.Repeated slice values := by
  induction hrepeated with
  | nil => exact .nil
  | cons hslice _ ih => exact .cons (hwide _ _ hslice) ih

/-- Operands with operations in between, folded from the left. -/
inductive Language.Chain {α : Type} (operand : Language α)
    (operation : Language (α → α → Except Fault α)) : Language α
  | single {slice : List Char} {value : α} :
      operand slice value → Chain operand operation slice value
  | pair {slice symbol slice' : List Char} {value other result : α}
      {combine : α → α → Except Fault α} :
      Chain operand operation slice value → operation symbol combine → operand slice' other →
      combine value other = .ok result →
      Chain operand operation (slice ++ (symbol ++ slice')) result

namespace Parser

variable {κ ρ α : Type} {text : Text} {rules : κ → Matcher ρ} {left middle rest : List Char}

/-! ## Repetitions -/

section Repetitions

variable {inner : Parser κ ρ α} {value : α} {values : List α}

theorem Rejects.many (hinner : inner.Rejects text rules left) :
    inner.many.Reads text rules left [] left := by
  simp only [Reads, matcher, Matcher.many]
  cases text.remaining (text.positionOf left) with
  | zero => exact Run.outcome_branch_of_failure hinner
  | succ count => exact Run.outcome_branch_of_failure hinner

theorem Reads.many (hinner : inner.Reads text rules left value middle)
    (hconsumed : middle.length < left.length)
    (hrest : inner.many.Reads text rules middle values rest) :
    inner.many.Reads text rules left (value :: values) rest := by
  simp only [Reads, matcher, Matcher.many, Text.remaining_positionOf] at hrest ⊢
  obtain ⟨count, hcount⟩ : ∃ count, left.length = count + 1 := ⟨left.length - 1, by omega⟩
  rw [hcount]
  refine (Run.outcome_branch_of_success hinner).trans ?_
  have hlarger := Matcher.outcome_rounds_mono (show middle.length ≤ count by omega) hrest
  exact Run.outcome_branch_of_success hlarger

/-- Repetition goes on exactly until its parser fails. -/
theorem reads_many {language : Language α}
    (hinner : ∀ rest, rest <:+ left → inner.Respects text rules language rest)
    (hconsumes : ∀ slice value, language slice value → slice ≠ []) :
    ∃ slice values rest, left = slice ++ rest ∧ language.Repeated slice values ∧
      inner.many.Reads text rules left values rest := by
  induction hlength : left.length using Nat.strongRecOn generalizing left with
  | ind length ih =>
    obtain hrejects | ⟨slice, value, middle, rfl, hslice, hreads⟩ := hinner left List.suffix_rfl
    · exact ⟨[], [], left, rfl, .nil, hrejects.many⟩
    have hshorter := length_lt_append (hconsumes _ _ hslice) middle
    obtain ⟨slices, values, rest, rfl, hslices, hrest⟩ :=
      ih middle.length (hlength ▸ hshorter)
        (fun rest hrest ↦ hinner rest (hrest.trans (List.suffix_append _ _))) rfl
    exact ⟨slice ++ slices, value :: values, rest, (List.append_assoc ..).symm,
      .cons hslice hslices, hreads.many hshorter hrest⟩

theorem Reads.many1 {head : α} {tail : List α} (hhead : inner.Reads text rules left head middle)
    (htail : inner.many.Reads text rules middle tail rest) :
    inner.many1.Reads text rules left (head :: tail) rest := by
  refine (Run.outcome_branch_of_success hhead).trans ?_
  exact Run.outcome_branch_of_success htail

theorem Rejects.many1 (hhead : inner.Rejects text rules left) :
    inner.many1.Rejects text rules left :=
  Run.outcome_branch_of_failure hhead

end Repetitions

/-! ## Chains -/

section Chains

variable {term : Parser κ ρ α} {operator : Parser κ ρ (α → α → Except Fault α)}
  {accumulator operand next value : α} {combine : α → α → Except Fault α}
  {operandLanguage : Language α} {operationLanguage : Language (α → α → Except Fault α)}

/-- Where `left` is left of the text, the pairs of a chain turn the accumulator into the value. -/
def Extends (text : Text) (rules : κ → Matcher ρ) (term : Parser κ ρ α)
    (operator : Parser κ ρ (α → α → Except Fault α)) (accumulator : α) (left : List Char)
    (value : α) (rest : List Char) : Prop :=
  (Matcher.links (term.matcher text rules) (operator.matcher text rules) left.length accumulator
    (text.positionOf left)).outcome = .success value (text.positionOf rest)

theorem Rejects.extends (hoperator : operator.Rejects text rules left) :
    Extends text rules term operator accumulator left accumulator left := by
  rw [Extends]
  cases left.length with
  | zero => exact Run.outcome_branch_of_failure hoperator
  | succ count => exact Run.outcome_branch_of_failure hoperator

/-- An operator without an operand is given back. -/
theorem Reads.extends_rejects (hoperator : operator.Reads text rules left combine middle)
    (hterm : term.Rejects text rules middle) :
    Extends text rules term operator accumulator left accumulator left := by
  rw [Extends]
  cases left.length with
  | zero =>
    exact (Run.outcome_branch_of_success hoperator).trans (Run.outcome_branch_of_failure hterm)
  | succ count =>
    exact (Run.outcome_branch_of_success hoperator).trans (Run.outcome_branch_of_failure hterm)

theorem Reads.extends {late : List Char} (hoperator : operator.Reads text rules left combine middle)
    (hterm : term.Reads text rules middle operand late)
    (hcombine : combine accumulator operand = .ok next) (hconsumed : late.length < left.length)
    (hlate : Extends text rules term operator next late value rest) :
    Extends text rules term operator accumulator left value rest := by
  rw [Extends] at hlate ⊢
  obtain ⟨count, hcount⟩ : ∃ count, left.length = count + 1 := ⟨left.length - 1, by omega⟩
  rw [hcount]
  refine (Run.outcome_branch_of_success hoperator).trans ?_
  refine (Run.outcome_branch_of_success hterm).trans ?_
  rw [hcombine]
  exact Matcher.outcome_links_mono (show late.length ≤ count by omega) hlate

theorem Reads.chainLeft (hterm : term.Reads text rules left accumulator middle)
    (hpairs : Extends text rules term operator accumulator middle value rest) :
    (term.chainLeft operator).Reads text rules left value rest := by
  refine (Run.outcome_branch_of_success hterm).trans ?_
  rw [Text.remaining_positionOf]
  exact hpairs

theorem Rejects.chainLeft (hterm : term.Rejects text rules left) :
    (term.chainLeft operator).Rejects text rules left :=
  Run.outcome_branch_of_failure hterm

/-- What was read so far stays a chain, whatever pairs follow. -/
theorem exists_extends {done : List Char}
    (hterm : ∀ rest, rest <:+ left → term.Respects text rules operandLanguage rest)
    (hoperator : ∀ rest, rest <:+ left → operator.Respects text rules operationLanguage rest)
    (hconsumes : ∀ symbol combine, operationLanguage symbol combine → symbol ≠ [])
    (hcombines : ∀ symbol combine, operationLanguage symbol combine →
      ∀ value other, ∃ result, combine value other = .ok result)
    (hdone : operandLanguage.Chain operationLanguage done accumulator) :
    ∃ slice value rest, left = slice ++ rest ∧
      operandLanguage.Chain operationLanguage (done ++ slice) value ∧
      Extends text rules term operator accumulator left value rest := by
  induction hlength : left.length using Nat.strongRecOn generalizing left done accumulator with
  | ind length ih =>
    obtain hrejects | ⟨symbol, combine, middle, rfl, hsymbol, hreads⟩ :=
      hoperator left List.suffix_rfl
    · exact ⟨[], accumulator, left, rfl, by rwa [List.append_nil], hrejects.extends⟩
    obtain hrejects | ⟨slice, operand, late, rfl, hslice, hreads'⟩ :=
      hterm middle (List.suffix_append ..)
    · exact ⟨[], accumulator, _, rfl, by rwa [List.append_nil], hreads.extends_rejects hrejects⟩
    obtain ⟨next, hnext⟩ := hcombines symbol combine hsymbol accumulator operand
    have hshorter : late.length < (symbol ++ (slice ++ late)).length := by
      have := List.length_pos_iff.2 (hconsumes _ _ hsymbol)
      simp only [List.length_append]
      omega
    have hsuffix : late <:+ symbol ++ (slice ++ late) :=
      (List.suffix_append ..).trans (List.suffix_append ..)
    obtain ⟨slices, value, rest, rfl, hslices, hrest⟩ :=
      ih late.length (hlength ▸ hshorter) (fun rest hrest ↦ hterm rest (hrest.trans hsuffix))
        (fun rest hrest ↦ hoperator rest (hrest.trans hsuffix))
        (hdone.pair hsymbol hslice hnext) rfl
    refine ⟨symbol ++ (slice ++ slices), value, rest, by simp only [List.append_assoc], ?_,
      hreads.extends hreads' hnext hshorter hrest⟩
    simpa only [List.append_assoc] using hslices

theorem respects_chainLeft
    (hterm : ∀ rest, rest <:+ left → term.Respects text rules operandLanguage rest)
    (hoperator : ∀ rest, rest <:+ left → operator.Respects text rules operationLanguage rest)
    (hconsumes : ∀ symbol combine, operationLanguage symbol combine → symbol ≠ [])
    (hcombines : ∀ symbol combine, operationLanguage symbol combine →
      ∀ value other, ∃ result, combine value other = .ok result) :
    (term.chainLeft operator).Respects text rules (operandLanguage.Chain operationLanguage)
      left := by
  obtain hrejects | ⟨slice, accumulator, middle, rfl, hslice, hreads⟩ := hterm left List.suffix_rfl
  · exact .inl hrejects.chainLeft
  have hsuffix : middle <:+ slice ++ middle := List.suffix_append ..
  obtain ⟨slices, value, rest, rfl, hslices, hrest⟩ :=
    exists_extends (fun rest hrest ↦ hterm rest (hrest.trans hsuffix))
      (fun rest hrest ↦ hoperator rest (hrest.trans hsuffix)) hconsumes hcombines (.single hslice)
  exact .inr ⟨slice ++ slices, value, rest, (List.append_assoc ..).symm, hslices,
    hreads.chainLeft hrest⟩

end Chains

end Parser

end ParserCombinators
