import ParserCombinators.Parser.Basic

/-!
# What parsers read

The run of a parser at a position depends on what is left of the text there. So a run that succeeds
is said to read: where `left` is left of the text, it leaves `rest`. A parser respects a language if
it either fails or reads a slice that the language gives the value of the run; it then neither
raises a fault nor runs for ever.

There are three lemmas for each way of combining parsers: when the combination reads, when it fails,
and which language it respects.
-/

namespace ParserCombinators

/-- Which slices of a text stand for which values. -/
abbrev Language (α : Type) := List Char → α → Prop

theorem length_lt_append {α : Type} {slice : List α} (hslice : slice ≠ []) (rest : List α) :
    rest.length < (slice ++ rest).length := by
  have := List.length_pos_iff.2 hslice
  rw [List.length_append]
  omega

/-- The position at which `left` is what is left of the text. -/
def Text.positionOf (text : Text) (left : List Char) : Int := text.size - left.length

theorem Text.charAt?_positionOf {text : Text} {left : List Char} (hleft : left <:+ text.toList) :
    text.charAt? (text.positionOf left) = left.head? := by
  obtain ⟨before, hbefore⟩ := hleft
  have hsize : text.size = before.length + left.length := by
    rw [← Array.length_toList, ← hbefore, List.length_append]
  have hposition : text.positionOf left = before.length := by
    rw [Text.positionOf, hsize]
    omega
  rw [hposition, Text.charAt?, if_pos (Int.natCast_nonneg _), Int.toNat_natCast,
    ← Array.getElem?_toList, ← hbefore, List.getElem?_append_right (Nat.le_refl _), Nat.sub_self,
    List.head?_eq_getElem?]

theorem Text.positionOf_cons (text : Text) (c : Char) (rest : List Char) :
    text.positionOf (c :: rest) + 1 = text.positionOf rest := by
  simp only [Text.positionOf, List.length_cons]
  omega

theorem Text.remaining_positionOf (text : Text) (left : List Char) :
    text.remaining (text.positionOf left) = left.length := by
  simp only [Text.remaining, Text.positionOf]
  omega

theorem Text.suffix_of_append {text : Text} {left slice rest : List Char}
    (hleft : left <:+ text.toList) (hsplit : left = slice ++ rest) : rest <:+ text.toList :=
  (hsplit ▸ List.suffix_append slice rest).trans hleft

theorem Text.positionOf_toList (text : Text) : text.positionOf text.toList = 0 := by
  simp [Text.positionOf]

theorem Text.suffixFrom_suffix (text : Text) (position : Int) :
    text.suffixFrom position <:+ text.toList :=
  List.drop_suffix _ _

theorem Text.positionOf_suffixFrom {text : Text} {position : Int} (hnonneg : 0 ≤ position)
    (hsize : position ≤ text.size) : text.positionOf (text.suffixFrom position) = position := by
  rw [positionOf, suffixFrom, List.length_drop, Array.length_toList]
  omega

/-- Outside of the text there is nothing to read. -/
theorem Text.charAt?_eq_none {text : Text} {position : Int}
    (houtside : ¬(0 ≤ position ∧ position < text.size)) : text.charAt? position = none := by
  rw [charAt?]
  split
  case isTrue hnonneg => exact Array.getElem?_eq_none (by omega)
  case isFalse => rfl

/-- A position is that of what is left there, or there is nothing to read. -/
theorem Text.positionOf_or_outside (text : Text) (position : Int) :
    0 ≤ position ∧ text.positionOf (text.suffixFrom position) = position ∨
      text.charAt? position = none ∧ (0 ≤ position → text.suffixFrom position = []) := by
  by_cases hinside : 0 ≤ position ∧ position ≤ text.size
  · exact .inl ⟨hinside.1, Text.positionOf_suffixFrom hinside.1 hinside.2⟩
  · refine .inr ⟨Text.charAt?_eq_none (by omega), fun hnonneg ↦ List.drop_eq_nil_of_le ?_⟩
    rw [Array.length_toList]
    omega

namespace Run

variable {α β γ : Type} {run : Run α} {value : α} {position : Int}

theorem outcome_branch_of_success {onSuccess : α → Int → Run β} {onFailure : Unit → Run β}
    (hrun : run.outcome = .success value position) :
    (run.branch onSuccess onFailure).outcome = (onSuccess value position).outcome := by
  simp [branch, hrun, after]

theorem outcome_branch_of_failure {onSuccess : α → Int → Run β} {onFailure : Unit → Run β}
    (hrun : run.outcome = .failure) :
    (run.branch onSuccess onFailure).outcome = (onFailure ()).outcome := by
  simp [branch, hrun, after]

theorem outcome_branch_eq_success {onSuccess : α → Int → Run β} {onFailure : Unit → Run β}
    {other : β} {stop : Int} :
    (run.branch onSuccess onFailure).outcome = .success other stop ↔
      (∃ value position, run.outcome = .success value position ∧
        (onSuccess value position).outcome = .success other stop) ∨
      run.outcome = .failure ∧ (onFailure ()).outcome = .success other stop := by
  obtain ⟨events, outcome⟩ := run
  cases outcome <;> simp [branch, after, raised, endless, and_assoc]

theorem outcome_andThen_eq_success {next : α → Int → Run β} {other : β} {stop : Int} :
    (run.andThen next).outcome = .success other stop ↔
      ∃ value position, run.outcome = .success value position ∧
        (next value position).outcome = .success other stop := by
  simp [andThen, outcome_branch_eq_success, failed]

theorem branch_branch (run : Run α) (onSuccess : α → Int → Run β) (onFailure : Unit → Run β)
    (onSuccess' : β → Int → Run γ) (onFailure' : Unit → Run γ) :
    (run.branch onSuccess onFailure).branch onSuccess' onFailure' =
      run.branch (fun value stop ↦ (onSuccess value stop).branch onSuccess' onFailure')
        fun _ ↦ (onFailure ()).branch onSuccess' onFailure' := by
  obtain ⟨events, outcome⟩ := run
  cases outcome <;> exact branch_after ..

theorem branch_andThen (run : Run α) (onSuccess : α → Int → Run β) (onFailure : Unit → Run β)
    (last : β → Int → Run γ) :
    (run.branch onSuccess onFailure).andThen last =
      run.branch (fun value stop ↦ (onSuccess value stop).andThen last)
        fun _ ↦ (onFailure ()).andThen last :=
  run.branch_branch ..

theorem andThen_andThen (run : Run α) (next : α → Int → Run β) (last : β → Int → Run γ) :
    (run.andThen next).andThen last =
      run.andThen fun value position ↦ (next value position).andThen last :=
  run.branch_branch ..

@[simp]
theorem succeeded_andThen (value : α) (position : Int) (next : α → Int → Run β) :
    (succeeded value position).andThen next = next value position := rfl

/-- Nothing is recorded about a sequence without a label. -/
theorem closedBy_nil (run : Run α) : run.closedBy [] = run := by
  obtain ⟨events, outcome⟩ := run
  cases outcome <;> simp [closedBy]

end Run

attribute [simp] Parser.matcher Script.matcher

namespace Parser

variable {κ ρ α β γ δ : Type} {text : Text} {rules : κ → Matcher ρ}

/-- Where `left` is left of the text, the parser succeeds and leaves `rest`. -/
def Reads (text : Text) (rules : κ → Matcher ρ) (parser : Parser κ ρ α) (left : List Char)
    (value : α) (rest : List Char) : Prop :=
  (parser.matcher text rules (text.positionOf left)).outcome =
    .success value (text.positionOf rest)

def Rejects (text : Text) (rules : κ → Matcher ρ) (parser : Parser κ ρ α) (left : List Char) :
    Prop :=
  (parser.matcher text rules (text.positionOf left)).outcome = .failure

/-- Where `left` is left of the text, the parser fails or reads a slice of the language. -/
def Respects (text : Text) (rules : κ → Matcher ρ) (parser : Parser κ ρ α)
    (language : Language α) (left : List Char) : Prop :=
  parser.Rejects text rules left ∨ ∃ slice value rest, left = slice ++ rest ∧
    language slice value ∧ parser.Reads text rules left value rest

/-- At the start of a run all of the text is left. -/
theorem Reads.outcome_run {parser : Parser Empty Empty α} {slice rest : List Char} {value : α}
    (htext : text.toList = slice ++ rest)
    (hreads : parser.Reads text Empty.elim (slice ++ rest) value rest) :
    (parser.run text).outcome = .success value slice.length := by
  have hposition : text.positionOf rest = slice.length := by
    rw [Text.positionOf, ← Array.length_toList, htext, List.length_append]
    omega
  rw [← htext, Reads, Text.positionOf_toList, hposition] at hreads
  exact hreads

theorem Respects.mono {parser : Parser κ ρ α} {narrow wide : Language α} {left : List Char}
    (hrespects : parser.Respects text rules narrow left)
    (hwide : ∀ slice value, slice <+: left → narrow slice value → wide slice value) :
    parser.Respects text rules wide left := by
  obtain hrejects | ⟨slice, value, rest, rfl, hslice, hreads⟩ := hrespects
  · exact .inl hrejects
  · exact .inr ⟨slice, value, rest, rfl, hwide _ _ (List.prefix_append _ _) hslice, hreads⟩

theorem Respects.rejects {parser : Parser κ ρ α} {language : Language α} {left : List Char}
    (hrespects : parser.Respects text rules language left)
    (hnone : ∀ slice value rest, left = slice ++ rest → ¬language slice value) :
    parser.Rejects text rules left := by
  obtain hrejects | ⟨slice, value, rest, hsplit, hslice, -⟩ := hrespects
  · exact hrejects
  · exact absurd hslice (hnone slice value rest hsplit)

/-! ## Characters -/

section Characters

variable {accepts : Char → Bool} {left : List Char}

theorem matcher_satisfy_outside {position : Int} (houtside : text.charAt? position = none)
    (accepts : Char → Bool) : Matcher.satisfy text accepts position = .failed := by
  rw [Matcher.satisfy, houtside]

theorem reads_satisfy {c : Char} {rest : List Char} (hleft : c :: rest <:+ text.toList)
    (haccepts : accepts c = true) :
    (satisfy accepts : Parser κ ρ Char).Reads text rules (c :: rest) c rest := by
  simp [Reads, Matcher.satisfy, Text.charAt?_positionOf hleft, haccepts,
    Text.positionOf_cons, Run.succeeded]

theorem rejects_satisfy (hleft : left <:+ text.toList)
    (haccepts : ∀ c ∈ left.head?, accepts c = false) :
    (satisfy accepts : Parser κ ρ Char).Rejects text rules left := by
  cases left with
  | nil => simp [Rejects, Matcher.satisfy, Text.charAt?_positionOf hleft, Run.failed]
  | cons c rest =>
    have hc : accepts c = false := haccepts c rfl
    simp [Rejects, Matcher.satisfy, Text.charAt?_positionOf hleft, hc, Run.failed]

theorem respects_satisfy (hleft : left <:+ text.toList) :
    (satisfy accepts : Parser κ ρ Char).Respects text rules
      (fun slice c ↦ slice = [c] ∧ accepts c = true) left := by
  cases left with
  | nil => exact .inl (rejects_satisfy hleft (by simp))
  | cons c rest =>
    cases haccepts : accepts c with
    | false => exact .inl (rejects_satisfy hleft (by simpa using haccepts))
    | true => exact .inr ⟨[c], c, rest, rfl, ⟨rfl, haccepts⟩, reads_satisfy hleft haccepts⟩

end Characters

/-! ## One parser after another -/

section Sequencing

variable {first : Parser κ ρ α} {second : Parser κ ρ β} {third : Parser κ ρ γ}
  {firstLanguage : Language α} {secondLanguage : Language β} {thirdLanguage : Language γ}
  {left middle late rest : List Char} {value : α} {other : β} {last : γ}

theorem Reads.convert {f : α → Except Fault β} (hfirst : first.Reads text rules left value rest)
    (hvalue : f value = .ok other) : (first.convert f).Reads text rules left other rest := by
  simp [Reads, Matcher.convert, Run.andThen, Run.outcome_branch_of_success hfirst,
    hvalue, Run.ofExcept, Run.succeeded]

theorem Rejects.convert {f : α → Except Fault β} (hfirst : first.Rejects text rules left) :
    (first.convert f).Rejects text rules left := by
  exact Run.outcome_branch_of_failure hfirst

theorem Respects.convert {f : α → Except Fault β} {language : Language β}
    (hfirst : first.Respects text rules firstLanguage left)
    (hvalue : ∀ slice value, slice <+: left → firstLanguage slice value →
      ∃ other, f value = .ok other ∧ language slice other) :
    (first.convert f).Respects text rules language left := by
  obtain hrejects | ⟨slice, value, rest, rfl, hslice, hreads⟩ := hfirst
  · exact .inl hrejects.convert
  · obtain ⟨other, hother, hlanguage⟩ := hvalue slice value (List.prefix_append _ _) hslice
    exact .inr ⟨slice, other, rest, rfl, hlanguage, hreads.convert hother⟩

theorem Reads.map {f : α → β} (hfirst : first.Reads text rules left value rest) :
    (first.map f).Reads text rules left (f value) rest :=
  hfirst.convert rfl

theorem Rejects.map {f : α → β} (hfirst : first.Rejects text rules left) :
    (first.map f).Rejects text rules left :=
  hfirst.convert

theorem Respects.map {f : α → β} {language : Language β}
    (hfirst : first.Respects text rules firstLanguage left)
    (hvalue : ∀ slice value, firstLanguage slice value → language slice (f value)) :
    (first.map f).Respects text rules language left :=
  hfirst.convert fun slice value _ hslice ↦ ⟨f value, rfl, hvalue slice value hslice⟩

theorem Reads.keepRight (hfirst : first.Reads text rules left value middle)
    (hsecond : second.Reads text rules middle other rest) :
    (first.keepRight second).Reads text rules left other rest := by
  exact (Run.outcome_branch_of_success hfirst).trans hsecond

theorem Rejects.keepRight (hfirst : first.Rejects text rules left) :
    (first.keepRight second).Rejects text rules left := by
  exact Run.outcome_branch_of_failure hfirst

theorem Reads.keepRight_rejects (hfirst : first.Reads text rules left value middle)
    (hsecond : second.Rejects text rules middle) :
    (first.keepRight second).Rejects text rules left := by
  exact (Run.outcome_branch_of_success hfirst).trans hsecond

theorem Respects.keepRight {language : Language β}
    (hfirst : first.Respects text rules firstLanguage left)
    (hsecond : ∀ slice value rest, left = slice ++ rest → firstLanguage slice value →
      second.Respects text rules secondLanguage rest)
    (hlanguage : ∀ slice value slice' other, firstLanguage slice value →
      secondLanguage slice' other → language (slice ++ slice') other) :
    (first.keepRight second).Respects text rules language left := by
  obtain hrejects | ⟨slice, value, middle, rfl, hslice, hreads⟩ := hfirst
  · exact .inl hrejects.keepRight
  obtain hrejects | ⟨slice', other, rest, rfl, hslice', hreads'⟩ := hsecond _ _ _ rfl hslice
  · exact .inl (hreads.keepRight_rejects hrejects)
  · exact .inr ⟨slice ++ slice', other, rest, (List.append_assoc ..).symm,
      hlanguage _ _ _ _ hslice hslice', hreads.keepRight hreads'⟩

theorem Reads.pair (hfirst : first.Reads text rules left value middle)
    (hsecond : second.Reads text rules middle other rest) :
    (first.pair second).Reads text rules left (value, other) rest := by
  simp [Reads, Matcher.pair, Run.andThen, Run.outcome_branch_of_success hfirst,
    Run.outcome_branch_of_success hsecond, Run.succeeded]

theorem Rejects.pair (hfirst : first.Rejects text rules left) :
    (first.pair second).Rejects text rules left := by
  exact Run.outcome_branch_of_failure hfirst

theorem Reads.pair_rejects (hfirst : first.Reads text rules left value middle)
    (hsecond : second.Rejects text rules middle) :
    (first.pair second).Rejects text rules left := by
  simp [Rejects, Matcher.pair, Run.andThen, Run.outcome_branch_of_success hfirst,
    Run.outcome_branch_of_failure hsecond, Run.failed]

theorem Respects.pair {language : Language (α × β)}
    (hfirst : first.Respects text rules firstLanguage left)
    (hsecond : ∀ slice value rest, left = slice ++ rest → firstLanguage slice value →
      second.Respects text rules secondLanguage rest)
    (hlanguage : ∀ slice value slice' other, firstLanguage slice value →
      secondLanguage slice' other → language (slice ++ slice') (value, other)) :
    (first.pair second).Respects text rules language left := by
  obtain hrejects | ⟨slice, value, middle, rfl, hslice, hreads⟩ := hfirst
  · exact .inl hrejects.pair
  obtain hrejects | ⟨slice', other, rest, rfl, hslice', hreads'⟩ := hsecond _ _ _ rfl hslice
  · exact .inl (hreads.pair_rejects hrejects)
  · exact .inr ⟨slice ++ slice', (value, other), rest, (List.append_assoc ..).symm,
      hlanguage _ _ _ _ hslice hslice', hreads.pair hreads'⟩

/-- Keeping the left one of two values is having both and forgetting the right one. -/
theorem matcher_keepLeft (first : Parser κ ρ α) (second : Parser κ ρ β) :
    (first.keepLeft second).matcher text rules =
      ((first.pair second).map Prod.fst).matcher text rules := by
  funext position
  simp only [matcher, map, Matcher.keepLeft, Matcher.pair, Matcher.convert, Run.andThen_andThen,
    Run.succeeded_andThen, Run.ofExcept]

theorem Reads.keepLeft (hfirst : first.Reads text rules left value middle)
    (hsecond : second.Reads text rules middle other rest) :
    (first.keepLeft second).Reads text rules left value rest := by
  rw [Reads, matcher_keepLeft]
  exact (hfirst.pair hsecond).map

theorem Rejects.keepLeft (hfirst : first.Rejects text rules left) :
    (first.keepLeft second).Rejects text rules left := by
  rw [Rejects, matcher_keepLeft]
  exact hfirst.pair.map

theorem Reads.keepLeft_rejects (hfirst : first.Reads text rules left value middle)
    (hsecond : second.Rejects text rules middle) :
    (first.keepLeft second).Rejects text rules left := by
  rw [Rejects, matcher_keepLeft]
  exact (hfirst.pair_rejects hsecond).map

theorem Respects.keepLeft {language : Language α}
    (hfirst : first.Respects text rules firstLanguage left)
    (hsecond : ∀ slice value rest, left = slice ++ rest → firstLanguage slice value →
      second.Respects text rules secondLanguage rest)
    (hlanguage : ∀ slice value slice' other, firstLanguage slice value →
      secondLanguage slice' other → language (slice ++ slice') value) :
    (first.keepLeft second).Respects text rules language left := by
  have hpair : (first.pair second).Respects text rules
      (fun slice values ↦ language slice values.1) left := hfirst.pair hsecond hlanguage
  simp only [Respects, Rejects, Reads, matcher_keepLeft]
  exact hpair.map fun _ _ hslice ↦ hslice

theorem matcher_between (first : Parser κ ρ α) (second : Parser κ ρ β) (third : Parser κ ρ γ) :
    (first.between second third).matcher text rules =
      ((first.keepRight second).keepLeft third).matcher text rules := by
  funext position
  simp only [matcher, Matcher.between, Matcher.keepLeft, Matcher.keepRight, Run.andThen_andThen]

theorem Reads.between (hfirst : first.Reads text rules left value middle)
    (hsecond : second.Reads text rules middle other late)
    (hthird : third.Reads text rules late last rest) :
    (first.between second third).Reads text rules left other rest := by
  rw [Reads, matcher_between]
  exact (hfirst.keepRight hsecond).keepLeft hthird

theorem Rejects.between (hfirst : first.Rejects text rules left) :
    (first.between second third).Rejects text rules left := by
  rw [Rejects, matcher_between]
  exact hfirst.keepRight.keepLeft

theorem Reads.between_rejects (hfirst : first.Reads text rules left value middle)
    (hsecond : second.Rejects text rules middle) :
    (first.between second third).Rejects text rules left := by
  rw [Rejects, matcher_between]
  exact (hfirst.keepRight_rejects hsecond).keepLeft

theorem Reads.between_unclosed (hfirst : first.Reads text rules left value middle)
    (hsecond : second.Reads text rules middle other late)
    (hthird : third.Rejects text rules late) :
    (first.between second third).Rejects text rules left := by
  rw [Rejects, matcher_between]
  exact (hfirst.keepRight hsecond).keepLeft_rejects hthird

theorem Respects.between {language : Language β}
    (hfirst : first.Respects text rules firstLanguage left)
    (hsecond : ∀ slice value rest, left = slice ++ rest → firstLanguage slice value →
      second.Respects text rules secondLanguage rest)
    (hthird : ∀ slice value rest, left = slice ++ rest →
      (∃ opening body first, slice = opening ++ body ∧ firstLanguage opening first ∧
        secondLanguage body value) → third.Respects text rules thirdLanguage rest)
    (hlanguage : ∀ opening first body value closing last, firstLanguage opening first →
      secondLanguage body value → thirdLanguage closing last →
      language (opening ++ (body ++ closing)) value) :
    (first.between second third).Respects text rules language left := by
  simp only [Respects, Rejects, Reads, matcher_between]
  refine (hfirst.keepRight hsecond ?_).keepLeft hthird ?_
  · intro opening value body other hopening hbody
    exact ⟨opening, body, value, rfl, hopening, hbody⟩
  · rintro _ other closing last ⟨opening, body, value, rfl, hopening, hbody⟩ hclosing
    rw [List.append_assoc]
    exact hlanguage _ _ _ _ _ _ hopening hbody hclosing

end Sequencing

end Parser

end ParserCombinators
