import ParserCombinators.Proofs.Expression.Completeness
import ParserCombinators.Proofs.Parser.Longest

/-!
# Parsing finds the longest expression

A slice that no longer one continues is followed by nothing that belongs to it: a character that
joins its last token, a blank, or an operator with its operand would each make a longer slice. So
the parser reads the longest prefix that the grammar derives, and it fails only if there is none.
-/

namespace ParserCombinators.Expression

open Character
open ParserCombinators.Parser

variable {κ ρ : Type} {text : Text} {rules : κ → Matcher ρ} {spaced : Bool} {level : Level}
  {tree : Expression} {gap slice body left rest : List Char}

/-! ## Longer slices -/

theorem Spells.append_gap {c : Char} (hspells : Spells spaced level slice tree)
    (hc : IsGap spaced [c]) : Spells spaced level (slice ++ [c]) tree := by
  induction hspells with
  | constant hdigits hgap =>
    rw [List.append_assoc]
    exact .constant hdigits (isGap_append.2 ⟨hgap, hc⟩)
  | identifier hletters hgap =>
    rw [List.append_assoc]
    exact .identifier hletters (isGap_append.2 ⟨hgap, hc⟩)
  | parentheses hgap hslice hgap' =>
    simpa using Spells.parentheses hgap hslice (isGap_append.2 ⟨hgap', hc⟩)
  | operand hlevel _ ih => exact .operand hlevel ih
  | operation operator hleft hgap _ _ ih => simpa using Spells.operation operator hleft hgap ih

theorem isBlank_eq_false_of_joins {a b : Char} (hjoins : joins a b = true) :
    isBlank a = false := by
  simp only [joins, Bool.or_eq_true, Bool.and_eq_true] at hjoins
  obtain ⟨ha, -⟩ | ⟨ha, -⟩ := hjoins
  · exact isBlank_eq_false_of_isDigit ha
  · exact isBlank_eq_false_of_isLetter ha

/-- A last character that is no blank comes before an empty gap. -/
theorem mem_of_mem_getLast? {a : Char} (ha : a ∈ (slice ++ gap).getLast?)
    (hblank : isBlank a = false) (hgap : IsGap spaced gap) : a ∈ slice ∧ gap = [] := by
  cases gap with
  | nil =>
    rw [List.append_nil] at ha
    exact ⟨List.mem_of_mem_getLast? ha, rfl⟩
  | cons c gap =>
    rw [List.getLast?_append_of_ne_nil _ (List.cons_ne_nil c gap)] at ha
    have := (hgap a (List.mem_of_mem_getLast? ha)).2
    rw [hblank] at this
    cases this

theorem Spells.exists_append_token {a c : Char} (hspells : Spells spaced level slice tree)
    (ha : a ∈ slice.getLast?) (hjoins : joins a c = true) :
    ∃ other, Spells spaced level (slice ++ [c]) other := by
  have hblank := isBlank_eq_false_of_joins hjoins
  have hclasses := hjoins
  simp only [joins, Bool.or_eq_true, Bool.and_eq_true] at hclasses
  induction hspells with
  | constant hdigits hgap =>
    obtain ⟨hmem, rfl⟩ := mem_of_mem_getLast? ha hblank hgap
    obtain ⟨-, hc⟩ | ⟨hletter, -⟩ := hclasses
    · rw [List.append_nil]
      have hlonger := Spells.constant (hdigits.append_singleton hc) (isGap_nil spaced)
      exact ⟨_, by simpa using hlonger⟩
    · rw [isLetter_eq_false_of_isDigit (hdigits.accepted a hmem)] at hletter
      cases hletter
  | identifier hletters hgap =>
    obtain ⟨hmem, rfl⟩ := mem_of_mem_getLast? ha hblank hgap
    obtain ⟨hdigit, -⟩ | ⟨-, hc⟩ := hclasses
    · rw [isDigit_eq_false_of_isLetter (hletters.accepted a hmem)] at hdigit
      cases hdigit
    · rw [List.append_nil]
      have hlonger := Spells.identifier (hletters.append_singleton hc) (isGap_nil spaced)
      exact ⟨_, by simpa using hlonger⟩
  | @parentheses gap slice gap' tree _ _ hgap' _ =>
    have hsplit : '(' :: (gap ++ (slice ++ ')' :: gap')) =
      ('(' :: (gap ++ slice) ++ [')']) ++ gap' := by simp
    rw [hsplit] at ha
    obtain ⟨-, rfl⟩ := mem_of_mem_getLast? ha hblank hgap'
    rw [List.append_nil, List.getLast?_append_of_ne_nil _ (List.cons_ne_nil _ _)] at ha
    obtain rfl : ')' = a := Option.some.inj ha
    rw [show isDigit ')' = false by decide, show isLetter ')' = false by decide] at hclasses
    simp at hclasses
  | operand hlevel _ ih =>
    obtain ⟨other, hother⟩ := ih ha
    exact ⟨other, .operand hlevel hother⟩
  | @operation operator slice gap slice' left right hleft hgap hright _ ih =>
    obtain ⟨d, tail, rfl, -⟩ := hright.exists_cons
    have hsplit : slice ++ operator.symbol :: (gap ++ d :: tail) =
      (slice ++ operator.symbol :: gap) ++ d :: tail := by simp
    rw [hsplit, List.getLast?_append_of_ne_nil _ (List.cons_ne_nil _ _)] at ha
    obtain ⟨other, hother⟩ := ih ha
    exact ⟨_, by simpa using Spells.operation operator hleft hgap hother⟩

/-- A product goes on in the last term of the expression. -/
theorem Spells.exists_append_product {operator : Operator} {slice' : List Char}
    {right : Expression} (hspells : Spells spaced .expression slice tree)
    (hoperator : operator.level = .term) (hgap : IsGap spaced gap)
    (hright : Spells spaced .factor slice' right) :
    ∃ other, Spells spaced .expression (slice ++ operator.symbol :: (gap ++ slice')) other := by
  have hproduct {slice : List Char} {tree : Expression} (hterm : Spells spaced .term slice tree) :
      Spells spaced .term (slice ++ operator.symbol :: (gap ++ slice'))
        (.operation tree operator right) := by
    rw [← hoperator] at hterm ⊢
    exact .operation operator hterm hgap (by rwa [hoperator])
  generalize hlevel : Level.expression = level at hspells
  cases hspells with
  | constant => cases hlevel
  | identifier => cases hlevel
  | parentheses => cases hlevel
  | operand _ hterm =>
    subst hlevel
    exact ⟨_, .operand (by decide) (hproduct hterm)⟩
  | @operation sum slice gap' last left operand hleft hgap' hlast =>
    have hterm : sum.level.operand = .term := by rw [← hlevel]; rfl
    rw [hterm] at hlast
    have hsum := Spells.operation sum hleft hgap' (hterm ▸ hproduct hlast)
    rw [← hlevel] at hsum ⊢
    exact ⟨_, by simpa using hsum⟩

theorem Spells.exists_append_pair {operator : Operator} {slice' : List Char} {right : Expression}
    (hspells : Spells spaced .expression slice tree) (hgap : IsGap spaced gap)
    (hright : Spells spaced operator.level.operand slice' right) :
    ∃ other, Spells spaced .expression (slice ++ operator.symbol :: (gap ++ slice')) other := by
  by_cases hoperator : operator.level = .expression
  · rw [← hoperator] at hspells ⊢
    exact ⟨_, .operation operator hspells hgap hright⟩
  · have hterm : operator.level = .term := by
      cases operator <;> first | rfl | exact absurd rfl hoperator
    rw [hterm] at hright
    exact hspells.exists_append_product hterm hgap hright

/-! ## Reading the longest slice -/

theorem reads_grammar {rules : κ → Matcher ρ} (hgap : IsGap spaced gap)
    (hbody : Spells spaced .expression body tree)
    (hleft : gap ++ (body ++ rest) <:+ text.toList) (hdetached : Detached spaced body rest)
    (hnone : ∀ level, NoPair spaced level rest) :
    (grammar spaced).Reads text rules (gap ++ (body ++ rest)) tree rest := by
  have hbodyLeft : body ++ rest <:+ text.toList := (List.suffix_append gap _).trans hleft
  have hrest : rest <:+ body ++ rest := List.suffix_append body rest
  have hresumes : Resumes text ((rule spaced).nested text (body ++ rest).length) spaced .expression
      tree rest tree rest :=
    resumes_self (hrest.trans hbodyLeft) hrest.length_le (hnone .expression)
  have hread : (recursive (rule spaced) : Parser κ ρ Expression).Reads text rules (body ++ rest)
      tree rest :=
    reads_recursive.2 (reads_of_spells hbody hbodyLeft le_rfl hdetached (hnone .term) hresumes)
  cases spaced with
  | false =>
    rw [isGap_false.1 hgap]
    exact hread
  | true =>
    have hblanks : (blanks : Parser κ ρ (List Char)).Reads text rules (gap ++ (body ++ rest)) gap
        (body ++ rest) := reads_many_satisfy hleft (fun c hc ↦ (hgap c hc).2) hbody.head_not_blank
    exact hblanks.keepRight hread

theorem readsLongest_grammar {rules : κ → Matcher ρ} :
    (grammar spaced).ReadsLongest text rules (Document spaced) text.toList := by
  rintro _ rest tree hsplit ⟨gap, body, rfl, hgap, hbody⟩ hlongest
  -- A longer body makes a longer document.
  have hnoBody : ∀ more rest' other, rest = more ++ rest' → more ≠ [] →
      ¬Spells spaced .expression (body ++ more) other := by
    intro more rest' other hmore hne hother
    exact hlongest more rest' other hmore hne ⟨gap, body ++ more, by simp, hgap, hother⟩
  have hdetached : Detached spaced body rest := by
    constructor
    · intro a ha c hc
      apply Bool.eq_false_iff.2
      intro hjoins
      obtain ⟨rest', rfl⟩ := List.head?_eq_some_iff.1 hc
      obtain ⟨other, hother⟩ := hbody.exists_append_token ha hjoins
      exact hnoBody [c] rest' other rfl (List.cons_ne_nil c []) hother
    · intro hspaced c hc
      apply Bool.eq_false_iff.2
      intro hblank
      obtain ⟨rest', rfl⟩ := List.head?_eq_some_iff.1 hc
      have hother : Spells spaced .expression (body ++ [c]) tree :=
        hbody.append_gap fun d hd ↦ ⟨hspaced, List.mem_singleton.1 hd ▸ hblank⟩
      exact hnoBody [c] rest' tree rfl (List.cons_ne_nil c []) hother
  have hnone : ∀ level, NoPair spaced level rest := by
    rintro _ operator gap' slice rest' right rfl hgap' rfl hright
    obtain ⟨other, hother⟩ := hbody.exists_append_pair hgap' hright
    exact hnoBody (operator.symbol :: (gap' ++ slice)) rest' other (by simp)
      (List.cons_ne_nil _ _) hother
  rw [List.append_assoc] at hsplit
  have hleft : gap ++ (body ++ rest) <:+ text.toList := hsplit ▸ List.suffix_rfl
  rw [hsplit]
  exact reads_grammar hgap hbody hleft hdetached hnone

theorem parse_eq_success_iff {position : Int} :
    (parse spaced text).outcome = .success tree position ↔
      IsLongestPrefix (Document spaced) text tree position :=
  outcome_eq_success_iff (respects_grammar List.suffix_rfl) readsLongest_grammar

theorem parse_eq_failure_iff :
    (parse spaced text).outcome = .failure ↔ ¬HasPrefix (Document spaced) text :=
  outcome_eq_failure_iff (respects_grammar List.suffix_rfl) readsLongest_grammar

/-- Two trees for one slice would both be what a parser reads. -/
theorem Document.unique {other : Expression} (hfirst : Document spaced slice tree)
    (hsecond : Document spaced slice other) : tree = other := by
  have hread {tree : Expression} (hdocument : Document spaced slice tree) :
      (parse spaced slice.toArray).outcome = .success tree slice.toArray.size :=
    parse_eq_success_iff.2 (isLongestPrefix_whole hdocument)
  have hsame := (hread hfirst).symm.trans (hread hsecond)
  rw [Outcome.success.injEq] at hsame
  exact hsame.1

theorem document_false : Document false = Derives .expression := by
  funext slice tree
  exact propext document_false_iff

theorem parse_plain_iff_longest (text : Text) :
    (∀ tree position, (parse false text).outcome = .success tree position ↔
      IsLongestPrefix (Derives .expression) text tree position) ∧
    ((parse false text).outcome = .failure ↔ ¬HasPrefix (Derives .expression) text) ∧
    ∀ slice first second, Derives .expression slice first → Derives .expression slice second →
      first = second := by
  rw [← document_false]
  exact ⟨fun _ _ ↦ parse_eq_success_iff, parse_eq_failure_iff,
    fun _ _ _ hfirst hsecond ↦ hfirst.unique hsecond⟩

/-- A closing parenthesis that nothing opened is left alone. -/
theorem isLongestPrefix_difference :
    IsLongestPrefix (Derives .expression) #['x', '-', 'y', ')']
      (.operation (.identifier "x") .subtract (.identifier "y")) 3 :=
  ((parse_plain_iff_longest _).1 _ _).1 (by decide +kernel)

end ParserCombinators.Expression
