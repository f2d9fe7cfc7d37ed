import Mathlib.Data.List.SplitBy
import ParserCombinators.Proofs.Expression.Longest

/-!
# Blanks around tokens

The spaced grammar reads the same trees as the plain one. Blanks can be left out of what it reads,
since they never separate two tokens that would grow together, and they can be put after any token
of what the plain grammar reads. On a text without blanks the two grammars agree.
-/

namespace ParserCombinators.Expression

open Character
open ParserCombinators.Parser

variable {tree : Expression} {slice spacing body gap : List Char} {tokens : List (List Char)}

/-- Runs of digits, runs of letters, and all other characters by themselves. -/
def tokensOf (slice : List Char) : List (List Char) := slice.splitBy joins

/-- The tokens in order, each with blanks after it. -/
inductive Spread : List (List Char) → List Char → Prop
  | nil : Spread [] []
  | cons {token gap slice : List Char} {tokens : List (List Char)} :
      (∀ c ∈ gap, isBlank c = true) → Spread tokens slice →
      Spread (token :: tokens) (token ++ (gap ++ slice))

def withoutBlanks (slice : List Char) : List Char := slice.filter fun c ↦ !isBlank c

/-- The spacing is the slice with blanks in front of it and after its tokens. -/
def IsSpacingOf (slice spacing : List Char) : Prop :=
  ∃ gap body, spacing = gap ++ body ∧ (∀ c ∈ gap, isBlank c = true) ∧ Spread (tokensOf slice) body

/-! ## Tokens -/

theorem tokensOf_run {accepts : Char → Bool} {run : List Char}
    (hjoins : ∀ a b, accepts a = true → accepts b = true → joins a b = true)
    (hrun : IsRun accepts run) : tokensOf run = [run] := by
  obtain ⟨hnonempty, haccepted⟩ := hrun
  have hpairwise : run.Pairwise fun a b ↦ joins a b = true :=
    List.pairwise_of_forall_mem_list fun a ha b hb ↦ hjoins a b (haccepted a ha) (haccepted b hb)
  exact List.splitBy_of_isChain hnonempty hpairwise.isChain

/-- A character that joins no other is a token between the tokens on its two sides. -/
theorem tokensOf_append_cons {c : Char} (hc : ∀ d, joins c d = false ∧ joins d c = false)
    (slice slice' : List Char) :
    tokensOf (slice ++ c :: slice') = tokensOf slice ++ [c] :: tokensOf slice' := by
  unfold tokensOf
  rw [List.splitBy_append_cons slice' fun a _ ↦ (hc a).2]
  have hlast : ∀ a ∈ [c].getLast?, ∀ d ∈ slice'.head?, joins a d = false := by
    intro a ha d _
    obtain rfl : c = a := Option.some.inj ha
    exact (hc d).1
  have htail := List.splitBy_append hlast
  rw [List.singleton_append] at htail
  rw [htail]
  rfl

theorem joins_symbol (operator : Operator) (c : Char) :
    joins operator.symbol c = false ∧ joins c operator.symbol = false := by
  simp [joins]

theorem joins_of_neither {c : Char} (hdigit : isDigit c = false) (hletter : isLetter c = false)
    (d : Char) : joins c d = false ∧ joins d c = false := by
  simp [joins, hdigit, hletter]

theorem spread_append {tokens' : List (List Char)} :
    Spread (tokens ++ tokens') spacing ↔
      ∃ first second, spacing = first ++ second ∧ Spread tokens first ∧ Spread tokens' second := by
  constructor
  · intro hspread
    induction tokens generalizing spacing with
    | nil => exact ⟨[], spacing, rfl, .nil, hspread⟩
    | cons token tokens ih =>
      obtain _ | @⟨_, gap, slice, _, hgap, hslice⟩ := hspread
      obtain ⟨first, second, rfl, hfirst, hsecond⟩ := ih hslice
      exact ⟨token ++ (gap ++ first), second, by simp, .cons hgap hfirst, hsecond⟩
  · rintro ⟨first, second, rfl, hfirst, hsecond⟩
    induction hfirst with
    | nil => exact hsecond
    | cons hgap _ ih => simpa using Spread.cons hgap ih

theorem spread_singleton {token : List Char} :
    Spread [token] spacing ↔ ∃ gap, spacing = token ++ gap ∧ ∀ c ∈ gap, isBlank c = true := by
  constructor
  · rintro (_ | @⟨_, gap, _, _, hgap, hrest⟩)
    cases hrest
    exact ⟨gap, by rw [List.append_nil], hgap⟩
  · rintro ⟨gap, rfl, hgap⟩
    have hspread : Spread [token] (token ++ (gap ++ [])) := .cons hgap .nil
    rwa [List.append_nil] at hspread

/-! ## Putting blanks in -/

theorem isGap_true : IsGap true gap ↔ ∀ c ∈ gap, isBlank c = true := by simp [IsGap]

theorem spread_operation {operator : Operator} {slice' : List Char}
    (hspread : Spread (tokensOf (slice ++ operator.symbol :: slice')) spacing) :
    ∃ first gap second, spacing = first ++ operator.symbol :: (gap ++ second) ∧ IsGap true gap ∧
      Spread (tokensOf slice) first ∧ Spread (tokensOf slice') second := by
  rw [tokensOf_append_cons (joins_symbol operator), spread_append] at hspread
  obtain ⟨first, _, rfl, hfirst, hsecond⟩ := hspread
  obtain _ | @⟨_, gap, second, _, hgap, hsecond⟩ := hsecond
  exact ⟨first, gap, second, rfl, isGap_true.2 hgap, hfirst, hsecond⟩

theorem spread_parentheses (hspread : Spread (tokensOf ('(' :: (slice ++ [')']))) spacing) :
    ∃ gap body gap', spacing = '(' :: (gap ++ (body ++ ')' :: gap')) ∧ IsGap true gap ∧
      Spread (tokensOf slice) body ∧ IsGap true gap' := by
  have hopening := tokensOf_append_cons (joins_of_neither (c := '(') (by decide) (by decide)) []
    (slice ++ [')'])
  have hclosing := tokensOf_append_cons (joins_of_neither (c := ')') (by decide) (by decide))
    slice []
  rw [List.nil_append] at hopening
  rw [hopening, hclosing] at hspread
  obtain _ | @⟨_, gap, inner, _, hgap, hinner⟩ := hspread
  obtain ⟨body, last, rfl, hbody, hlast⟩ := spread_append.1 hinner
  obtain ⟨gap', rfl, hgap'⟩ := spread_singleton.1 hlast
  exact ⟨gap, body, gap', rfl, isGap_true.2 hgap, hbody, isGap_true.2 hgap'⟩

theorem Derives.spells_spread {level : Level} (hderives : Derives level slice tree)
    (hspread : Spread (tokensOf slice) spacing) : Spells true level spacing tree := by
  induction hderives generalizing spacing with
  | constant hdigits =>
    have htokens := tokensOf_run (fun a b ha hb ↦ by simp [joins, ha, hb]) hdigits
    rw [htokens, spread_singleton] at hspread
    obtain ⟨gap, rfl, hgap⟩ := hspread
    exact .constant hdigits (isGap_true.2 hgap)
  | identifier hletters =>
    have htokens := tokensOf_run (fun a b ha hb ↦ by simp [joins, ha, hb]) hletters
    rw [htokens, spread_singleton] at hspread
    obtain ⟨gap, rfl, hgap⟩ := hspread
    exact .identifier hletters (isGap_true.2 hgap)
  | parentheses _ ih =>
    obtain ⟨gap, body, gap', rfl, hgap, hbody, hgap'⟩ := spread_parentheses hspread
    exact .parentheses hgap (ih hbody) hgap'
  | factor _ ih => exact .operand (by decide) (ih hspread)
  | term _ ih => exact .operand (by decide) (ih hspread)
  | @product _ _ _ _ operator hoperator _ _ ihLeft ihRight =>
    obtain ⟨first, gap, second, rfl, hgap, hfirst, hsecond⟩ := spread_operation hspread
    obtain rfl | rfl := hoperator
    · exact .operation .multiply (ihLeft hfirst) hgap (ihRight hsecond)
    · exact .operation .divide (ihLeft hfirst) hgap (ihRight hsecond)
  | @sum _ _ _ _ operator hoperator _ _ ihLeft ihRight =>
    obtain ⟨first, gap, second, rfl, hgap, hfirst, hsecond⟩ := spread_operation hspread
    obtain rfl | rfl := hoperator
    · exact .operation .add (ihLeft hfirst) hgap (ihRight hsecond)
    · exact .operation .subtract (ihLeft hfirst) hgap (ihRight hsecond)

theorem document_of_isSpacingOf (hderives : Derives .expression slice tree)
    (hspacing : IsSpacingOf slice spacing) : Document true spacing tree := by
  obtain ⟨gap, body, rfl, hgap, hspread⟩ := hspacing
  exact ⟨gap, body, rfl, isGap_true.2 hgap, hderives.spells_spread hspread⟩

/-! ## Leaving blanks out -/

theorem Document.derives {spaced : Bool} (hdocument : Document spaced slice tree) :
    Derives .expression (withoutGaps spaced slice) tree := by
  obtain ⟨gap, body, rfl, hgap, hbody⟩ := hdocument
  rw [withoutGaps_append, withoutGaps_of_isGap hgap]
  exact hbody.derives

theorem document_iff_derives {spaced : Bool} (hslice : ∀ c ∈ slice, isBlank c = false) :
    Document spaced slice tree ↔ Derives .expression slice tree := by
  constructor
  · intro hdocument
    have hderives := hdocument.derives
    rwa [withoutGaps_of_not_blank hslice] at hderives
  · intro hderives
    exact ⟨[], slice, rfl, isGap_nil spaced, hderives.spells spaced⟩

theorem parse_whole {spaced : Bool} {text : Text} :
    (parse spaced text).outcome = .success tree text.size ↔ Document spaced text.toList tree := by
  constructor
  · intro hparse
    have hderives := (parse_eq_success_iff.1 hparse).derives
    rwa [Int.toNat_natCast, ← Array.length_toList, List.take_length] at hderives
  · intro hdocument
    exact parse_eq_success_iff.2 (isLongestPrefix_whole hdocument)

theorem parse_eq_of_no_blank {text : Text} (htext : ∀ c ∈ text, isBlank c = false) :
    (parse true text).outcome = (parse false text).outcome := by
  have hsame (length : Nat) (tree : Expression) :
      Document true (text.toList.take length) tree ↔
        Document false (text.toList.take length) tree := by
    have hprefix : ∀ c ∈ text.toList.take length, isBlank c = false :=
      fun c hc ↦ htext c (Array.mem_toList_iff.1 (List.mem_of_mem_take hc))
    rw [document_iff_derives hprefix, document_iff_derives hprefix]
  by_cases hsome : HasPrefix (Document false) text
  · obtain ⟨tree, position, hlongest⟩ := hsome.exists_longest
    rw [parse_eq_success_iff.2 hlongest, parse_eq_success_iff]
    exact hlongest.congr hsame
  · rw [parse_eq_failure_iff.2 hsome, parse_eq_failure_iff]
    rintro ⟨length, tree, htree⟩
    exact hsome ⟨length, tree, (hsame length tree).1 htree⟩

theorem parse_spaced_of_plain :
    (∀ text tree position, (parse true text).outcome = .success tree position →
      (parse false (withoutBlanks (text.toList.take position.toNat)).toArray).outcome =
        .success tree (withoutBlanks (text.toList.take position.toNat)).length) ∧
    (∀ text tree, (parse false text).outcome = .success tree text.size →
      ∀ spacing : Text, IsSpacingOf text.toList spacing.toList →
        (parse true spacing).outcome = .success tree spacing.size) ∧
    ∀ text, (∀ c ∈ text, isBlank c = false) →
      (parse true text).outcome = (parse false text).outcome := by
  refine ⟨?_, ?_, fun text htext ↦ parse_eq_of_no_blank htext⟩
  · intro text tree position hparse
    have hderives := (parse_eq_success_iff.1 hparse).derives.derives
    exact parse_whole.2 (document_false_iff.2 hderives)
  · intro text tree hparse spacing hspacing
    have hderives := document_false_iff.1 (parse_whole.1 hparse)
    exact parse_whole.2 (document_of_isSpacingOf hderives hspacing)

/-- A product with a blank in it is read like the product without it. -/
theorem parse_spaced_product :
    (parse false #['x', '*', 'y']).outcome =
      .success (.operation (.identifier "x") .multiply (.identifier "y")) 3 ∧
    (parse true #['x', ' ', '*', 'y']).outcome =
      .success (.operation (.identifier "x") .multiply (.identifier "y")) 4 := by
  have hempty : ∀ c ∈ [], isBlank c = true := List.forall_mem_nil _
  have hspread : Spread [['x'], ['*'], ['y']]
      (['x'] ++ ([' '] ++ (['*'] ++ ([] ++ (['y'] ++ ([] ++ [])))))) :=
    .cons (List.forall_mem_singleton.2 (by decide)) (.cons hempty (.cons hempty .nil))
  constructor
  · exact parse_spaced_of_plain.1 #['x', ' ', '*', 'y', ')'] _ 4 (by decide +kernel)
  · exact parse_spaced_of_plain.2.1 #['x', '*', 'y'] _ (by decide +kernel) #['x', ' ', '*', 'y']
      ⟨[], _, rfl, hempty, hspread⟩

end ParserCombinators.Expression
