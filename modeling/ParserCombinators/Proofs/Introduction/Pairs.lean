import ParserCombinators.Introduction
import ParserCombinators.Proofs.Parser.Tokens

/-!
# Lists of pairs

A pair is written as a name, an equals sign and an integer in digits of any scripts, and the pairs
of a list have blanks in between. Such a list is read back whatever follows it, unless that goes on
with the last integer or with one more pair: blanks after the list and a pair that breaks off at any
place are given back.
-/

namespace ParserCombinators.Introduction

open Character
open ParserCombinators.Parser

/-- A pair as it is written; zeros may stand in front of the integer. -/
structure Pair where
  name : List Char
  digits : List Char
  name_isRun : IsRun isLetter name
  digits_isRun : IsRun isDigit digits

def Pair.text (pair : Pair) : List Char := pair.name ++ '=' :: pair.digits

def Pair.value (pair : Pair) : String × Nat := (String.ofList pair.name, decimalValue pair.digits)

/-- Any pair but the first one of a list. -/
structure FurtherPair where
  gap : List Char
  pair : Pair
  gap_isRun : IsRun isBlank gap

def FurtherPair.text (further : FurtherPair) : List Char := further.gap ++ further.pair.text

def FurtherPair.value (further : FurtherPair) : String × Nat := further.pair.value

def listText (first : Pair) (others : List FurtherPair) : List Char :=
  first.text ++ others.flatMap FurtherPair.text

def listValue (first : Pair) (others : List FurtherPair) : List (String × Nat) :=
  first.value :: others.map FurtherPair.value

/-- What may follow a list. It may well start with blanks, or with a part of a pair. -/
structure EndsList (rest : List Char) : Prop where
  digit : ∀ c ∈ rest.head?, isDigit c = false
  further : ∀ (further : FurtherPair) tail, rest ≠ further.text ++ tail

variable {κ ρ : Type} {text : Text} {left rest : List Char}

/-! ## One pair -/

theorem reads_keyValue (rules : κ → Matcher ρ) (pair : Pair)
    (hleft : pair.text ++ rest <:+ text.toList) (hrest : ∀ c ∈ rest.head?, isDigit c = false) :
    keyValue.Reads text rules (pair.text ++ rest) pair.value rest := by
  rw [Pair.text, List.append_assoc, List.cons_append] at hleft ⊢
  have hequals := (List.suffix_append pair.name _).trans hleft
  have hdigits := (List.suffix_cons '=' _).trans hequals
  have hstop : ∀ c ∈ ('=' :: (pair.digits ++ rest)).head?, isLetter c = false :=
    forall_mem_head?_cons (by decide) _
  have hname : identifier.Reads text rules _ (String.ofList pair.name) _ :=
    reads_identifier hleft pair.name_isRun hstop
  have hinteger : integer.Reads text rules _ (decimalValue pair.digits) rest :=
    reads_integer hdigits pair.digits_isRun hrest
  exact hname.step ((reads_skipChar hequals).step (hinteger.step reads_finish))

theorem respects_keyValue (rules : κ → Matcher ρ) (hleft : left <:+ text.toList) :
    keyValue.Respects text rules (fun slice value ↦ ∃ pair : Pair,
      slice = pair.text ∧ value = pair.value) left := by
  apply (respects_identifier hleft).step
  rintro letters name middle hsplit ⟨hletters, rfl⟩
  have hmiddle := Text.suffix_of_append hleft hsplit
  apply (respects_skipChar hmiddle).step
  rintro equals _ late hsplit' rfl
  have hlate := Text.suffix_of_append hmiddle hsplit'
  apply (respects_integer hlate).step
  rintro digits value rest - ⟨hdigits, rfl⟩
  apply respects_finish
  exact ⟨⟨letters, digits, hletters, hdigits⟩, by simp [Pair.text], rfl⟩

/-! ## One more pair -/

theorem reads_further (rules : κ → Matcher ρ) (further : FurtherPair)
    (hleft : further.text ++ rest <:+ text.toList) (hrest : ∀ c ∈ rest.head?, isDigit c = false) :
    (keepRight (stringOf blank) keyValue).Reads text rules (further.text ++ rest) further.value
      rest := by
  rw [FurtherPair.text, List.append_assoc] at hleft ⊢
  have hpair := (List.suffix_append further.gap _).trans hleft
  have hstop : ∀ c ∈ (further.pair.text ++ rest).head?, isBlank c = false := by
    intro c hc
    rw [Pair.text, List.append_assoc] at hc
    exact isBlank_eq_false_of_isLetter (further.pair.name_isRun.head_accepted c hc)
  have hgap : blank.many1.Reads text rules _ further.gap _ :=
    reads_many1_satisfy hleft further.gap_isRun hstop
  exact hgap.map.keepRight (reads_keyValue rules further.pair hpair hrest)

theorem respects_further (rules : κ → Matcher ρ) (hleft : left <:+ text.toList) :
    (keepRight (stringOf blank) keyValue).Respects text rules (fun slice value ↦
      ∃ further : FurtherPair, slice = further.text ∧ value = further.value) left := by
  have hgap : (stringOf blank).Respects text rules (fun gap _ ↦ IsRun isBlank gap) left :=
    (respects_many1_satisfy hleft).map fun _ _ hrun ↦ hrun.2
  refine hgap.keepRight (fun gap _ rest hsplit _ ↦
    respects_keyValue rules (Text.suffix_of_append hleft hsplit)) ?_
  rintro gap _ _ _ hrun ⟨pair, rfl, rfl⟩
  exact ⟨⟨gap, pair, hrun⟩, rfl, rfl⟩

/-! ## Lists -/

/-- The blanks of a further pair end the integer in front of them. -/
theorem EndsList.digit_others (hends : EndsList rest) (others : List FurtherPair) :
    ∀ c ∈ (others.flatMap FurtherPair.text ++ rest).head?, isDigit c = false := by
  cases others with
  | nil => exact hends.digit
  | cons further others =>
    intro c hc
    rw [List.flatMap_cons, FurtherPair.text, List.append_assoc, List.append_assoc] at hc
    exact isDigit_eq_false_of_isBlank (further.gap_isRun.head_accepted c hc)

/-- The round after the last pair fails at the blanks, the name, the equals sign or the digits, and
the list ends where this round started. -/
theorem reads_others (rules : κ → Matcher ρ) (others : List FurtherPair) (hends : EndsList rest)
    (hleft : others.flatMap FurtherPair.text ++ rest <:+ text.toList) :
    (keepRight (stringOf blank) keyValue).many.Reads text rules
      (others.flatMap FurtherPair.text ++ rest) (others.map FurtherPair.value) rest := by
  induction others with
  | nil =>
    apply Rejects.many
    apply (respects_further rules hleft).rejects
    rintro _ _ tail hsplit ⟨further, rfl, -⟩
    exact hends.further further tail hsplit
  | cons further others ih =>
    rw [List.flatMap_cons, List.append_assoc] at hleft ⊢
    have hothers := (List.suffix_append further.text _).trans hleft
    have hfirst := reads_further rules further hleft (hends.digit_others others)
    have hnonempty : further.text ≠ [] := by
      simp [FurtherPair.text, further.gap_isRun.nonempty]
    exact hfirst.many (length_lt_append hnonempty _) (ih hothers)

theorem reads_keyValues (rules : κ → Matcher ρ) (first : Pair) (others : List FurtherPair)
    (hends : EndsList rest) (hleft : listText first others ++ rest <:+ text.toList) :
    keyValues.Reads text rules (listText first others ++ rest) (listValue first others) rest := by
  rw [listText, List.append_assoc] at hleft ⊢
  have hothers := (List.suffix_append first.text _).trans hleft
  have hfirst := reads_keyValue rules first hleft (hends.digit_others others)
  exact hfirst.step ((reads_others rules others hends hothers).step reads_finish)

/-- A list is read as a whole, and what follows it is left alone. -/
theorem keyValues_of_listText (first : Pair) (others : List FurtherPair) (rest : List Char)
    (hends : EndsList rest) :
    (keyValues.run (listText first others ++ rest).toArray).outcome =
      .success (listValue first others) (listText first others).length :=
  Reads.outcome_run rfl (reads_keyValues Empty.elim first others hends List.suffix_rfl)

/-- The zero in front does not count, the digits are of two scripts, and the last pair breaks off
after its equals sign. -/
theorem keyValues_before_equals :
    EndsList [' ', 'c', '='] ∧
    (keyValues.run #['a', '=', '0', '1', '\t', ' ', 'b', '=', '٢', ' ', 'c', '=']).outcome =
      .success [("a", 1), ("b", 2)] 9 := by
  have hends : EndsList [' ', 'c', '='] := by
    refine ⟨forall_mem_head?_cons (by decide) _, fun further tail hrest ↦ ?_⟩
    -- A further pair has at least four characters.
    have hgap := List.length_pos_iff.2 further.gap_isRun.nonempty
    have hname := List.length_pos_iff.2 further.pair.name_isRun.nonempty
    have hdigits := List.length_pos_iff.2 further.pair.digits_isRun.nonempty
    have hlength := congrArg List.length hrest
    simp only [FurtherPair.text, Pair.text, List.length_append, List.length_cons,
      List.length_nil] at hlength
    omega
  let first : Pair := {
    name := ['a']
    digits := ['0', '1']
    name_isRun := isRun_singleton (by decide)
    digits_isRun := (isRun_singleton (by decide)).append_singleton (by decide) }
  let second : Pair := {
    name := ['b']
    digits := ['٢']
    name_isRun := isRun_singleton (by decide)
    digits_isRun := isRun_singleton (by decide) }
  let further : FurtherPair := {
    gap := ['\t', ' ']
    pair := second
    gap_isRun := (isRun_singleton (by decide)).append_singleton (by decide) }
  exact ⟨hends, keyValues_of_listText first [further] [' ', 'c', '='] hends⟩

end ParserCombinators.Introduction
