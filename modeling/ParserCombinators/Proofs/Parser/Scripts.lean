import ParserCombinators.Proofs.Parser.Alternatives
import ParserCombinators.Proofs.Parser.Tokens

/-!
# Digits of other scripts

Every digit of a text is exchanged for the ASCII digit of the same value. A parser ignores scripts
if it does the same on both texts. An integer does, because the values of the digits are all that it
keeps of them, and so does a character class without digits. What is put together from parsers that
ignore scripts ignores them as well.
-/

namespace ParserCombinators

namespace Character

/-- The ASCII digit of the same value; any other character as it is. -/
def asciiDigit (c : Char) : Char := if isDigit c then (digitValue c).digitChar else c

theorem asciiDigit_of_not_isDigit {c : Char} (hc : isDigit c = false) : asciiDigit c = c :=
  if_neg (Bool.eq_false_iff.1 hc)

theorem digitValue_asciiDigit (c : Char) : digitValue (asciiDigit c) = digitValue c := by
  rw [asciiDigit]
  split
  case isTrue => exact digitValue_digitChar (Nat.lt_succ_of_le (digitValue_le_nine c))
  case isFalse => rfl

theorem isDigit_asciiDigit (c : Char) : isDigit (asciiDigit c) = isDigit c := by
  rw [asciiDigit]
  split
  case isTrue hc =>
    rw [hc]
    exact isDigit_digitChar (Nat.lt_succ_of_le (digitValue_le_nine c))
  case isFalse => rfl

end Character

open Character

def Text.withAsciiDigits (text : Text) : Text := text.map asciiDigit

theorem Text.charAt?_withAsciiDigits (text : Text) (position : Int) :
    text.withAsciiDigits.charAt? position = (text.charAt? position).map asciiDigit := by
  rw [charAt?, charAt?, withAsciiDigits]
  split
  case isTrue => exact Array.getElem?_map
  case isFalse => rfl

theorem Text.remaining_withAsciiDigits (text : Text) (position : Int) :
    text.withAsciiDigits.remaining position = text.remaining position := by
  rw [remaining, remaining, withAsciiDigits, Array.size_map]

/-! ## Conversions of repeated values -/

namespace Matcher

variable {α β : Type} {text : Text}

/-- The matcher with a function applied to its value. -/
def map (f : α → β) (inner : Matcher α) : Matcher β := convert inner fun value ↦ .ok (f value)

theorem map_map {γ : Type} (g : β → γ) (f : α → β) (inner : Matcher α) :
    map g (map f inner) = map (fun value ↦ g (f value)) inner :=
  funext fun position ↦ (inner position).andThen_andThen _ _

theorem round_map (f : α → β) (inner : Matcher α) (rest : Matcher (List α)) :
    round (map f inner) (map (List.map f) rest) = map (List.map f) (round inner rest) := by
  funext position
  simp only [round, map, convert, Run.andThen, Run.branch_branch, Run.ofExcept,
    Run.branch_succeeded, Run.branch_failed, List.map_cons, List.map_nil]

theorem rounds_map (f : α → β) (inner : Matcher α) (count : Nat) :
    rounds (map f inner) count = map (List.map f) (rounds inner count) := by
  induction count with
  | zero => exact round_map f inner fun _ ↦ .endless
  | succ count ih =>
    rw [rounds, ih]
    exact round_map f inner (rounds inner count)

theorem many_map (f : α → β) (inner : Matcher α) :
    many text (map f inner) = map (List.map f) (many text inner) :=
  funext fun position ↦ congrFun (rounds_map f inner (text.remaining position)) position

theorem many1_map (f : α → β) (inner : Matcher α) :
    many1 text (map f inner) = map (List.map f) (many1 text inner) := by
  funext position
  rw [many1, many_map]
  simp only [map, convert, many1, Run.andThen_andThen, Run.ofExcept, Run.succeeded_andThen,
    List.map_cons]

theorem many_withAsciiDigits (inner : Matcher α) :
    many text.withAsciiDigits inner = many text inner := by
  funext position
  rw [many, many, Text.remaining_withAsciiDigits]

theorem many1_withAsciiDigits (inner : Matcher α) :
    many1 text.withAsciiDigits inner = many1 text inner := by
  funext position
  rw [many1, many1, many_withAsciiDigits]

theorem chainLeft_withAsciiDigits (term : Matcher α)
    (operator : Matcher (α → α → Except Fault α)) :
    chainLeft text.withAsciiDigits term operator = chainLeft text term operator := by
  funext position
  simp only [chainLeft, Text.remaining_withAsciiDigits]

theorem satisfy_isDigit_withAsciiDigits :
    satisfy text.withAsciiDigits isDigit = map asciiDigit (satisfy text isDigit) := by
  funext position
  simp only [satisfy, map, convert, Text.charAt?_withAsciiDigits]
  cases text.charAt? position with
  | none => rfl
  | some c =>
    simp only [Option.map_some, isDigit_asciiDigit]
    split <;> rfl

end Matcher

namespace Parser

variable {κ ρ α β γ τ : Type}

/-- The parser does the same on a text and on the one with ASCII digits. -/
def IgnoresScripts (parser : Parser κ ρ α) : Prop :=
  ∀ text (rules : κ → Matcher ρ),
    parser.matcher text.withAsciiDigits rules = parser.matcher text rules

/-! ## Parsers for tokens -/

theorem ignoresScripts_satisfy {accepts : Char → Bool}
    (haccepts : ∀ c, isDigit c = true → accepts c = false) :
    (satisfy accepts : Parser κ ρ Char).IgnoresScripts := by
  intro text rules
  funext position
  simp only [matcher, Matcher.satisfy, Text.charAt?_withAsciiDigits]
  cases text.charAt? position with
  | none => rfl
  | some c =>
    cases hc : isDigit c with
    | false => rw [Option.map_some, asciiDigit_of_not_isDigit hc]
    | true => simp [haccepts c hc, haccepts _ ((isDigit_asciiDigit c).trans hc)]

theorem valueOfDigits_map_asciiDigit (digits : List Char) :
    valueOfDigits (digits.map asciiDigit) = valueOfDigits digits := by
  simp only [valueOfDigits, List.foldl_map, digitValue_asciiDigit]

theorem ignoresScripts_integer : (integer : Parser κ ρ Nat).IgnoresScripts := by
  intro text rules
  have hmatcher (text : Text) : (integer : Parser κ ρ Nat).matcher text rules =
      .map valueOfDigits (.many1 text (.satisfy text isDigit)) := rfl
  calc (integer : Parser κ ρ Nat).matcher text.withAsciiDigits rules
      = .map valueOfDigits (.many1 text (.map asciiDigit (.satisfy text isDigit))) := by
        rw [hmatcher, Matcher.satisfy_isDigit_withAsciiDigits, Matcher.many1_withAsciiDigits]
    _ = .map (fun digits ↦ valueOfDigits (digits.map asciiDigit))
          (.many1 text (.satisfy text isDigit)) := by rw [Matcher.many1_map, Matcher.map_map]
    _ = (integer : Parser κ ρ Nat).matcher text rules := by
        simp only [valueOfDigits_map_asciiDigit, hmatcher]

/-! ## Parsers put together -/

namespace IgnoresScripts

variable {first : Parser κ ρ α} {second : Parser κ ρ β} {third : Parser κ ρ γ}

theorem convert (hfirst : first.IgnoresScripts) (f : α → Except Fault β) :
    (first.convert f).IgnoresScripts :=
  fun text rules ↦ congrArg (Matcher.convert · f) (hfirst text rules)

theorem map (hfirst : first.IgnoresScripts) (f : α → β) : (first.map f).IgnoresScripts :=
  hfirst.convert _

theorem firstOf {others : List (Parser κ ρ α)}
    (hall : ∀ parser ∈ first :: others, parser.IgnoresScripts) :
    (first.firstOf others).IgnoresScripts := by
  intro text rules
  rw [matcher_firstOf, matcher_firstOf]
  have hmatchers := List.map_congr_left fun parser hparser ↦ hall parser hparser text rules
  exact congrArg Matcher.anyOf hmatchers

theorem orElse {other : Parser κ ρ α} (hfirst : first.IgnoresScripts)
    (hother : other.IgnoresScripts) : (first.orElse other).IgnoresScripts :=
  firstOf (by simp [hfirst, hother])

theorem keepRight (hfirst : first.IgnoresScripts) (hsecond : second.IgnoresScripts) :
    (first.keepRight second).IgnoresScripts :=
  fun text rules ↦ congrArg₂ Matcher.keepRight (hfirst text rules) (hsecond text rules)

theorem keepLeft (hfirst : first.IgnoresScripts) (hsecond : second.IgnoresScripts) :
    (first.keepLeft second).IgnoresScripts :=
  fun text rules ↦ congrArg₂ Matcher.keepLeft (hfirst text rules) (hsecond text rules)

theorem between (hfirst : first.IgnoresScripts) (hsecond : second.IgnoresScripts)
    (hthird : third.IgnoresScripts) : (first.between second third).IgnoresScripts := by
  intro text rules
  rw [matcher, matcher, hfirst, hsecond, hthird]

theorem many (hfirst : first.IgnoresScripts) : first.many.IgnoresScripts := by
  intro text rules
  rw [matcher, matcher, hfirst, Matcher.many_withAsciiDigits]

theorem many1 (hfirst : first.IgnoresScripts) : first.many1.IgnoresScripts := by
  intro text rules
  rw [matcher, matcher, hfirst, Matcher.many1_withAsciiDigits]

theorem chainLeft {operator : Parser κ ρ (α → α → Except Fault α)} (hfirst : first.IgnoresScripts)
    (hoperator : operator.IgnoresScripts) : (first.chainLeft operator).IgnoresScripts := by
  intro text rules
  rw [matcher, matcher, hfirst, hoperator, Matcher.chainLeft_withAsciiDigits]

/-- All references of a rule to itself are read on the same text. -/
theorem recursive {rule : Parser Unit τ τ} (hrule : rule.IgnoresScripts) :
    (Parser.recursive rule : Parser κ ρ τ).IgnoresScripts := by
  intro text rules
  funext position
  have hrules : rule.matcher text.withAsciiDigits = rule.matcher text := funext (hrule text)
  simp only [matcher, Matcher.recursive, hrules, Text.remaining_withAsciiDigits]

end IgnoresScripts

theorem ignoresScripts_forwarding (name : κ) : (forwarding name : Parser κ ρ ρ).IgnoresScripts :=
  fun _ _ ↦ rfl

theorem ignoresScripts_skipChar {expected : Char} (hexpected : isDigit expected = false) :
    (skipChar expected : Parser κ ρ Unit).IgnoresScripts := by
  apply IgnoresScripts.map
  apply ignoresScripts_satisfy
  intro c hc
  rw [beq_eq_false_iff_ne]
  rintro rfl
  rw [hc] at hexpected
  cases hexpected

theorem ignoresScripts_blanks : (blanks : Parser κ ρ (List Char)).IgnoresScripts :=
  (ignoresScripts_satisfy fun _ ↦ isBlank_eq_false_of_isDigit).many

theorem ignoresScripts_identifier : (identifier : Parser κ ρ String).IgnoresScripts :=
  (ignoresScripts_satisfy fun _ ↦ isLetter_eq_false_of_isDigit).many1.map _

end Parser

end ParserCombinators
