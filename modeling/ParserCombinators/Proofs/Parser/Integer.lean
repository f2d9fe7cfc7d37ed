import Mathlib.Algebra.BigOperators.Intervals
import Mathlib.Algebra.BigOperators.Ring.Finset
import Mathlib.Order.Bounds.Basic
import ParserCombinators.Proofs.Parser.Tokens

/-!
# The integer at a position

An integer is read where a digit stands, up to the first place without a digit. Each digit counts as
often as the power of ten for the digits behind it says, and there may be as many digits as there
are.
-/

namespace ParserCombinators

open Character
open Finset (range Ico)
open ParserCombinators.Parser (exists_longest_run)

/-- The value of the digit that an optional character is. -/
def digitValueOf (c : Option Char) : Nat := c.elim 0 digitValue

theorem decimalValue_eq_sum (digits : List Char) :
    decimalValue digits = ∑ index ∈ range digits.length,
      digitValueOf digits[index]? * 10 ^ (digits.length - 1 - index) := by
  induction digits using List.reverseRecOn with
  | nil => rfl
  | append_singleton digits c ih =>
    have hlast : digitValueOf (digits ++ [c])[digits.length]? *
        10 ^ (digits.length - digits.length) = digitValue c := by
      simp [digitValueOf]
    have hshifted : ∀ index ∈ range digits.length,
        digitValueOf (digits ++ [c])[index]? * 10 ^ (digits.length - index) =
          10 * (digitValueOf digits[index]? * 10 ^ (digits.length - 1 - index)) := by
      intro index hindex
      have hlt := Finset.mem_range.1 hindex
      have hpower : digits.length - index = digits.length - 1 - index + 1 := by omega
      rw [List.getElem?_append_left hlt, hpower, Nat.pow_succ]
      ring
    rw [decimalValue_append_singleton, ih, List.length_append, List.length_singleton,
      Nat.add_sub_cancel, Finset.sum_range_succ, hlast, Finset.sum_congr rfl hshifted,
      Finset.mul_sum]

/-! ## Digits by their places -/

namespace Text

variable {text : Text} {place : Nat} {digits rest : List Char}

def digitAt (text : Text) (place : Nat) : Nat := digitValueOf text[place]?

def HasDigitAt (text : Text) (place : Nat) : Prop := ∃ c ∈ text[place]?, isDigit c = true

instance : Decidable (text.HasDigitAt place) := Option.decidableExistsMem text[place]?

/-- The places behind a position where no run of digits goes on. -/
def breaks (text : Text) (place : Nat) : Set Nat :=
  {stop | place < stop ∧ (stop = text.size ∨ ¬text.HasDigitAt stop)}

/-- The digits from the place on, and what comes behind the last of them. -/
structure HasRunAt (text : Text) (place : Nat) (digits rest : List Char) : Prop where
  split : text.suffixFrom place = digits ++ rest
  digits_isRun : IsRun isDigit digits
  rest_head : ∀ c ∈ rest.head?, isDigit c = false

theorem getElem?_suffixFrom (text : Text) (place index : Nat) :
    (text.suffixFrom place)[index]? = text[place + index]? := by
  rw [suffixFrom, Int.toNat_natCast, List.getElem?_drop, Array.getElem?_toList]

theorem HasDigitAt.exists_hasRunAt (hdigit : text.HasDigitAt place) :
    ∃ digits rest, text.HasRunAt place digits rest := by
  obtain ⟨c, hc, hcDigit⟩ := hdigit
  obtain ⟨digits, rest, hsplit, hdigits, hrest⟩ :=
    exists_longest_run isDigit (text.suffixFrom place)
  have hhead : (text.suffixFrom place).head? = some c := by
    rw [List.head?_eq_getElem?, getElem?_suffixFrom, Nat.add_zero]
    exact hc
  refine ⟨digits, rest, hsplit, ⟨?_, hdigits⟩, hrest⟩
  rintro rfl
  rw [hsplit, List.nil_append] at hhead
  rw [hrest c hhead] at hcDigit
  cases hcDigit

namespace HasRunAt

variable (hrun : text.HasRunAt place digits rest)

include hrun

theorem size_eq : text.size = place + (digits.length + rest.length) := by
  have hlength := congrArg List.length hrun.split
  have hpos := List.length_pos_iff.2 hrun.digits_isRun.nonempty
  rw [suffixFrom, Int.toNat_natCast, List.length_drop, Array.length_toList, List.length_append]
    at hlength
  omega

theorem getElem?_place {index : Nat} (hindex : index < digits.length) :
    text[place + index]? = digits[index]? := by
  rw [← getElem?_suffixFrom, hrun.split, List.getElem?_append_left hindex]

theorem hasDigitAt {index : Nat} (hindex : index < digits.length) :
    text.HasDigitAt (place + index) := by
  refine ⟨digits[index], ?_, hrun.digits_isRun.accepted _ (List.getElem_mem hindex)⟩
  rw [hrun.getElem?_place hindex]
  exact List.getElem?_eq_getElem hindex

theorem stop_isLeast : IsLeast (text.breaks place) (place + digits.length) := by
  have hpos := List.length_pos_iff.2 hrun.digits_isRun.nonempty
  have hsize := hrun.size_eq
  constructor
  · refine ⟨by omega, or_iff_not_imp_left.2 fun hinside ⟨c, hc, hdigit⟩ ↦ ?_⟩
    rw [← getElem?_suffixFrom, hrun.split, List.getElem?_append_right (Nat.le_refl _),
      Nat.sub_self, ← List.head?_eq_getElem?] at hc
    rw [hrun.rest_head c hc] at hdigit
    cases hdigit
  · rintro stop ⟨hbehind, hbreak⟩
    by_contra hbefore
    obtain ⟨index, rfl⟩ := Nat.exists_eq_add_of_lt hbehind
    obtain hend | hnone := hbreak
    · omega
    · exact hnone (hrun.hasDigitAt (show index + 1 < digits.length by omega))

theorem decimalValue_eq : decimalValue digits = ∑ index ∈ Ico place (place + digits.length),
    text.digitAt index * 10 ^ (place + digits.length - 1 - index) := by
  rw [decimalValue_eq_sum, Finset.sum_Ico_eq_sum_range, Nat.add_sub_cancel_left]
  refine Finset.sum_congr rfl fun index hindex ↦ ?_
  have hpower : place + digits.length - 1 - (place + index) = digits.length - 1 - index := by omega
  rw [digitAt, hrun.getElem?_place (Finset.mem_range.1 hindex), hpower]

end HasRunAt

end Text

/-! ## Reading the integer -/

namespace Parser

variable {κ ρ : Type} {text : Text} {rules : κ → Matcher ρ} {place : Nat} {digits rest : List Char}

theorem outcome_integer_of_hasRunAt (hrun : text.HasRunAt place digits rest) :
    ((integer : Parser κ ρ Nat).matcher text rules place).outcome =
      .success (decimalValue digits) (place + digits.length : Nat) := by
  have hsize := hrun.size_eq
  have hleft : digits ++ rest <:+ text.toList := hrun.split ▸ text.suffixFrom_suffix place
  have hstart : text.positionOf (digits ++ rest) = place := by
    rw [Text.positionOf, List.length_append]
    omega
  have hstop : text.positionOf rest = (place + digits.length : Nat) := by
    rw [Text.positionOf]
    omega
  have hreads : (integer : Parser κ ρ Nat).Reads text rules (digits ++ rest) (decimalValue digits)
      rest := reads_integer hleft hrun.digits_isRun hrun.rest_head
  rwa [Reads, hstart, hstop] at hreads

theorem matcher_integer_of_not_hasDigitAt (hnone : ¬text.HasDigitAt place) :
    (integer : Parser κ ρ Nat).matcher text rules place = .failed := by
  have hdigit : Matcher.satisfy text isDigit place = .failed := by
    cases hc : text.charAt? place with
    | none => exact matcher_satisfy_outside hc isDigit
    | some c =>
      have hother : isDigit c = false :=
        Bool.eq_false_iff.2 fun hdigit ↦ hnone ⟨c, (Text.charAt?_eq_some.1 hc).2, hdigit⟩
      simp [Matcher.satisfy, hc, hother]
  simp [integer, map, digit, Matcher.convert, Matcher.many1, hdigit, Run.andThen]

/-- The integer parser fails where there is no digit. -/
theorem outcome_integer_eq_failure_iff :
    ((integer : Parser κ ρ Nat).matcher text rules place).outcome = .failure ↔
      ¬text.HasDigitAt place := by
  constructor
  · intro hfailure hdigit
    obtain ⟨digits, rest, hrun⟩ := hdigit.exists_hasRunAt
    rw [outcome_integer_of_hasRunAt hrun] at hfailure
    cases hfailure
  · intro hnone
    rw [matcher_integer_of_not_hasDigitAt hnone]
    rfl

theorem exists_outcome_integer (hdigit : text.HasDigitAt place) :
    ∃ stop : Nat, IsLeast (text.breaks place) stop ∧
      ((integer : Parser κ ρ Nat).matcher text rules place).outcome =
        .success (∑ index ∈ Ico place stop, text.digitAt index * 10 ^ (stop - 1 - index)) stop := by
  obtain ⟨digits, rest, hrun⟩ := hdigit.exists_hasRunAt
  refine ⟨place + digits.length, hrun.stop_isLeast, ?_⟩
  rw [outcome_integer_of_hasRunAt hrun, hrun.decimalValue_eq]

end Parser

end ParserCombinators
