import ParserCombinators.Proofs.Number.Faults
import ParserCombinators.Proofs.Number.Reading

/-!
# Integers that are written and read again

An integer is written as the digits of its magnitude, behind a minus sign if it is negative. Up to
the limit on digits it is read as the same integer. With more digits it is none any more, and as a
double it is infinite: the largest finite double has less than a tenth of these digits.
-/

namespace ParserCombinators

open Character

theorem isLong_tenTo : IsLong (tenTo 4300) := by
  rw [IsLong, Int.natAbs_natCast, ← Nat.not_le, ← lt_tenTo_iff (by decide)]
  exact Nat.lt_irrefl _

theorem Binary64.ofDecimal_eq_infinity (negative : Bool) {digits : Nat} {exponent : Int}
    (hdigits : digits ≠ 0) (hlarge : 330 < (Nat.toDigits 10 digits).length + exponent) :
    ofDecimal negative digits exponent = infinity negative := by
  unfold ofDecimal
  rw [if_neg (by omega), if_pos hlarge]
  rfl

namespace Reading

theorem isBlank_toString (n : Int) : ∀ c ∈ (toString n).toList, isBlank c = false := by
  have hsign : ∀ c ∈ if n < 0 then ['-'] else [], isBlank c = false := by
    split
    · exact List.forall_mem_singleton.2 (by decide)
    · exact List.forall_mem_nil _
  have hdigits : ∀ c ∈ Nat.toDigits 10 n.natAbs, isBlank c = false := fun c hc ↦
    isBlank_eq_false_of_isDigit ((isRun_toDigits n.natAbs).accepted c hc)
  rw [toList_toString_int]
  exact List.forall_mem_append.2 ⟨hsign, hdigits⟩

theorem takeSign_toString (n : Int) :
    takeSign (trim (toString n).toList) = (decide (n < 0), Nat.toDigits 10 n.natAbs) := by
  rw [trim_eq_self (isBlank_toString n), toList_toString_int]
  by_cases hn : n < 0
  · rw [if_pos hn, decide_eq_true hn]
    rfl
  · have hunsigned : takeSign (Nat.toDigits 10 n.natAbs ++ []) = _ :=
      takeSign_of_isRun (isRun_toDigits n.natAbs)
    rw [List.append_nil] at hunsigned
    rw [if_neg hn, decide_eq_false hn, List.nil_append, hunsigned]

theorem integer_toString (n : Int) :
    integer (toString n).toList =
      if 4300 < (Nat.toDigits 10 n.natAbs).length then
        .error (.numeralTooLong (Nat.toDigits 10 n.natAbs).length)
      else .ok n := by
  have hvalue : signed (decide (n < 0)) n.natAbs = n := by
    rw [signed]
    split
    case isTrue hn =>
      have := of_decide_eq_true hn
      omega
    case isFalse hn =>
      have := of_decide_eq_false (Bool.eq_false_iff.2 hn)
      omega
  rw [integer_of_isRun (takeSign_toString n) (isRun_toDigits n.natAbs), decimalValue_toDigits,
    hvalue]

theorem float?_toString_of_isLong {n : Int} (hlong : IsLong n) :
    float? (toString n).toList = some (Binary64.infinity (decide (n < 0))) := by
  have hdigits := isRun_toDigits n.natAbs
  have hsign := takeSign_toString n
  rw [← List.append_nil (Nat.toDigits 10 n.natAbs)] at hsign
  have hnonzero : n.natAbs ≠ 0 := by
    intro hzero
    rw [IsLong, hzero] at hlong
    exact absurd hlong (by decide)
  have hlarge : 330 < (Nat.toDigits 10 n.natAbs).length + (0 : Int) := by
    have : 4300 < (Nat.toDigits 10 n.natAbs).length := hlong
    omega
  calc float? (toString n).toList
      = decimal? (decide (n < 0)) (Nat.toDigits 10 n.natAbs ++ []) := float?_of_isRun hsign hdigits
    _ = some (Binary64.ofDecimal (decide (n < 0)) n.natAbs 0) := by
      rw [List.append_nil, decimal?_of_isRun _ hdigits, decimalValue_toDigits]
    _ = some (Binary64.infinity (decide (n < 0))) := by
      rw [Binary64.ofDecimal_eq_infinity _ hnonzero hlarge]

end Reading

end ParserCombinators
