import Mathlib.Data.Nat.Digits.Defs
import ParserCombinators.Number.Powers
import ParserCombinators.Proofs.Character.Classes

/-!
# Decimal numerals

The digits of a numeral may come from any scripts. Writing a number out takes the digits of one
script, and the numeral stands for that number again.
-/

namespace ParserCombinators

open Character

/-- The number that decimal digits of any scripts stand for, the last digit counting ones. -/
def decimalValue (digits : List Char) : Nat :=
  Nat.ofDigits 10 (digits.map Character.digitValue).reverse

theorem isDigit_digitChar {n : Nat} (hn : n < 10) : isDigit n.digitChar = true := by
  revert n
  decide

theorem digitValue_digitChar {n : Nat} (hn : n < 10) : digitValue n.digitChar = n := by
  revert n
  decide

theorem decimalValue_append_singleton (digits : List Char) (c : Char) :
    decimalValue (digits ++ [c]) = 10 * decimalValue digits + digitValue c := by
  unfold decimalValue
  rw [List.map_append, List.map_singleton, List.reverse_append, List.reverse_singleton,
    List.singleton_append, Nat.ofDigits_cons]
  exact Nat.add_comm _ _

/-- A number is written as one digit, or as another number with one more digit behind it. -/
theorem toDigits_induction {base : Nat} (hbase : 1 < base) {P : Nat → List Char → Prop}
    (hone : ∀ digit < base, P digit [digit.digitChar])
    (hmore : ∀ n digit, digit < base → P n (Nat.toDigits base n) →
      P (base * n + digit) (Nat.toDigits base n ++ [digit.digitChar])) (n : Nat) :
    P n (Nat.toDigits base n) := by
  induction n using Nat.strongRecOn with
  | ind n ih =>
    rw [Nat.toDigits_eq_if hbase]
    split
    case isTrue hsmall => exact hone n hsmall
    case isFalse hlarge =>
      have hbelow : n / base < n := Nat.div_lt_self (by omega) hbase
      have hdigit : n % base < base := Nat.mod_lt n (by omega)
      have hlonger := hmore (n / base) (n % base) hdigit (ih (n / base) hbelow)
      rwa [Nat.div_add_mod] at hlonger

theorem isRun_toDigits (n : Nat) : IsRun isDigit (Nat.toDigits 10 n) := by
  refine ⟨Nat.toDigits_ne_nil, ?_⟩
  apply toDigits_induction (P := fun _ digits ↦ ∀ c ∈ digits, isDigit c = true) (by decide)
  case hone =>
    intro digit hdigit
    exact List.forall_mem_singleton.2 (isDigit_digitChar hdigit)
  case hmore =>
    intro n digit hdigit hbefore
    exact List.forall_mem_append.2
      ⟨hbefore, List.forall_mem_singleton.2 (isDigit_digitChar hdigit)⟩

theorem decimalValue_toDigits (n : Nat) : decimalValue (Nat.toDigits 10 n) = n := by
  apply toDigits_induction (P := fun n digits ↦ decimalValue digits = n) (by decide)
  case hone =>
    intro digit hdigit
    simpa [decimalValue] using digitValue_digitChar hdigit
  case hmore =>
    intro n digit hdigit hbefore
    rw [decimalValue_append_singleton, hbefore, digitValue_digitChar hdigit]

theorem lt_tenTo_iff {n limit : Nat} (hlimit : 0 < limit) :
    n < tenTo limit ↔ (Nat.toDigits 10 n).length ≤ limit :=
  (Nat.length_toDigits_le_iff (by decide) hlimit).symm

theorem toList_toString_natCast (n : Nat) : (toString (n : Int)).toList = Nat.toDigits 10 n :=
  Nat.toList_repr

theorem toList_toString_negSucc (n : Nat) :
    (toString (Int.negSucc n)).toList = '-' :: Nat.toDigits 10 (n + 1) := by
  have hsign : toString (Int.negSucc n) = "-" ++ Nat.repr (n + 1) := rfl
  rw [hsign, String.toList_append, Nat.toList_repr]
  rfl

/-- A minus sign in front of the digits, or none. -/
theorem toList_toString_int (n : Int) : (toString n).toList =
    (if n < 0 then ['-'] else []) ++ Nat.toDigits 10 n.natAbs := by
  cases n with
  | ofNat n =>
    rw [Int.ofNat_eq_natCast, if_neg (Int.not_lt.2 (Int.natCast_nonneg n)), List.nil_append]
    exact toList_toString_natCast n
  | negSucc n =>
    rw [if_pos (Int.negSucc_lt_zero n)]
    exact toList_toString_negSucc n

end ParserCombinators
