import Mathlib.Data.List.Induction
import Mathlib.Tactic.SplitIfs
import ParserCombinators.Json.Grammar
import ParserCombinators.Proofs.Number.Decimal
import ParserCombinators.Text.Quoted

/-!
# Hexadecimal digits

Digits of either case have the same value. A number written with leading zeros is read back, and
the digits that are read are those of the number, up to their case.
-/

namespace ParserCombinators.Json

open ParserCombinators.Quoted

variable {c : Char} {digits : List Char} {value number width code : Nat}

/-! ## One digit -/

theorem toNat_lt_of_hexValue? (hc : hexValue? c = some value) : c.toNat < 128 := by
  unfold hexValue? at hc
  split_ifs at hc with hdigit hsmall hcapital
  · exact Nat.lt_of_le_of_lt hdigit.2 (by decide)
  · exact Nat.lt_of_le_of_lt hsmall.2 (by decide)
  · exact Nat.lt_of_le_of_lt hcapital.2 (by decide)

/-- There are few enough digits to look at all of them. -/
theorem of_hexValue? {P : Char → Nat → Prop}
    (hall : ∀ code < 128, ∀ value ∈ hexValue? (Char.ofNat code), P (Char.ofNat code) value)
    (hc : hexValue? c = some value) : P c value := by
  have hchar := hall c.toNat (toNat_lt_of_hexValue? hc) value
  rw [Char.ofNat_toNat] at hchar
  exact hchar hc

theorem hexValue?_lt (hc : hexValue? c = some value) : value < 16 :=
  of_hexValue? (P := fun _ value ↦ value < 16) (by decide) hc

theorem digitChar_of_hexValue? (hc : hexValue? c = some value) : value.digitChar = c.toLower :=
  of_hexValue? (P := fun c value ↦ value.digitChar = c.toLower) (by decide) hc

theorem hexValue?_digitChar {n : Nat} (hn : n < 16) : hexValue? n.digitChar = some n := by
  revert n
  decide

theorem hexValue?_toLower (c : Char) : hexValue? c.toLower = hexValue? c := by
  by_cases hupper : 'A' ≤ c ∧ c ≤ 'Z'
  · have hall : ∀ offset < 26, hexValue? (Char.ofNat (65 + offset)).toLower =
        hexValue? (Char.ofNat (65 + offset)) := by decide
    have hlow : 65 ≤ c.toNat := hupper.1
    have hhigh : c.toNat ≤ 90 := hupper.2
    have hc := hall (c.toNat - 65) (by omega)
    rwa [Nat.add_sub_cancel' hlow, Char.ofNat_toNat] at hc
  · have hsame : c.toLower = c := dif_neg hupper
    rw [hsame]

/-! ## The number of the digits -/

theorem hexNumber_append_singleton (digits : List Char) (c : Char) :
    hexNumber (digits ++ [c]) = 16 * hexNumber digits + (hexValue? c).getD 0 := by
  rw [hexNumber, hexNumber, List.foldl_append, Nat.mul_comm]
  rfl

theorem hexNumber_lt (digits : List Char) : hexNumber digits < 16 ^ digits.length := by
  induction digits using List.reverseRecOn with
  | nil => exact Nat.one_pos
  | append_singleton digits c ih =>
    have hc : (hexValue? c).getD 0 < 16 := by
      cases hvalue : hexValue? c with
      | none => exact Nat.succ_pos _
      | some value => exact hexValue?_lt hvalue
    rw [hexNumber_append_singleton, List.length_append, List.length_singleton, Nat.pow_succ]
    omega

theorem hexNumber_zeros_append (count : Nat) (digits : List Char) :
    hexNumber (List.replicate count '0' ++ digits) = hexNumber digits := by
  induction count with
  | zero => rfl
  | succ count ih => exact ih

theorem hexNumber_map_toLower (digits : List Char) :
    hexNumber (digits.map Char.toLower) = hexNumber digits := by
  simp [hexNumber, List.foldl_map, hexValue?_toLower]

theorem hexNumber_toDigits (n : Nat) : hexNumber (Nat.toDigits 16 n) = n := by
  apply toDigits_induction (P := fun n digits ↦ hexNumber digits = n) (by decide)
  case hone =>
    intro digit hdigit
    simp [hexNumber, hexValue?_digitChar hdigit]
  case hmore =>
    intro n digit hdigit hbefore
    rw [hexNumber_append_singleton, hbefore, hexValue?_digitChar hdigit, Option.getD_some]

theorem isSome_hexValue?_toDigits (n : Nat) :
    ∀ c ∈ Nat.toDigits 16 n, (hexValue? c).isSome = true := by
  apply toDigits_induction (P := fun _ digits ↦ ∀ c ∈ digits, (hexValue? c).isSome = true)
    (by decide)
  case hone =>
    intro digit hdigit
    simp [hexValue?_digitChar hdigit]
  case hmore =>
    intro n digit hdigit hbefore
    exact List.forall_mem_append.2 ⟨hbefore, by simp [hexValue?_digitChar hdigit]⟩

/-! ## Leading zeros -/

theorem hexadecimal_one (hvalue : value < 16) : hexadecimal 1 value = [value.digitChar] := by
  simp [hexadecimal, Nat.toDigits_of_lt_base hvalue]

theorem hexadecimal_succ (hwidth : 0 < width) (hvalue : value < 16) :
    hexadecimal (width + 1) (16 * number + value) =
      hexadecimal width number ++ [value.digitChar] := by
  have hlast := Nat.toDigits_of_lt_base hvalue
  unfold hexadecimal
  obtain rfl | hnumber := Nat.eq_zero_or_pos number
  · obtain ⟨width, rfl⟩ := Nat.exists_eq_succ_of_ne_zero (Nat.ne_of_gt hwidth)
    simp [hlast, ← List.replicate_succ']
  · have hdigits := Nat.toDigits_append_toDigits (b := 16) (by decide) hnumber hvalue
    rw [← hdigits, hlast]
    simp

/-- Written out with leading zeros, the number has the digits it was read from. -/
theorem hexadecimal_hexNumber (hnonempty : digits ≠ [])
    (hdigits : ∀ c ∈ digits, (hexValue? c).isSome = true) :
    hexadecimal digits.length (hexNumber digits) = digits.map Char.toLower := by
  induction digits using List.reverseRecOn with
  | nil => exact absurd rfl hnonempty
  | append_singleton digits c ih =>
    obtain ⟨hbefore, hlast⟩ := List.forall_mem_append.1 hdigits
    obtain ⟨value, hc⟩ := Option.isSome_iff_exists.1 (hlast c List.mem_cons_self)
    have hvalue := hexValue?_lt hc
    rw [hexNumber_append_singleton, hc, Option.getD_some, List.length_append,
      List.length_singleton, List.map_append, List.map_singleton, ← digitChar_of_hexValue? hc]
    by_cases hempty : digits = []
    · subst hempty
      simpa [hexNumber] using hexadecimal_one hvalue
    · rw [hexadecimal_succ (List.length_pos_iff.2 hempty) hvalue, ih hempty hbefore]

theorem length_hexadecimal (hwidth : 0 < width) (hcode : code < 16 ^ width) :
    (hexadecimal width code).length = width := by
  have hdigits : (Nat.toDigits 16 code).length ≤ width :=
    (Nat.length_toDigits_le_iff (by decide) hwidth).2 hcode
  rw [hexadecimal, List.length_append, List.length_replicate]
  omega

theorem isSome_hexValue?_hexadecimal (width code : Nat) :
    ∀ c ∈ hexadecimal width code, (hexValue? c).isSome = true := by
  intro c hc
  obtain hzero | hdigit := List.mem_append.1 hc
  · rw [List.eq_of_mem_replicate hzero]
    decide
  · exact isSome_hexValue?_toDigits code c hdigit

/-- Up to their case, the digits of a number are those that it is read from. -/
theorem map_toLower_eq_hexadecimal_iff (hwidth : 0 < width) (hcode : code < 16 ^ width) :
    digits.map Char.toLower = hexadecimal width code ↔ digits.length = width ∧
      (∀ c ∈ digits, (hexValue? c).isSome = true) ∧ hexNumber digits = code := by
  constructor
  · intro hdigits
    refine ⟨?_, fun c hc ↦ ?_, ?_⟩
    · calc digits.length = (digits.map Char.toLower).length := (List.length_map _).symm
        _ = width := by rw [hdigits, length_hexadecimal hwidth hcode]
    · rw [← hexValue?_toLower]
      apply isSome_hexValue?_hexadecimal width code
      exact hdigits ▸ List.mem_map_of_mem hc
    · calc hexNumber digits = hexNumber (hexadecimal width code) := by
            rw [← hdigits, hexNumber_map_toLower]
        _ = hexNumber (Nat.toDigits 16 code) := hexNumber_zeros_append ..
        _ = code := hexNumber_toDigits code
  · rintro ⟨rfl, hdigits, rfl⟩
    exact (hexadecimal_hexNumber (List.ne_nil_of_length_pos hwidth) hdigits).symm

end ParserCombinators.Json
