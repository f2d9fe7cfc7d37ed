import Mathlib.Data.List.Basic
import ParserCombinators.Number.Reading
import ParserCombinators.Proofs.Number.Decimal

/-!
# Reading a run of digits

A run of digits is read up to a character that is neither a digit nor an underscore, and its value
is that of the decimal numeral. Digits are no margin, no sign and no part of a word.
-/

namespace ParserCombinators.Reading

open Character

variable {characters digits rest : List Char}

theorem valueOf_map_digitValue (digits : List Char) :
    valueOf (digits.map digitValue) = decimalValue digits := by
  rw [decimalValue, Nat.ofDigits_eq_foldr, List.foldr_reverse, valueOf]
  congr 1
  funext total digit
  exact Nat.add_comm _ _

theorem trim_eq_self (hcharacters : ∀ c ∈ characters, isBlank c = false) :
    trim characters = characters := by
  have hkept {kept : List Char} (hkept : ∀ c ∈ kept, isBlank c = false) :
      kept.dropWhile isMargin = kept := by
    cases kept with
    | nil => rfl
    | cons c kept =>
      have hc : isMargin c = false := by
        rw [isMargin, hkept c List.mem_cons_self, Bool.false_and]
      exact List.dropWhile_cons_of_neg (by rw [hc]; decide)
  have hreverse : ∀ c ∈ characters.reverse, isBlank c = false :=
    fun c hc ↦ hcharacters c (List.mem_reverse.1 hc)
  rw [trim, hkept hcharacters, hkept hreverse, List.reverse_reverse]

theorem digitValue?_of_isDigit {c : Char} (hc : isDigit c = true) :
    digitValue? c = some (digitValue c) := by
  obtain ⟨value, hvalue⟩ := Option.isSome_iff_exists.1 hc
  rw [digitValue, hvalue, Option.getD_some]

theorem ne_of_isDigit {c other : Char} (hc : isDigit c = true) (hother : isDigit other = false) :
    c ≠ other := by
  rintro rfl
  rw [hc] at hother
  cases hother

theorem takeSign_of_isRun (hdigits : IsRun isDigit digits) :
    takeSign (digits ++ rest) = (false, digits ++ rest) := by
  obtain ⟨hnonempty, haccepted⟩ := hdigits
  obtain ⟨c, digits, rfl⟩ := List.exists_cons_of_ne_nil hnonempty
  have hc := haccepted c List.mem_cons_self
  have hminus : c ≠ '-' := ne_of_isDigit hc (by decide)
  have hplus : c ≠ '+' := ne_of_isDigit hc (by decide)
  simp [takeSign, hminus, hplus]

theorem takeDigits_append (hdigits : ∀ c ∈ digits, isDigit c = true)
    (hrest : ∀ c ∈ rest.head?, isDigit c = false ∧ c ≠ '_') :
    takeDigits false (digits ++ rest) = .digits (digits.map digitValue) rest := by
  induction digits with
  | nil =>
    cases rest with
    | nil => rfl
    | cons c rest =>
      obtain ⟨hc, hunderscore⟩ := hrest c rfl
      have hnone : digitValue? c = none := by simpa [isDigit] using hc
      simp [takeDigits, hnone, hunderscore]
  | cons c digits ih =>
    have hsome := digitValue?_of_isDigit (hdigits c List.mem_cons_self)
    have htail := ih fun d hd ↦ hdigits d (List.mem_cons_of_mem c hd)
    rw [List.cons_append, takeDigits, hsome, htail]
    rfl

theorem leadingDigits_append (hdigits : IsRun isDigit digits)
    (hrest : ∀ c ∈ rest.head?, isDigit c = false ∧ c ≠ '_') :
    leadingDigits (digits ++ rest) = .digits (digits.map digitValue) rest := by
  rw [← takeDigits_append hdigits.accepted hrest]
  obtain ⟨hnonempty, haccepted⟩ := hdigits
  obtain ⟨c, digits, rfl⟩ := List.exists_cons_of_ne_nil hnonempty
  have hunderscore : c ≠ '_' := ne_of_isDigit (haccepted c List.mem_cons_self) (by decide)
  simp [leadingDigits, hunderscore]

theorem leadingDigits_of_isRun (hdigits : IsRun isDigit digits) :
    leadingDigits digits = .digits (digits.map digitValue) [] := by
  have hleading : leadingDigits (digits ++ []) = _ := leadingDigits_append hdigits (by simp)
  rwa [List.append_nil] at hleading

theorem isEmpty_map_digitValue (hdigits : IsRun isDigit digits) :
    (digits.map digitValue).isEmpty = false := by
  simpa using hdigits.nonempty

/-- The value of a numeral that has nothing but digits behind its sign. Leading zeros count as
digits, of which there is a limit. -/
theorem integer_of_isRun {negative : Bool} (hsign : takeSign (trim characters) = (negative, digits))
    (hdigits : IsRun isDigit digits) :
    integer characters =
      if 4300 < digits.length then .error (.numeralTooLong digits.length)
      else .ok (signed negative (decimalValue digits)) := by
  unfold integer
  simp only [hsign, leadingDigits_of_isRun hdigits, isEmpty_map_digitValue hdigits, List.length_map,
    Fault.digitLimit, valueOf_map_digitValue, Bool.false_eq_true, if_false, List.isEmpty_nil,
    if_true]

theorem decimal?_of_isRun (negative : Bool) (hdigits : IsRun isDigit digits) :
    decimal? negative digits = some (Binary64.ofDecimal negative (decimalValue digits) 0) := by
  unfold decimal?
  simp only [leadingDigits_of_isRun hdigits, fractionPart, exponentPart,
    isEmpty_map_digitValue hdigits, Bool.false_and, Bool.false_eq_true, if_false, List.append_nil,
    valueOf_map_digitValue, List.length_nil, Int.ofNat_zero, Int.sub_zero]

/-- No digit is one of the letters that have a lower case. -/
theorem toLower_of_isDigit {c : Char} (hc : isDigit c = true) : c.toLower = c := by
  unfold Char.toLower
  split
  case isTrue hcapital =>
    have hcapitals : ∃ range ∈ [(65, 90)], range.1 ≤ c.toNat ∧ c.toNat ≤ range.2 :=
      ⟨(65, 90), List.mem_singleton_self _, hcapital.1, hcapital.2⟩
    have := Ranges.areApart_eq_false digitRanges_isOrdered (by decide) (exists_of_isDigit hc)
      hcapitals
    exact absurd this (by decide)
  case isFalse => rfl

/-- The words for infinity and for no number start with letters. -/
theorem float?_of_isRun {negative : Bool}
    (hsign : takeSign (trim characters) = (negative, digits ++ rest))
    (hdigits : IsRun isDigit digits) : float? characters = decimal? negative (digits ++ rest) := by
  obtain ⟨hnonempty, haccepted⟩ := hdigits
  obtain ⟨c, digits, rfl⟩ := List.exists_cons_of_ne_nil hnonempty
  have hc := haccepted c List.mem_cons_self
  have hword (word : String) {d : Char} {tail : List Char} (hspelling : word.toList = d :: tail)
      (hd : isDigit d = false) :
      (String.ofList ((c :: digits ++ rest).map Char.toLower) == word) = false := by
    apply beq_eq_false_iff_ne.2
    intro heq
    have hlist := congrArg String.toList heq
    rw [String.toList_ofList, hspelling, List.cons_append, List.map_cons, toLower_of_isDigit hc]
      at hlist
    exact ne_of_isDigit hc hd (List.cons.inj hlist).1
  have hinf := hword "inf" rfl (by decide)
  have hinfinity := hword "infinity" rfl (by decide)
  have hnan := hword "nan" rfl (by decide)
  simp only [float?, hsign, hinf, hinfinity, hnan, Bool.or_false, Bool.false_eq_true, if_false]

end ParserCombinators.Reading
