import ParserCombinators.Json.Grammar
import ParserCombinators.Proofs.Number.Reading

/-!
# Numerals of JSON

A numeral is known by its parts. Its text is that of the parts one after another, and its value is
an integer or, with a fraction or a power, the double that is closest to the decimal.
-/

namespace ParserCombinators.Json

open Character

/-- A power of ten as it is written after a decimal. -/
structure Power where
  mark : Char
  sign : List Char
  digits : List Char
  isMark : mark = 'e' ∨ mark = 'E'
  isSign : sign = [] ∨ sign = ['+'] ∨ sign = ['-']
  isRun : IsRun isDigit digits

def Power.text (power : Power) : List Char := power.mark :: (power.sign ++ power.digits)

def Power.value (power : Power) : Int :=
  if power.sign = ['-'] then -(decimalValue power.digits : Int) else decimalValue power.digits

structure Numeral where
  negative : Bool
  whole : List Char
  fraction : Option (List Char)
  power : Option Power
  whole_isRun : IsRun isDigit whole
  fraction_isRun : ∀ digits ∈ fraction, IsRun isDigit digits

namespace Numeral

variable (numeral : Numeral)

def signText : List Char := if numeral.negative then ['-'] else []

def fractionText : List Char := numeral.fraction.elim [] fun digits ↦ '.' :: digits

def powerText : List Char := numeral.power.elim [] Power.text

def text : List Char :=
  numeral.signText ++ (numeral.whole ++ (numeral.fractionText ++ numeral.powerText))

/-- The digits after the point. -/
def decimals : List Char := numeral.fraction.getD []

def exponent : Int := numeral.power.elim 0 Power.value

def value : Number :=
  if numeral.fraction.isNone ∧ numeral.power.isNone then
    .integer (if numeral.negative then -(decimalValue numeral.whole : Int)
      else decimalValue numeral.whole)
  else .float (Binary64.ofDecimal numeral.negative
    (decimalValue (numeral.whole ++ numeral.decimals))
    (numeral.exponent - numeral.decimals.length))

/-- Only integers are limited in their digits. -/
def IsShort : Prop :=
  numeral.fraction = none → numeral.power = none → numeral.whole.length ≤ 4300

/-! ## The characters of a numeral -/

theorem mark_of_power {power : Power} : isDigit power.mark = false ∧ isBlank power.mark = false ∧
    power.mark ≠ '.' ∧ power.mark ≠ '_' ∧ isFloatMark power.mark = true := by
  obtain hmark | hmark := power.isMark <;> rw [hmark] <;> decide

theorem not_blank_of_mem : ∀ c ∈ numeral.text, isBlank c = false := by
  have hrun {digits : List Char} (hdigits : IsRun isDigit digits) :
      ∀ c ∈ digits, isBlank c = false :=
    fun c hc ↦ isBlank_eq_false_of_isDigit (hdigits.accepted c hc)
  have hsign : ∀ c ∈ numeral.signText, isBlank c = false := by
    unfold signText
    split
    · exact List.forall_mem_singleton.2 (by decide)
    · exact List.forall_mem_nil _
  have hfraction : ∀ c ∈ numeral.fractionText, isBlank c = false := by
    unfold fractionText
    cases hfraction : numeral.fraction with
    | none => exact List.forall_mem_nil _
    | some digits =>
      exact List.forall_mem_cons.2 ⟨by decide, hrun (numeral.fraction_isRun digits hfraction)⟩
  have hpower : ∀ c ∈ numeral.powerText, isBlank c = false := by
    unfold powerText
    cases numeral.power with
    | none => exact List.forall_mem_nil _
    | some power =>
      have hsign : ∀ c ∈ power.sign, isBlank c = false := by
        obtain hsign | hsign | hsign := power.isSign <;> rw [hsign]
        · exact List.forall_mem_nil _
        · exact List.forall_mem_singleton.2 (by decide)
        · exact List.forall_mem_singleton.2 (by decide)
      have hsigned := List.forall_mem_append.2 ⟨hsign, hrun power.isRun⟩
      exact List.forall_mem_cons.2 ⟨mark_of_power.2.1, hsigned⟩
  exact List.forall_mem_append.2 ⟨hsign, List.forall_mem_append.2 ⟨hrun numeral.whole_isRun,
    List.forall_mem_append.2 ⟨hfraction, hpower⟩⟩⟩

theorem text_ne_nil : numeral.text ≠ [] := by
  simp [text, numeral.whole_isRun.nonempty]

theorem head?_whole_append (rest : List Char) : (numeral.whole ++ rest).head? ≠ some '-' := by
  intro hminus
  have hdigit := numeral.whole_isRun.head_accepted '-' hminus
  exact absurd hdigit (by decide)

theorem whole_infix : numeral.whole <:+: numeral.text :=
  (List.prefix_append _ _).isInfix.trans (List.suffix_append numeral.signText _).isInfix

theorem takeSign_text : Reading.takeSign numeral.text =
    (numeral.negative, numeral.whole ++ (numeral.fractionText ++ numeral.powerText)) := by
  unfold text signText
  cases numeral.negative with
  | true => rfl
  | false =>
    rw [if_neg (by decide), List.nil_append]
    exact Reading.takeSign_of_isRun numeral.whole_isRun

/-- What starts a power stops the digits in front of it. -/
theorem powerText_head : ∀ c ∈ numeral.powerText.head?, isDigit c = false ∧ c ≠ '_' := by
  unfold powerText
  cases numeral.power with
  | none => simp
  | some power => exact forall_mem_head?_cons ⟨mark_of_power.1, mark_of_power.2.2.2.1⟩ _

theorem fractionText_head : ∀ c ∈ (numeral.fractionText ++ numeral.powerText).head?,
    isDigit c = false ∧ c ≠ '_' := by
  unfold fractionText
  cases numeral.fraction with
  | none => exact numeral.powerText_head
  | some digits => exact forall_mem_head?_cons (by decide) _

/-! ## The value of a numeral -/

theorem takeSign_power (power : Power) : Reading.takeSign (power.sign ++ power.digits) =
    (decide (power.sign = ['-']), power.digits) := by
  obtain hsign | hsign | hsign := power.isSign <;> rw [hsign]
  · have hnone : Reading.takeSign (power.digits ++ []) = _ :=
      Reading.takeSign_of_isRun power.isRun
    rw [List.append_nil] at hnone
    exact hnone
  · rfl
  · rfl

theorem exponentPart_text (power : Power) :
    Reading.exponentPart power.text = some (power.value, []) := by
  have hmark : (power.mark == 'e' || power.mark == 'E') = true := by simpa using power.isMark
  obtain ⟨d, digits, hdigits⟩ := List.exists_cons_of_ne_nil power.isRun.nonempty
  have hleading := Reading.leadingDigits_of_isRun power.isRun
  have hvalue := Reading.valueOf_map_digitValue power.digits
  rw [hdigits, List.map_cons] at hleading hvalue
  rw [Power.text, Reading.exponentPart, if_pos hmark, takeSign_power, hdigits]
  simp only [hleading, hvalue, Reading.signed, Power.value, decide_eq_true_eq, hdigits]

theorem exponentPart_powerText :
    Reading.exponentPart numeral.powerText = some (numeral.exponent, []) := by
  unfold powerText exponent
  cases numeral.power with
  | none => rfl
  | some power => exact exponentPart_text power

theorem fractionPart_text : Reading.fractionPart (numeral.fractionText ++ numeral.powerText) =
    .digits (numeral.decimals.map digitValue) numeral.powerText := by
  unfold fractionText decimals
  cases hfraction : numeral.fraction with
  | none =>
    unfold powerText
    cases numeral.power with
    | none => rfl
    | some power =>
      have hmark : power.mark ≠ '.' := mark_of_power.2.2.1
      simp [Power.text, Reading.fractionPart, hmark]
  | some digits =>
    exact Reading.leadingDigits_append (numeral.fraction_isRun digits hfraction)
      numeral.powerText_head

theorem decimal?_text :
    Reading.decimal? numeral.negative
      (numeral.whole ++ (numeral.fractionText ++ numeral.powerText)) =
    some (Binary64.ofDecimal numeral.negative (decimalValue (numeral.whole ++ numeral.decimals))
      (numeral.exponent - numeral.decimals.length)) := by
  have hwhole := Reading.leadingDigits_append numeral.whole_isRun numeral.fractionText_head
  have hnonempty := Reading.isEmpty_map_digitValue numeral.whole_isRun
  unfold Reading.decimal?
  simp only [hwhole, numeral.fractionPart_text, hnonempty, Bool.false_and, Bool.false_eq_true,
    if_false, numeral.exponentPart_powerText, List.length_map, ← List.map_append,
    Reading.valueOf_map_digitValue]

theorem any_isFloatMark_text :
    numeral.text.any isFloatMark = !(numeral.fraction.isNone && numeral.power.isNone) := by
  have hwhole : numeral.whole.any isFloatMark = false := by
    apply List.any_eq_false.2
    intro c hc
    have hdigit := numeral.whole_isRun.accepted c hc
    have hpoint : c ≠ '.' := Reading.ne_of_isDigit hdigit (by decide)
    have hsmall : c ≠ 'e' := Reading.ne_of_isDigit hdigit (by decide)
    have hcapital : c ≠ 'E' := Reading.ne_of_isDigit hdigit (by decide)
    simp [isFloatMark, isExponentMark, hpoint, hsmall, hcapital]
  have hsign : numeral.signText.any isFloatMark = false := by
    unfold signText
    cases numeral.negative <;> rfl
  rw [text, List.any_append, List.any_append, List.any_append, hsign, hwhole, fractionText,
    powerText]
  cases numeral.fraction with
  | none =>
    cases numeral.power with
    | none => rfl
    | some power => simp [Power.text, mark_of_power.2.2.2.2]
  | some digits => simp [isFloatMark]

theorem float?_text : Reading.float? numeral.text =
    some (Binary64.ofDecimal numeral.negative (decimalValue (numeral.whole ++ numeral.decimals))
      (numeral.exponent - numeral.decimals.length)) := by
  have hsign := numeral.takeSign_text
  rw [← Reading.trim_eq_self numeral.not_blank_of_mem] at hsign
  rw [Reading.float?_of_isRun hsign numeral.whole_isRun, numeral.decimal?_text]

/-- Leading zeros count as digits. -/
theorem integer_text (hfraction : numeral.fraction = none) (hpower : numeral.power = none) :
    Reading.integer numeral.text =
      if 4300 < numeral.whole.length then .error (.numeralTooLong numeral.whole.length)
      else .ok (if numeral.negative then -(decimalValue numeral.whole : Int)
        else decimalValue numeral.whole) := by
  have hunsigned :
      numeral.whole ++ (numeral.fractionText ++ numeral.powerText) = numeral.whole := by
    simp [fractionText, powerText, hfraction, hpower]
  have hsign := numeral.takeSign_text
  rw [hunsigned, ← Reading.trim_eq_self numeral.not_blank_of_mem] at hsign
  exact Reading.integer_of_isRun hsign numeral.whole_isRun

theorem numberValue_text (hshort : numeral.IsShort) :
    numberValue numeral.text = .ok numeral.value := by
  unfold numberValue value
  rw [any_isFloatMark_text, float?_text]
  cases hfraction : numeral.fraction with
  | none =>
    cases hpower : numeral.power with
    | none =>
      rw [numeral.integer_text hfraction hpower, if_neg (Nat.not_lt.2 (hshort hfraction hpower))]
      rfl
    | some power => rfl
  | some digits => rfl

theorem numberValue_text_of_long (hlong : ¬numeral.IsShort) : 4300 < numeral.whole.length ∧
    numberValue numeral.text = .error (.numeralTooLong numeral.whole.length) := by
  obtain ⟨hfraction, hpower, hlength⟩ :
      numeral.fraction = none ∧ numeral.power = none ∧ 4300 < numeral.whole.length := by
    simpa [IsShort] using hlong
  refine ⟨hlength, ?_⟩
  unfold numberValue
  rw [any_isFloatMark_text, hfraction, hpower, numeral.integer_text hfraction hpower,
    if_pos hlength]
  rfl

end Numeral

end ParserCombinators.Json
