import ParserCombinators.Proofs.Json.Number
import ParserCombinators.Proofs.Parser.Longest

/-!
# The longest numeral

A part that goes on makes a longer numeral, so a numeral that no longer one continues stops: the
number parser reads the longest numeral from its position, gives it back as it stands, and leaves a
point or an exponent mark that no digits follow. An integer among the numerals has the value of its
digits.
-/

namespace ParserCombinators.Json

open Character
open ParserCombinators.Parser

variable {κ ρ : Type} {text : Text} {rules : κ → Matcher ρ} {left rest : List Char}

/-! ## Longer numerals -/

namespace Numeral

variable (numeral : Numeral)

theorem exists_append_fraction (hfraction : numeral.fraction = none)
    (hpower : numeral.power = none) {decimals : List Char} (hdecimals : IsRun isDigit decimals) :
    ∃ longer : Numeral, longer.text = numeral.text ++ '.' :: decimals := by
  refine ⟨{ numeral with
    fraction := some decimals
    fraction_isRun := by simpa using hdecimals }, ?_⟩
  simp [text, signText, fractionText, powerText, hfraction, hpower]

theorem exists_append_power (hpower : numeral.power = none) (power : Power) :
    ∃ longer : Numeral, longer.text = numeral.text ++ power.text := by
  refine ⟨{ numeral with power := some power }, ?_⟩
  simp [text, signText, fractionText, powerText, hpower]

/-- A digit goes on with the last part. -/
theorem exists_append_digit {c : Char} (hc : isDigit c = true) :
    ∃ longer : Numeral, longer.text = numeral.text ++ [c] := by
  cases hpower : numeral.power with
  | some power =>
    refine ⟨{ numeral with
      power := some { power with
        digits := power.digits ++ [c]
        isRun := power.isRun.append_singleton hc } }, ?_⟩
    simp [text, signText, fractionText, powerText, hpower, Power.text]
  | none =>
    cases hfraction : numeral.fraction with
    | some decimals =>
      have hdecimals := (numeral.fraction_isRun decimals hfraction).append_singleton hc
      refine ⟨{ numeral with
        fraction := some (decimals ++ [c])
        fraction_isRun := by simpa using hdecimals }, ?_⟩
      simp [text, signText, fractionText, powerText, hfraction, hpower]
    | none =>
      refine ⟨{ numeral with
        whole := numeral.whole ++ [c]
        whole_isRun := numeral.whole_isRun.append_singleton hc }, ?_⟩
      simp [text, signText, fractionText, powerText, hfraction, hpower]

theorem stops_of_longest (hlongest : ∀ more rest' (longer : Numeral), rest = more ++ rest' →
    more ≠ [] → longer.text ≠ numeral.text ++ more) : numeral.Stops rest where
  digit c hc := by
    apply Bool.eq_false_iff.2
    intro hdigit
    obtain ⟨rest', rfl⟩ := List.head?_eq_some_iff.1 hc
    obtain ⟨longer, htext⟩ := numeral.exists_append_digit hdigit
    exact hlongest [c] rest' longer rfl (List.cons_ne_nil c []) htext
  fraction hfraction hpower decimals tail hdecimals hrest := by
    obtain ⟨longer, htext⟩ := numeral.exists_append_fraction hfraction hpower hdecimals
    exact hlongest ('.' :: decimals) tail longer hrest (List.cons_ne_nil _ _) htext
  power hpower power tail hrest := by
    obtain ⟨longer, htext⟩ := numeral.exists_append_power hpower power
    exact hlongest power.text tail longer hrest (List.cons_ne_nil _ _) htext

end Numeral

/-! ## Reading the longest numeral -/

/-- A sign, digits, a fraction and a power, of which only the digits must be there; what is read is
the slice as it stands. -/
def NumeralText : Language (List Char) := fun slice value ↦
  value = slice ∧ ∃ numeral : Numeral, slice = numeral.text

theorem readsLongest_numberText (hleft : left <:+ text.toList) :
    (numberText : Parser κ ρ (List Char)).ReadsLongest text rules NumeralText left := by
  rintro _ rest _ rfl ⟨rfl, numeral, rfl⟩ hlongest
  apply reads_numberText hleft
  apply numeral.stops_of_longest
  intro more rest' longer hrest hmore htext
  exact hlongest more rest' _ hrest hmore ⟨rfl, longer, htext.symm⟩

/-- Where the number parser reads a numeral, the numeral stops. -/
theorem Numeral.stops_of_reads {numeral : Numeral} (hleft : numeral.text ++ rest <:+ text.toList)
    (hreads : (numberText : Parser κ ρ (List Char)).Reads text rules (numeral.text ++ rest)
      numeral.text rest) : numeral.Stops rest := by
  have hlongest := (outcome_positionOf_eq_success_iff (respects_numberText hleft)
    (readsLongest_numberText hleft)).1 hreads
  have hlength : text.positionOf rest - text.positionOf (numeral.text ++ rest) =
      numeral.text.length := by
    rw [Text.positionOf, Text.positionOf, List.length_append]
    omega
  rw [hlength] at hlongest
  apply numeral.stops_of_longest
  rintro more rest' longer rfl hmore htext
  exact hlongest.not_append hmore ⟨rfl, longer, htext.symm⟩

/-! ## Reading from any position -/

/-- Where there is no character there is no sign, and there are no digits either. -/
theorem matcher_numberText_outside {position : Int} (houtside : text.charAt? position = none) :
    (numberText : Parser κ ρ (List Char)).matcher text rules position = .failed := by
  have hsign : (optional (single (.char '-')) : Parser κ ρ (List Char)).matcher text rules
      position = .succeeded [] position := by
    simp [optional, orElse, firstOf, single, Parser.map, char, Matcher.firstOf, Matcher.convert,
      matcher_satisfy_outside houtside, Run.andThen, Run.orElse]
  have hdigits : (digits : Parser κ ρ (List Char)).matcher text rules position = .failed := by
    simp [digits, digit, Matcher.many1, matcher_satisfy_outside houtside, Run.andThen]
  rw [numberText, matcher_step, matcher, Matcher.bind, hsign, Run.succeeded_andThen, matcher_step,
    matcher, Matcher.bind, hdigits]
  rfl

theorem not_hasPrefix_nil : ¬HasPrefix NumeralText #[] := by
  rintro ⟨length, -, -, numeral, htext⟩
  rw [Array.toList_empty, List.take_nil] at htext
  exact numeral.text_ne_nil htext.symm

/-- Whatever is read is a numeral that stops. -/
theorem exists_numeral_of_success {position stop : Int} {slice : List Char}
    (hread : ((numberText : Parser κ ρ (List Char)).matcher text rules position).outcome =
      .success slice stop) :
    ∃ (numeral : Numeral) (rest : List Char), slice = numeral.text ∧
      numeral.text ++ rest <:+ text.toList ∧ text.positionOf (numeral.text ++ rest) = position ∧
      text.positionOf rest = stop ∧ numeral.Stops rest := by
  have hleft := text.suffixFrom_suffix position
  have hrespects : (numberText : Parser κ ρ (List Char)).Respects text rules _ _ :=
    respects_numberText hleft
  obtain ⟨-, hposition⟩ | ⟨houtside, -⟩ := text.positionOf_or_outside position
  · obtain hrejects | ⟨_, _, rest, hsplit, ⟨rfl, numeral, rfl⟩, hreads⟩ := hrespects
    · rw [Rejects, hposition, hread] at hrejects
      cases hrejects
    · rw [hsplit] at hleft hposition hreads
      have hsuccess := hreads
      rw [Reads, hposition, hread, Outcome.success.injEq] at hsuccess
      obtain ⟨rfl, rfl⟩ := hsuccess
      exact ⟨numeral, rest, rfl, hleft, hposition, rfl, Numeral.stops_of_reads hleft hreads⟩
  · rw [matcher_numberText_outside houtside] at hread
    cases hread

section Positions

variable {position : Nat} {slice : List Char} {stop : Int}

theorem numberText_eq_success_iff :
    (numberText.runAt text position).outcome = .success slice stop ↔
      IsLongestPrefix NumeralText (text.suffixFrom position).toArray slice (stop - position) := by
  have hleft := text.suffixFrom_suffix position
  obtain ⟨-, hposition⟩ | ⟨houtside, hnil⟩ := text.positionOf_or_outside position
  · have hlongest :
        (numberText.runAt text (text.positionOf (text.suffixFrom position))).outcome =
          .success slice stop ↔ _ :=
      outcome_positionOf_eq_success_iff (respects_numberText hleft) (readsLongest_numberText hleft)
    rwa [hposition] at hlongest
  · rw [runAt, matcher_numberText_outside houtside, hnil (Int.natCast_nonneg position)]
    exact ⟨nofun, fun hlongest ↦ absurd hlongest.hasPrefix not_hasPrefix_nil⟩

theorem numberText_eq_failure_iff :
    (numberText.runAt text position).outcome = .failure ↔
      ¬HasPrefix NumeralText (text.suffixFrom position).toArray := by
  have hleft := text.suffixFrom_suffix position
  obtain ⟨-, hposition⟩ | ⟨houtside, hnil⟩ := text.positionOf_or_outside position
  · have hlongest :
        (numberText.runAt text (text.positionOf (text.suffixFrom position))).outcome =
          .failure ↔ _ :=
      outcome_positionOf_eq_failure_iff (respects_numberText hleft) (readsLongest_numberText hleft)
    rwa [hposition] at hlongest
  · rw [runAt, matcher_numberText_outside houtside, hnil (Int.natCast_nonneg position)]
    exact ⟨fun _ ↦ not_hasPrefix_nil, fun _ ↦ rfl⟩

end Positions

/-! ## The value of the longest numeral -/

namespace Numeral

variable (numeral : Numeral)

theorem text_of_integer (hfraction : numeral.fraction = none) (hpower : numeral.power = none) :
    numeral.text = numeral.signText ++ numeral.whole := by
  simp [text, fractionText, powerText, hfraction, hpower]

theorem findIdx_isDigit_text : numeral.text.findIdx isDigit = numeral.signText.length := by
  obtain ⟨d, digits, hwhole⟩ := List.exists_cons_of_ne_nil numeral.whole_isRun.nonempty
  have hd : isDigit d = true := numeral.whole_isRun.accepted d (hwhole ▸ List.mem_cons_self)
  have hminus : isDigit '-' = false := by decide
  unfold text signText
  cases numeral.negative <;> simp [hwhole, List.findIdx_cons, hd, hminus]

theorem head?_text : numeral.text.head? = some '-' ↔ numeral.negative = true := by
  unfold text signText
  cases numeral.negative with
  | true => simp
  | false => simpa using numeral.head?_whole_append (numeral.fractionText ++ numeral.powerText)

theorem length_whole_le : numeral.whole.length ≤ numeral.text.countP isDigit := by
  rw [← List.countP_eq_length.2 numeral.whole_isRun.accepted]
  exact numeral.whole_infix.sublist.countP_le

theorem isInteger_iff : '.' ∉ numeral.text ∧ 'e' ∉ numeral.text ∧ 'E' ∉ numeral.text ↔
    numeral.fraction = none ∧ numeral.power = none := by
  have hmarks : ('.' ∉ numeral.text ∧ 'e' ∉ numeral.text ∧ 'E' ∉ numeral.text) ↔
      numeral.text.any isFloatMark = false := by
    rw [← not_or, ← not_or, ← Bool.not_eq_true, List.any_eq_true]
    simp [isFloatMark, isExponentMark, and_or_left, exists_or]
  rw [hmarks, any_isFloatMark_text]
  simp

/-- The number parser takes the numeral and the blanks after it. -/
theorem exists_reads_number {numeral : Numeral} (hleft : numeral.text ++ rest <:+ text.toList)
    (hstops : numeral.Stops rest) (hshort : numeral.IsShort) :
    ∃ past, (number : Parser κ ρ Number).Reads text rules (numeral.text ++ rest) numeral.value
      past := by
  obtain ⟨gap, past, rfl, hgap, hpast⟩ := exists_longest_run isBlank rest
  refine ⟨past, reads_number hleft hshort hgap hpast fun hnil ↦ ?_⟩
  rwa [hnil] at hstops

/-- The digits of an integer are read by themselves, behind the sign. -/
theorem integer_of_digits {numeral : Numeral} {position : Int} (hfraction : numeral.fraction = none)
    (hpower : numeral.power = none) (hleft : numeral.text ++ rest <:+ text.toList)
    (hposition : text.positionOf (numeral.text ++ rest) = position) (hstops : numeral.Stops rest) :
    (integer.runAt text (position + numeral.text.findIdx isDigit)).outcome =
      .success (decimalValue numeral.whole) (text.positionOf rest) := by
  rw [numeral.findIdx_isDigit_text]
  rw [numeral.text_of_integer hfraction hpower, List.append_assoc] at hleft hposition
  have hstart : position + numeral.signText.length = text.positionOf (numeral.whole ++ rest) := by
    rw [← hposition]
    simp only [Text.positionOf, List.length_append]
    omega
  have hreads : (integer : Parser Empty Empty Nat).Reads text Empty.elim (numeral.whole ++ rest)
      (decimalValue numeral.whole) rest :=
    reads_integer ((List.suffix_append numeral.signText _).trans hleft) numeral.whole_isRun
      hstops.digit
  rwa [Reads, ← hstart] at hreads

end Numeral

/-- What the number parser gives where the slice is its numeral. An integer has the value that its
digits are given by the parser for integers. -/
def NumberAt (text : Text) (position : Nat) (slice : List Char) (stop : Int) : Prop :=
  ∃ value past, (number.runAt text position).outcome = .success value past ∧
    if '.' ∉ slice ∧ 'e' ∉ slice ∧ 'E' ∉ slice then
      ∃ magnitude : Nat, (integer.runAt text (position + slice.findIdx isDigit)).outcome =
          .success magnitude stop ∧
        value = .integer (if slice.head? = some '-' then -(magnitude : Int) else magnitude)
    else ∃ x, value = .float x

theorem numberAt_of_success {position : Nat} {slice : List Char} {stop : Int}
    (hread : (numberText.runAt text position).outcome = .success slice stop)
    (hdigits : slice.countP isDigit ≤ 4300) : NumberAt text position slice stop := by
  obtain ⟨numeral, rest, rfl, hleft, hposition, rfl, hstops⟩ := exists_numeral_of_success hread
  obtain ⟨past, hnumber⟩ : ∃ past, (number : Parser Empty Empty Number).Reads text Empty.elim
      (numeral.text ++ rest) numeral.value past :=
    Numeral.exists_reads_number hleft hstops fun _ _ ↦ numeral.length_whole_le.trans hdigits
  rw [Reads, hposition] at hnumber
  refine ⟨numeral.value, text.positionOf past, hnumber, ?_⟩
  split
  case isTrue hinteger =>
    obtain ⟨hfraction, hpower⟩ := numeral.isInteger_iff.1 hinteger
    refine ⟨decimalValue numeral.whole, ?_, ?_⟩
    · exact Numeral.integer_of_digits hfraction hpower hleft hposition hstops
    · simp [Numeral.value, hfraction, hpower, numeral.head?_text]
  case isFalse hfloat =>
    have hvalue := mt numeral.isInteger_iff.2 hfloat
    refine ⟨_, if_neg ?_⟩
    simpa using hvalue

/-- The text of a number is the longest numeral at the position, and its value is an integer unless
it has a point or an exponent mark. -/
theorem numberText_iff_longest (text : Text) (position : Nat) :
    (∀ slice stop, (numberText.runAt text position).outcome = .success slice stop ↔
      IsLongestPrefix NumeralText (text.suffixFrom position).toArray slice (stop - position)) ∧
    ((numberText.runAt text position).outcome = .failure ↔
      ¬HasPrefix NumeralText (text.suffixFrom position).toArray) ∧
    ∀ slice stop, (numberText.runAt text position).outcome = .success slice stop →
      slice.countP isDigit ≤ 4300 → NumberAt text position slice stop :=
  ⟨fun _ _ ↦ numberText_eq_success_iff, numberText_eq_failure_iff,
    fun _ _ ↦ numberAt_of_success⟩

/-- The digits are of two scripts, and no digit follows the point. -/
theorem numberText_before_point :
    (numberText.runAt #['a', '-', '1', '٢', '.', 'e'] (1 : Nat)).outcome =
        .success ['-', '1', '٢'] 4 ∧
      NumberAt #['a', '-', '1', '٢', '.', 'e'] 1 ['-', '1', '٢'] 4 := by
  have hread : (numberText.runAt #['a', '-', '1', '٢', '.', 'e'] (1 : Nat)).outcome =
      .success ['-', '1', '٢'] 4 := rfl
  exact ⟨hread, (numberText_iff_longest _ 1).2.2 _ _ hread (by decide)⟩

end ParserCombinators.Json
