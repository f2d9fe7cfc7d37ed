import ParserCombinators.Proofs.Json.Numeral
import ParserCombinators.Proofs.Parser.Tokens

/-!
# What the number parser reads

The optional parts of a numeral are tried once each, from the left. A part that is not there stays
unread, so the numeral is read as a whole wherever its parts do not go on in the rest of the text.
-/

namespace ParserCombinators.Json

open Character
open ParserCombinators.Parser

variable {κ ρ : Type} {text : Text} {rules : κ → Matcher ρ} {left rest slice value : List Char}
  {inner : Parser κ ρ (List Char)}

/-! ## Optional parts -/

theorem reads_optional (hinner : inner.Reads text rules left value rest) :
    (optional inner).Reads text rules left value rest :=
  hinner.orElse

theorem reads_optional_of_rejects (hinner : inner.Rejects text rules left) :
    (optional inner).Reads text rules left [] left :=
  hinner.orElse_reads reads_succeed

/-- A part that reads its own text, or nothing. -/
theorem respects_optional {language : List Char → Prop}
    (hinner : inner.Respects text rules (fun slice value ↦ value = slice ∧ language slice) left) :
    (optional inner).Respects text rules
      (fun slice value ↦ value = slice ∧ (slice = [] ∨ language slice)) left := by
  obtain hrejects | ⟨slice, value, rest, rfl, ⟨hvalue, hslice⟩, hreads⟩ := hinner
  · exact .inr ⟨[], [], left, rfl, ⟨rfl, .inl rfl⟩, reads_optional_of_rejects hrejects⟩
  · exact .inr ⟨slice, value, rest, rfl, ⟨hvalue, .inr hslice⟩, reads_optional hreads⟩

theorem respects_single {accepts : Char → Bool} (hleft : left <:+ text.toList) :
    (single (.satisfy accepts) : Parser κ ρ (List Char)).Respects text rules
      (fun slice value ↦ value = slice ∧ ∃ c, slice = [c] ∧ accepts c = true) left := by
  refine (respects_satisfy hleft).map fun slice c ⟨hslice, hc⟩ ↦ ?_
  exact ⟨hslice.symm, c, hslice, hc⟩

theorem respects_digits (hleft : left <:+ text.toList) :
    (digits : Parser κ ρ (List Char)).Respects text rules
      (fun slice value ↦ value = slice ∧ IsRun isDigit slice) left :=
  respects_many1_satisfy hleft

theorem respects_fraction (hleft : left <:+ text.toList) :
    (fraction : Parser κ ρ (List Char)).Respects text rules
      (fun slice value ↦ value = slice ∧ ∃ digits, IsRun isDigit digits ∧ slice = '.' :: digits)
      left := by
  have hpair : (Parser.pair (.char '.') digits : Parser κ ρ (Char × List Char)).Respects text rules
      (fun slice parts ↦ parts.1 :: parts.2 = slice ∧
        ∃ digits, IsRun isDigit digits ∧ slice = '.' :: digits) left := by
    refine (respects_char hleft).pair (fun slice _ rest hsplit _ ↦ respects_digits ?_) ?_
    · exact Text.suffix_of_append hleft hsplit
    · rintro _ _ decimals _ ⟨rfl, rfl⟩ ⟨rfl, hdecimals⟩
      exact ⟨rfl, _, hdecimals, rfl⟩
  exact hpair.map fun _ _ hslice ↦ hslice

theorem respects_exponentSign (hleft : left <:+ text.toList) :
    (optional (single (.satisfy isSign)) : Parser κ ρ (List Char)).Respects text rules
      (fun slice value ↦ value = slice ∧ (slice = [] ∨ slice = ['+'] ∨ slice = ['-'])) left := by
  apply (respects_optional (respects_single hleft)).mono
  rintro slice value - ⟨hvalue, hslice | ⟨c, rfl, hc⟩⟩
  · exact ⟨hvalue, .inl hslice⟩
  · have hsign : c = '+' ∨ c = '-' := by simpa [isSign] using hc
    obtain rfl | rfl := hsign
    · exact ⟨hvalue, .inr (.inl rfl)⟩
    · exact ⟨hvalue, .inr (.inr rfl)⟩

theorem respects_exponent (hleft : left <:+ text.toList) :
    (exponent : Parser κ ρ (List Char)).Respects text rules
      (fun slice value ↦ value = slice ∧ ∃ power : Power, slice = power.text) left := by
  have hmark : (Parser.pair (.satisfy isExponentMark) (optional (single (.satisfy isSign))) :
      Parser κ ρ (Char × List Char)).Respects text rules
      (fun slice parts ↦ slice = parts.1 :: parts.2 ∧ (parts.1 = 'e' ∨ parts.1 = 'E') ∧
        (parts.2 = [] ∨ parts.2 = ['+'] ∨ parts.2 = ['-'])) left := by
    refine (respects_satisfy hleft).pair
      (fun _ _ rest hsplit _ ↦ respects_exponentSign (Text.suffix_of_append hleft hsplit)) ?_
    rintro _ mark sign _ ⟨rfl, hmark⟩ ⟨rfl, hsign⟩
    exact ⟨rfl, by simpa [isExponentMark] using hmark, hsign⟩
  refine (hmark.pair (fun _ _ rest hsplit _ ↦ respects_digits (Text.suffix_of_append hleft hsplit))
    fun slice parts run value hparts hrun ↦ ?_).map fun slice parts hslice ↦ hslice
  obtain ⟨rfl, hmark, hsign⟩ := hparts
  obtain ⟨rfl, hrun⟩ := hrun
  exact ⟨rfl, ⟨parts.1, parts.2, value, hmark, hsign, hrun⟩, rfl⟩

/-! ## Numerals -/

theorem respects_numberText (hleft : left <:+ text.toList) :
    (numberText : Parser κ ρ (List Char)).Respects text rules
      (fun slice value ↦ value = slice ∧ ∃ numeral : Numeral, slice = numeral.text) left := by
  refine (respects_optional (respects_single hleft)).step
    fun sign _ afterSign hsign ⟨hsignValue, hsignText⟩ ↦ ?_
  have hafterSign := Text.suffix_of_append hleft hsign
  refine (respects_digits hafterSign).step fun whole _ afterWhole hwhole ⟨hwholeValue, hrun⟩ ↦ ?_
  have hafterWhole := Text.suffix_of_append hafterSign hwhole
  refine (respects_optional (respects_fraction hafterWhole)).step
    fun fractional _ afterFraction hfraction ⟨hfractionValue, hfractionText⟩ ↦ ?_
  have hafterFraction := Text.suffix_of_append hafterWhole hfraction
  refine (respects_optional (respects_exponent hafterFraction)).step
    fun power _ afterPower _ ⟨hpowerValue, hpowerText⟩ ↦ respects_finish ⟨?_, ?_⟩
  · simp [hsignValue, hwholeValue, hfractionValue, hpowerValue]
  obtain ⟨negative, hnegative⟩ : ∃ negative : Bool, sign = if negative then ['-'] else [] := by
    obtain rfl | ⟨c, rfl, hc⟩ := hsignText
    · exact ⟨false, rfl⟩
    · exact ⟨true, by simpa using hc⟩
  obtain ⟨decimals, hdecimals, hdecimalsText⟩ : ∃ decimals : Option (List Char),
      (∀ run ∈ decimals, IsRun isDigit run) ∧
        fractional = decimals.elim [] fun run ↦ '.' :: run := by
    obtain rfl | ⟨run, hrun, rfl⟩ := hfractionText
    · exact ⟨none, by simp, rfl⟩
    · exact ⟨some run, by simpa using hrun, rfl⟩
  obtain ⟨optionalPower, hoptionalPower⟩ : ∃ optionalPower : Option Power,
      power = optionalPower.elim [] Power.text := by
    obtain rfl | ⟨power, rfl⟩ := hpowerText
    · exact ⟨none, rfl⟩
    · exact ⟨some power, rfl⟩
  refine ⟨⟨negative, whole, decimals, optionalPower, hrun, hdecimals⟩, ?_⟩
  rw [hnegative, hdecimalsText, hoptionalPower, List.append_nil]
  rfl

/-- No part of the numeral goes on in the rest. -/
structure Numeral.Stops (numeral : Numeral) (rest : List Char) : Prop where
  digit : ∀ c ∈ rest.head?, isDigit c = false
  fraction : numeral.fraction = none → numeral.power = none →
    ∀ decimals tail, IsRun isDigit decimals → rest ≠ '.' :: (decimals ++ tail)
  power : numeral.power = none → ∀ (power : Power) tail, rest ≠ power.text ++ tail

theorem Numeral.stops_of_head {numeral : Numeral}
    (hhead : ∀ c ∈ rest.head?, isDigit c = false ∧ isFloatMark c = false) : numeral.Stops rest where
  digit c hc := (hhead c hc).1
  fraction _ _ decimals tail _ hrest := by
    have hpoint := (hhead '.' (by simp [hrest])).2
    exact absurd hpoint (by decide)
  power _ power tail hrest := by
    have hmark := (hhead power.mark (by simp [hrest, Power.text])).2
    rw [Numeral.mark_of_power.2.2.2.2] at hmark
    cases hmark

theorem Numeral.Stops.powerText_head {numeral : Numeral} (hstops : numeral.Stops rest) :
    ∀ c ∈ (numeral.powerText ++ rest).head?, isDigit c = false := by
  have hpower := numeral.powerText_head
  cases htext : numeral.powerText with
  | nil => exact hstops.digit
  | cons d tail =>
    rw [htext] at hpower
    exact fun c hc ↦ (hpower c hc).1

theorem Numeral.Stops.fractionText_head {numeral : Numeral} (hstops : numeral.Stops rest) :
    ∀ c ∈ (numeral.fractionText ++ (numeral.powerText ++ rest)).head?, isDigit c = false := by
  have hfraction := numeral.fractionText_head
  cases htext : numeral.fractionText with
  | nil => exact hstops.powerText_head
  | cons d tail =>
    rw [htext] at hfraction
    exact fun c hc ↦ (hfraction c hc).1

section Numerals

variable {numeral : Numeral}

theorem reads_sign (hleft : numeral.signText ++ rest <:+ text.toList)
    (hrest : rest.head? ≠ some '-') :
    (optional (single (.char '-')) : Parser κ ρ (List Char)).Reads text rules
      (numeral.signText ++ rest) numeral.signText rest := by
  unfold Numeral.signText at hleft ⊢
  cases hnegative : numeral.negative with
  | true =>
    rw [hnegative] at hleft
    have hread : (single (.char '-') : Parser κ ρ (List Char)).Reads text rules ('-' :: rest) ['-']
        rest := (reads_char hleft).map
    exact reads_optional hread
  | false =>
    rw [hnegative] at hleft
    have hrejects : (single (.char '-') : Parser κ ρ (List Char)).Rejects text rules rest :=
      (rejects_char hleft hrest).map
    exact reads_optional_of_rejects hrejects

theorem reads_exponentSign {power : Power} (hleft : power.sign ++ rest <:+ text.toList)
    (hrest : ∀ c ∈ rest.head?, isSign c = false) :
    (optional (single (.satisfy isSign)) : Parser κ ρ (List Char)).Reads text rules
      (power.sign ++ rest) power.sign rest := by
  have hread {sign : Char} (hleft : sign :: rest <:+ text.toList) (hsign : isSign sign = true) :
      (single (.satisfy isSign) : Parser κ ρ (List Char)).Reads text rules (sign :: rest) [sign]
        rest := (reads_satisfy hleft hsign).map
  obtain hsign | hsign | hsign := power.isSign <;> rw [hsign] at hleft ⊢
  · exact reads_optional_of_rejects (rejects_satisfy hleft hrest).map
  · exact reads_optional (hread hleft (by decide))
  · exact reads_optional (hread hleft (by decide))

theorem reads_exponent {power : Power} (hleft : power.text ++ rest <:+ text.toList)
    (hrest : ∀ c ∈ rest.head?, isDigit c = false) :
    (exponent : Parser κ ρ (List Char)).Reads text rules (power.text ++ rest) power.text rest := by
  simp only [Power.text, List.cons_append, List.append_assoc] at hleft ⊢
  have hsigned : power.sign ++ (power.digits ++ rest) <:+ text.toList :=
    (List.suffix_cons _ _).trans hleft
  have hunsigned : power.digits ++ rest <:+ text.toList := (List.suffix_append _ _).trans hsigned
  have hhead : ∀ c ∈ (power.digits ++ rest).head?, isSign c = false := by
    intro c hc
    have hdigit := power.isRun.head_accepted c hc
    have hplus : c ≠ '+' := Reading.ne_of_isDigit hdigit (by decide)
    have hminus : c ≠ '-' := Reading.ne_of_isDigit hdigit (by decide)
    simp [isSign, hplus, hminus]
  have hmark : isExponentMark power.mark = true := by simpa [isExponentMark] using power.isMark
  exact (((reads_satisfy hleft hmark).pair (reads_exponentSign hsigned hhead)).pair
    (reads_many1_satisfy hunsigned power.isRun hrest)).map

theorem reads_power (hleft : numeral.powerText ++ rest <:+ text.toList)
    (hstops : numeral.Stops rest) :
    (optional exponent : Parser κ ρ (List Char)).Reads text rules (numeral.powerText ++ rest)
      numeral.powerText rest := by
  unfold Numeral.powerText at hleft ⊢
  cases hpower : numeral.power with
  | none =>
    rw [hpower] at hleft
    refine reads_optional_of_rejects ((respects_exponent hleft).rejects ?_)
    rintro slice value tail hsplit ⟨-, power, rfl⟩
    exact hstops.power hpower power tail hsplit
  | some power =>
    rw [hpower] at hleft
    exact reads_optional (reads_exponent hleft hstops.digit)

theorem reads_fraction (hleft : numeral.fractionText ++ (numeral.powerText ++ rest) <:+ text.toList)
    (hstops : numeral.Stops rest) :
    (optional fraction : Parser κ ρ (List Char)).Reads text rules
      (numeral.fractionText ++ (numeral.powerText ++ rest)) numeral.fractionText
      (numeral.powerText ++ rest) := by
  unfold Numeral.fractionText at hleft ⊢
  cases hfraction : numeral.fraction with
  | none =>
    rw [hfraction] at hleft
    refine reads_optional_of_rejects ((respects_fraction hleft).rejects ?_)
    rintro slice value tail hsplit ⟨-, decimals, hdecimals, rfl⟩
    unfold Numeral.powerText at hsplit
    cases hpower : numeral.power with
    | none =>
      rw [hpower] at hsplit
      exact hstops.fraction hfraction hpower decimals tail hdecimals hsplit
    | some power =>
      rw [hpower] at hsplit
      exact absurd (List.cons.inj hsplit).1 Numeral.mark_of_power.2.2.1
  | some decimals =>
    rw [hfraction] at hleft
    have htail : decimals ++ (numeral.powerText ++ rest) <:+ text.toList :=
      (List.suffix_cons '.' _).trans hleft
    have hdecimals := numeral.fraction_isRun decimals hfraction
    have hread : (fraction : Parser κ ρ (List Char)).Reads text rules
        ('.' :: (decimals ++ (numeral.powerText ++ rest))) ('.' :: decimals)
        (numeral.powerText ++ rest) :=
      ((reads_char hleft).pair (reads_many1_satisfy htail hdecimals (hstops.powerText_head))).map
    exact reads_optional hread

theorem reads_numberText (hleft : numeral.text ++ rest <:+ text.toList)
    (hstops : numeral.Stops rest) :
    (numberText : Parser κ ρ (List Char)).Reads text rules (numeral.text ++ rest) numeral.text
      rest := by
  simp only [Numeral.text, List.append_assoc] at hleft ⊢
  have hunsigned := (List.suffix_append numeral.signText _).trans hleft
  have hafterWhole := (List.suffix_append numeral.whole _).trans hunsigned
  have hafterFraction := (List.suffix_append numeral.fractionText _).trans hafterWhole
  apply (reads_sign hleft (numeral.head?_whole_append _)).step
  apply (reads_many1_satisfy hunsigned numeral.whole_isRun hstops.fractionText_head).step
  apply (reads_fraction hafterWhole hstops).step
  apply (reads_power hafterFraction hstops).step
  rw [← List.append_assoc, ← List.append_assoc]
  exact reads_finish

end Numerals

/-! ## Numbers -/

/-- No digit or sign is at hand. -/
theorem rejects_numberText (hleft : left <:+ text.toList)
    (hhead : ∀ c ∈ left.head?, isDigit c = false ∧ c ≠ '-') :
    (numberText : Parser κ ρ (List Char)).Rejects text rules left := by
  have hminus : left.head? ≠ some '-' := fun hc ↦ (hhead '-' hc).2 rfl
  have hsign : (single (.char '-') : Parser κ ρ (List Char)).Rejects text rules left :=
    (rejects_char hleft hminus).map
  have hdigits : (digits : Parser κ ρ (List Char)).Rejects text rules left :=
    rejects_many1_satisfy hleft fun c hc ↦ (hhead c hc).1
  exact (reads_optional_of_rejects hsign).step_rejects hdigits.step

theorem isFloatMark_of_isBlank {c : Char} (hc : isBlank c = true) : isFloatMark c = false := by
  apply Bool.eq_false_iff.2
  intro hmark
  have hmark : (c = '.' ∨ c = 'e') ∨ c = 'E' := by
    simpa [isFloatMark, isExponentMark, or_assoc] using hmark
  obtain (rfl | rfl) | rfl := hmark <;> exact absurd hc (by decide)

/-- A blank stops every numeral. -/
theorem Numeral.Stops.gap_append {numeral : Numeral} {gap : List Char}
    (hgap : ∀ c ∈ gap, isBlank c = true) (hstops : gap = [] → numeral.Stops rest) :
    numeral.Stops (gap ++ rest) := by
  cases gap with
  | nil => exact hstops rfl
  | cons d gap =>
    have hblank := hgap d List.mem_cons_self
    have hstop : isDigit d = false ∧ isFloatMark d = false :=
      ⟨isDigit_eq_false_of_isBlank hblank, isFloatMark_of_isBlank hblank⟩
    exact Numeral.stops_of_head (forall_mem_head?_cons hstop (gap ++ rest))

theorem reads_number {numeral : Numeral} {gap : List Char}
    (hleft : numeral.text ++ (gap ++ rest) <:+ text.toList) (hshort : numeral.IsShort)
    (hgap : ∀ c ∈ gap, isBlank c = true) (hrest : ∀ c ∈ rest.head?, isBlank c = false)
    (hstops : gap = [] → numeral.Stops rest) :
    (number : Parser κ ρ Number).Reads text rules (numeral.text ++ (gap ++ rest)) numeral.value
      rest := by
  have hconvert : (Parser.convert numberText numberValue : Parser κ ρ Number).Reads text rules
      (numeral.text ++ (gap ++ rest)) numeral.value (gap ++ rest) :=
    (reads_numberText hleft (Numeral.Stops.gap_append hgap hstops)).convert
      (numeral.numberValue_text hshort)
  exact hconvert.lexeme ((List.suffix_append _ _).trans hleft) hgap hrest

theorem respects_number (hleft : left <:+ text.toList)
    (hruns : ∀ run, run <:+: left → (∀ c ∈ run, isDigit c = true) → run.length ≤ 4300) :
    (number : Parser κ ρ Number).Respects text rules (fun slice value ↦ ∃ (numeral : Numeral) (gap :
      List Char), slice = numeral.text ++ gap ∧ (∀ c ∈ gap, isBlank c = true) ∧
        value = numeral.value) left := by
  have hconvert : (Parser.convert numberText numberValue : Parser κ ρ Number).Respects text rules
      (fun slice value ↦ ∃ numeral : Numeral, slice = numeral.text ∧ value = numeral.value)
      left := by
    apply (respects_numberText hleft).convert
    rintro _ value hprefix ⟨rfl, numeral, rfl⟩
    have hwhole : numeral.whole <:+: left := numeral.whole_infix.trans hprefix.isInfix
    have hlimit := hruns _ hwhole numeral.whole_isRun.accepted
    exact ⟨numeral.value, numeral.numberValue_text fun _ _ ↦ hlimit, numeral, rfl, rfl⟩
  apply (hconvert.lexeme hleft).mono
  rintro _ value - ⟨_, gap, rfl, ⟨numeral, rfl, rfl⟩, hgap⟩
  exact ⟨numeral, gap, rfl, hgap, rfl⟩

theorem rejects_number (hleft : left <:+ text.toList)
    (hhead : ∀ c ∈ left.head?, isDigit c = false ∧ c ≠ '-') :
    (number : Parser κ ρ Number).Rejects text rules left :=
  (rejects_numberText hleft hhead).convert.keepLeft

end ParserCombinators.Json
