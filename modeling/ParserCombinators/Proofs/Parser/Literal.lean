import ParserCombinators.Parser.Lexical
import ParserCombinators.Proofs.Parser.Choosing
import ParserCombinators.Proofs.Parser.Laws

/-!
# Fixed texts

The parser for a fixed text asks for its characters one after another. What it finds out is whether
the slice of that length is the fixed text. Only the empty one stands everywhere, even outside of
the text. A fixed text in two parts is the first part with the second one behind it.
-/

namespace ParserCombinators

/-! ## Characters in a row -/

namespace Text

variable {text : Text} {position : Int} {characters : List Char}

/-- From the position on, the characters stand in the text one after another. -/
def HasAt (text : Text) : List Char → Int → Prop
  | [], _ => True
  | c :: rest, position => text.charAt? position = some c ∧ text.HasAt rest (position + 1)

theorem hasAt_append (text : Text) (before behind : List Char) (position : Int) :
    text.HasAt (before ++ behind) position ↔
      text.HasAt before position ∧ text.HasAt behind (position + before.length) := by
  induction before generalizing position with
  | nil => simp [HasAt]
  | cons c before ih =>
    have hposition : position + 1 + before.length = position + (c :: before).length := by
      rw [List.length_cons]
      omega
    rw [List.cons_append, HasAt, HasAt, ih, hposition, and_assoc]

/-- Inside of the text the characters are a prefix of what is left. -/
theorem hasAt_natCast_iff (start : Nat) :
    text.HasAt characters start ↔ characters <+: text.toList.drop start := by
  induction characters generalizing start with
  | nil => simp [HasAt]
  | cons c rest ih =>
    have hnext : (start : Int) + 1 = (start + 1 : Nat) := rfl
    rw [HasAt, charAt?_eq_some, Int.toNat_natCast, hnext, ih, ← Array.getElem?_toList]
    by_cases hstart : start < text.toList.length
    · rw [List.drop_eq_getElem_cons hstart, List.cons_prefix_cons, List.getElem?_eq_getElem hstart,
        Option.some.injEq]
      simp [eq_comm]
    · have hbeyond : text.toList.length ≤ start := Nat.not_lt.1 hstart
      simp [List.getElem?_eq_none hbeyond, List.drop_eq_nil_of_le hbeyond]

theorem hasAt_iff_extract : text.HasAt characters position ↔ characters = [] ∨
    0 ≤ position ∧ text.extract position.toNat (position + characters.length).toNat =
      characters.toArray := by
  cases characters with
  | nil => simp [HasAt]
  | cons c rest =>
    by_cases hposition : 0 ≤ position
    · obtain ⟨start, rfl⟩ := Int.eq_ofNat_of_zero_le hposition
      have hstop : ((start : Int) + (c :: rest).length).toNat = start + (c :: rest).length := by
        omega
      have hlength : start + (c :: rest).length - start = (c :: rest).length := by omega
      rw [hasAt_natCast_iff, List.prefix_iff_eq_take, hstop, Int.toNat_natCast, ← Array.toList_inj,
        Array.toList_extract, List.extract_eq_take_drop, hlength]
      simp [eq_comm]
    · simp [HasAt, charAt?_of_neg (Int.not_le.1 hposition), hposition]

end Text

/-! ## One character after another -/

namespace Parser

variable {κ ρ α : Type} {text : Text} {rules : κ → Matcher ρ} {position : Int} {value : α}
  {characters : List Char}

theorem matcher_char_of_charAt? {c : Char} (hc : text.charAt? position = some c) :
    (char c : Parser κ ρ Char).matcher text rules position = .succeeded c (position + 1) := by
  simp [char, Matcher.satisfy, hc]

theorem matcher_char_of_ne {c : Char} (hc : text.charAt? position ≠ some c) :
    (char c : Parser κ ρ Char).matcher text rules position = .failed := by
  cases hfound : text.charAt? position with
  | none => exact matcher_satisfy_outside hfound _
  | some d =>
    have hne : d ≠ c := by
      rintro rfl
      exact hc hfound
    simp [char, Matcher.satisfy, hfound, hne]

theorem matcher_spelling_of_hasAt (hcharacters : text.HasAt characters position) :
    (sequence none (spelling value characters) : Parser κ ρ α).matcher text rules position =
      .succeeded value (position + characters.length) := by
  induction characters generalizing position with
  | nil => exact congrArg (Run.succeeded value) (Int.add_zero position).symm
  | cons c rest ih =>
    obtain ⟨hc, hrest⟩ := hcharacters
    have hposition : position + 1 + rest.length = position + (c :: rest).length := by
      rw [List.length_cons]
      omega
    rw [spelling, matcher_step, matcher, Matcher.bind, matcher_char_of_charAt? hc,
      Run.succeeded_andThen, ih hrest, hposition]

theorem matcher_spelling_of_not_hasAt (hcharacters : ¬text.HasAt characters position) :
    (sequence none (spelling value characters) : Parser κ ρ α).matcher text rules position =
      .failed := by
  induction characters generalizing position with
  | nil => exact absurd trivial hcharacters
  | cons c rest ih =>
    rw [spelling, matcher_step, matcher, Matcher.bind]
    by_cases hc : text.charAt? position = some c
    · rw [matcher_char_of_charAt? hc, Run.succeeded_andThen]
      exact ih fun hrest ↦ hcharacters ⟨hc, hrest⟩
    · rw [matcher_char_of_ne hc]
      rfl

/-! ## Fixed texts -/

theorem matcher_literal_of_hasAt {expected : String}
    (hexpected : text.HasAt expected.toList position) :
    (literal expected : Parser κ ρ String).matcher text rules position =
      .succeeded expected (position + expected.length) := by
  rw [← String.length_toList]
  exact matcher_spelling_of_hasAt hexpected

theorem matcher_literal_of_not_hasAt {expected : String}
    (hexpected : ¬text.HasAt expected.toList position) :
    (literal expected : Parser κ ρ String).matcher text rules position = .failed :=
  matcher_spelling_of_not_hasAt hexpected

theorem sameRuns_literal_append (before behind : String) :
    SameRuns (literal (before ++ behind) : Parser κ ρ String)
      (((literal before).pair (literal behind)).map fun spelled ↦ spelled.1 ++ spelled.2) := by
  intro text rules
  funext position
  rw [map, matcher, matcher, Matcher.convert, Matcher.pair]
  have happend : text.HasAt (before ++ behind).toList position ↔
      text.HasAt before.toList position ∧ text.HasAt behind.toList (position + before.length) := by
    rw [String.toList_append, Text.hasAt_append, String.length_toList]
  by_cases hbefore : text.HasAt before.toList position
  · rw [matcher_literal_of_hasAt hbefore, Run.succeeded_andThen]
    by_cases hbehind : text.HasAt behind.toList (position + before.length)
    · rw [matcher_literal_of_hasAt hbehind, matcher_literal_of_hasAt (happend.2 ⟨hbefore, hbehind⟩),
        String.length_append, Int.natCast_add, ← Int.add_assoc]
      rfl
    · rw [matcher_literal_of_not_hasAt hbehind,
        matcher_literal_of_not_hasAt fun hboth ↦ hbehind (happend.1 hboth).2]
      rfl
  · rw [matcher_literal_of_not_hasAt hbefore,
      matcher_literal_of_not_hasAt fun hboth ↦ hbefore (happend.1 hboth).1]
    rfl

/-- The parser for a fixed text compares it with the slice at the position, and nothing else counts.
The one for two texts joined does what the two parsers do one after the other. -/
theorem literal_compares_slice (expected : String) (text : Text) (rules : κ → Matcher ρ)
    (position : Int) :
    (literal expected).matcher text rules position =
      (if expected = "" ∨ 0 ≤ position ∧
          text.extract position.toNat (position + expected.length).toNat = Text.ofString expected
        then .succeeded expected (position + expected.length)
        else .failed) ∧
    ∀ other : String, SameRuns (literal (expected ++ other) : Parser κ ρ String)
      (((literal expected).pair (literal other)).map fun spelled ↦ spelled.1 ++ spelled.2) := by
  refine ⟨?_, sameRuns_literal_append expected⟩
  have hslice : text.HasAt expected.toList position ↔ expected = "" ∨ 0 ≤ position ∧
      text.extract position.toNat (position + expected.length).toNat = Text.ofString expected := by
    rw [Text.hasAt_iff_extract, String.toList_eq_nil_iff, String.length_toList, Text.ofString]
  split
  case isTrue hstands => exact matcher_literal_of_hasAt (hslice.2 hstands)
  case isFalse hstands => exact matcher_literal_of_not_hasAt (mt hslice.1 hstands)

end Parser

end ParserCombinators
