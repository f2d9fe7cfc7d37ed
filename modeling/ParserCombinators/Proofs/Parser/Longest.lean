import Mathlib.Data.Nat.Find
import ParserCombinators.Proofs.Parser.Reading

/-!
# Longest prefixes

A parser that respects a language, and that reads every slice which no longer one of the language
continues, finds the longest prefix of a text in the language. Such a parser never backs out of what
it read, so both conditions are about a single position.
-/

namespace ParserCombinators

variable {κ ρ α : Type} {text : Text} {language : Language α}

/-- The prefix up to the position has the value, and no longer prefix has any value. -/
structure IsLongestPrefix (language : Language α) (text : Text) (value : α) (position : Int) :
    Prop where
  nonneg : 0 ≤ position
  le_size : position ≤ text.size
  derives : language (text.toList.take position.toNat) value
  longest : ∀ length other, position.toNat < length → length ≤ text.size →
    ¬language (text.toList.take length) other

/-- No slice that goes on with the prefix is in the language. -/
theorem IsLongestPrefix.not_append {slice more rest : List Char} {value other : α}
    (hlongest : IsLongestPrefix language (slice ++ (more ++ rest)).toArray value slice.length)
    (hmore : more ≠ []) : ¬language (slice ++ more) other := by
  have hlength := List.length_pos_iff.2 hmore
  have htake : (slice ++ (more ++ rest)).take (slice ++ more).length = slice ++ more := by
    rw [← List.append_assoc, List.take_left]
  rw [← htake]
  refine hlongest.longest (slice ++ more).length other ?_ ?_
  · rw [List.length_append]
    omega
  · simp only [List.size_toArray, List.length_append]
    omega

def HasPrefix (language : Language α) (text : Text) : Prop :=
  ∃ length value, language (text.toList.take length) value

theorem IsLongestPrefix.hasPrefix {value : α} {position : Int}
    (hlongest : IsLongestPrefix language text value position) : HasPrefix language text :=
  ⟨position.toNat, value, hlongest.derives⟩

theorem IsLongestPrefix.congr {language' : Language α} {value : α} {position : Int}
    (hlongest : IsLongestPrefix language text value position)
    (hsame : ∀ length value, language' (text.toList.take length) value ↔
      language (text.toList.take length) value) :
    IsLongestPrefix language' text value position where
  nonneg := hlongest.nonneg
  le_size := hlongest.le_size
  derives := (hsame _ _).2 hlongest.derives
  longest length other hlonger hle hother :=
    hlongest.longest length other hlonger hle ((hsame _ _).1 hother)

/-- Nothing is longer than the whole text. -/
theorem isLongestPrefix_whole {value : α} (hwhole : language text.toList value) :
    IsLongestPrefix language text value text.size where
  nonneg := Int.natCast_nonneg _
  le_size := Int.le_refl _
  derives := by
    rw [Int.toNat_natCast, ← Array.length_toList, List.take_length]
    exact hwhole
  longest length other hlonger hle := by
    rw [Int.toNat_natCast] at hlonger
    omega

/-- Something is left over exactly if the whole text has no value. -/
theorem IsLongestPrefix.lt_size_iff {value : α} {position : Int}
    (hlongest : IsLongestPrefix language text value position) :
    position < text.size ↔ ∀ other, ¬language text.toList other := by
  have hwhole : text.toList.take text.size = text.toList := by
    rw [← Array.length_toList, List.take_length]
  constructor
  · intro hleft other hother
    have := hlongest.nonneg
    refine hlongest.longest text.size other (by omega) le_rfl ?_
    rwa [hwhole]
  · intro hnone
    by_contra hle
    have hend : position.toNat = text.size := by
      have := hlongest.le_size
      omega
    have hderives := hlongest.derives
    rw [hend, hwhole] at hderives
    exact hnone value hderives

theorem HasPrefix.exists_longest (hsome : HasPrefix language text) :
    ∃ value position, IsLongestPrefix language text value position := by
  classical
  obtain ⟨length, value, hvalue⟩ := hsome
  let derivable := fun length ↦ ∃ value, language (text.toList.take length) value
  have hbounded : derivable (min length text.size) := by
    refine ⟨value, ?_⟩
    rwa [← Array.length_toList, ← List.take_eq_take_min]
  obtain ⟨longest, hlongest⟩ := Nat.findGreatest_spec (min_le_right _ _) hbounded
  refine ⟨longest, Nat.findGreatest derivable text.size, ?_⟩
  exact {
    nonneg := Int.natCast_nonneg _
    le_size := Int.ofNat_le.2 (Nat.findGreatest_le _)
    derives := hlongest
    longest := fun length other hlonger hle hother ↦
      Nat.findGreatest_is_greatest hlonger hle ⟨other, hother⟩ }

namespace Parser

variable {rules : κ → Matcher ρ} {parser : Parser κ ρ α} {value : α}

/-- The parser reads whatever slice is not continued by a longer one. -/
def ReadsLongest (text : Text) (rules : κ → Matcher ρ) (parser : Parser κ ρ α)
    (language : Language α) (left : List Char) : Prop :=
  ∀ slice rest value, left = slice ++ rest → language slice value →
    (∀ more rest' other, rest = more ++ rest' → more ≠ [] → ¬language (slice ++ more) other) →
    parser.Reads text rules left value rest

variable {left : List Char}

theorem outcome_eq_success_of_longest {length : Int}
    (hreads : parser.ReadsLongest text rules language left)
    (hlongest : IsLongestPrefix language left.toArray value length) :
    (parser.matcher text rules (text.positionOf left)).outcome =
      .success value (text.positionOf left + length) := by
  obtain ⟨hnonneg, hsize, hderives, hlonger⟩ := hlongest
  obtain ⟨length, rfl⟩ := Int.eq_ofNat_of_zero_le hnonneg
  rw [Int.toNat_natCast] at hderives hlonger
  have hlength : length ≤ left.length := by
    rw [List.size_toArray] at hsize
    omega
  have hread := hreads (left.take length) (left.drop length) value
    (List.take_append_drop length _).symm hderives fun more rest other hsplit hmore hother ↦ by
      have htake : left.take length ++ more = left.take (length + more.length) := by
        rw [List.take_add, hsplit, List.take_left]
      have hmoreLength := congrArg List.length hsplit
      rw [List.length_drop, List.length_append] at hmoreLength
      have := List.length_pos_iff.2 hmore
      refine hlonger (length + more.length) other (by omega) ?_ (htake ▸ hother)
      rw [List.size_toArray]
      omega
  rw [Reads] at hread
  rw [hread, Text.positionOf, Text.positionOf, List.length_drop]
  congr 1
  omega

/-- What is left of the text at a position is looked at as a text of its own. -/
theorem outcome_positionOf_eq_success_iff
    (hrespects : parser.Respects text rules language left)
    (hreads : parser.ReadsLongest text rules language left) {stop : Int} :
    (parser.matcher text rules (text.positionOf left)).outcome = .success value stop ↔
      IsLongestPrefix language left.toArray value (stop - text.positionOf left) := by
  constructor
  · intro hsuccess
    have hsome : HasPrefix language left.toArray := by
      obtain hrejects | ⟨slice, value, rest, rfl, hslice, -⟩ := hrespects
      · rw [Rejects, hsuccess] at hrejects
        cases hrejects
      · exact ⟨slice.length, value, by rwa [List.take_left]⟩
    obtain ⟨found, length, hlongest⟩ := hsome.exists_longest
    have hfound := outcome_eq_success_of_longest hreads hlongest
    rw [hsuccess, Outcome.success.injEq] at hfound
    obtain ⟨rfl, hstop⟩ := hfound
    have hlength : length = stop - text.positionOf left := by omega
    rwa [← hlength]
  · intro hlongest
    rw [outcome_eq_success_of_longest hreads hlongest]
    congr 1
    omega

theorem outcome_positionOf_eq_failure_iff
    (hrespects : parser.Respects text rules language left)
    (hreads : parser.ReadsLongest text rules language left) :
    (parser.matcher text rules (text.positionOf left)).outcome = .failure ↔
      ¬HasPrefix language left.toArray := by
  constructor
  · intro hfailure hsome
    obtain ⟨value, length, hlongest⟩ := hsome.exists_longest
    rw [outcome_eq_success_of_longest hreads hlongest] at hfailure
    cases hfailure
  · intro hnone
    obtain hrejects | ⟨slice, value, rest, rfl, hslice, -⟩ := hrespects
    · exact hrejects
    · exact absurd ⟨slice.length, value, by rwa [List.take_left]⟩ hnone

/-! At the start all of the text is left. -/

theorem outcome_eq_success_iff
    (hrespects : parser.Respects text rules language text.toList)
    (hreads : parser.ReadsLongest text rules language text.toList) {position : Int} :
    (parser.matcher text rules 0).outcome = .success value position ↔
      IsLongestPrefix language text value position := by
  have hleft : (parser.matcher text rules (text.positionOf text.toList)).outcome =
      .success value position ↔ _ := outcome_positionOf_eq_success_iff hrespects hreads
  rwa [Text.positionOf_toList, Int.sub_zero, Array.toArray_toList] at hleft

theorem outcome_eq_failure_iff
    (hrespects : parser.Respects text rules language text.toList)
    (hreads : parser.ReadsLongest text rules language text.toList) :
    (parser.matcher text rules 0).outcome = .failure ↔ ¬HasPrefix language text := by
  have hleft := outcome_positionOf_eq_failure_iff hrespects hreads
  rwa [Text.positionOf_toList, Array.toArray_toList] at hleft

end Parser

end ParserCombinators
