import ParserCombinators.Proofs.Json.Grammar

/-!
# Strings at any position

At every position the string parser reads a written string and all the blanks after it, or it fails
because no string starts there.
-/

namespace ParserCombinators.Json

open Character
open ParserCombinators.Parser

variable {text : Text} {points : CodePoints} {position stop : Int}

/-- A written string stands at the position, and the stop is behind all the blanks after it. -/
def StringAt (text : Text) (position : Int) (points : CodePoints) (stop : Int) : Prop :=
  0 ≤ position ∧ ∃ slice gap rest, text.suffixFrom position = slice ++ (gap ++ rest) ∧
    WrittenString slice points ∧ AllBlank gap ∧ (∀ c ∈ rest.head?, isBlank c = false) ∧
    stop = position + (slice ++ gap).length

/-- Where there is no character there is no quote. -/
theorem runAt_string_outside (houtside : text.charAt? position = none) :
    string.runAt text position = .failed := by
  simp [runAt, string, lexeme, skipChar, char, Parser.map, Matcher.keepLeft, Matcher.convert,
    Matcher.between, matcher_satisfy_outside houtside, Run.andThen]

theorem string_of_stringAt (hstring : StringAt text position points stop) :
    (string.runAt text position).outcome = .success points stop := by
  obtain ⟨hnonneg, slice, gap, rest, hsplit, hwritten, hgap, hrest, rfl⟩ := hstring
  have hleft : slice ++ (gap ++ rest) <:+ text.toList := hsplit ▸ text.suffixFrom_suffix position
  obtain ⟨-, hposition⟩ | ⟨-, hnil⟩ := text.positionOf_or_outside position
  · have hreads : (string : Parser Empty Empty CodePoints).Reads text Empty.elim _ points rest :=
      reads_string Empty.elim hwritten hleft hgap hrest
    have hstop : text.positionOf rest = position + (slice ++ gap).length := by
      rw [← hposition, hsplit]
      simp only [Text.positionOf, List.length_append]
      omega
    rw [hsplit] at hposition
    rwa [Reads, hposition, hstop] at hreads
  · obtain ⟨body, rfl, -⟩ := hwritten
    rw [hnil hnonneg] at hsplit
    cases hsplit

/-- Where the string parser does not fail there stands a string. -/
theorem failure_or_stringAt (text : Text) (position : Int) :
    (string.runAt text position).outcome = .failure ∨
      ∃ points stop, StringAt text position points stop := by
  have hleft := text.suffixFrom_suffix position
  have hrespects : (string : Parser Empty Empty CodePoints).Respects text Empty.elim _ _ :=
    respects_string hleft
  obtain ⟨hnonneg, hposition⟩ | ⟨houtside, -⟩ := text.positionOf_or_outside position
  · obtain hrejects | ⟨_, points, rest, hsplit, ⟨slice, gap, rfl, hwritten, -⟩, -⟩ := hrespects
    · rw [Rejects, hposition] at hrejects
      exact .inl hrejects
    · obtain ⟨blanks, others, htail, hblanks, hothers⟩ := exists_longest_run isBlank (gap ++ rest)
      rw [List.append_assoc, htail] at hsplit
      exact .inr ⟨points, _, hnonneg, slice, blanks, others, hsplit, hwritten, hblanks,
        hothers, rfl⟩
  · rw [runAt_string_outside houtside]
    exact .inl rfl

/-- The string parser reads the written strings with all the blanks after them, and nothing else. -/
theorem string_iff_written (text : Text) (position : Int) :
    (∀ points stop, (string.runAt text position).outcome = .success points stop ↔
      StringAt text position points stop) ∧
    ((string.runAt text position).outcome = .failure ↔
      ∀ points stop, ¬StringAt text position points stop) := by
  have hsuccess {points stop} (hstring : StringAt text position points stop) :
      (string.runAt text position).outcome = .success points stop := string_of_stringAt hstring
  obtain hfailure | ⟨found, past, hfound⟩ := failure_or_stringAt text position
  · have hnone points stop : ¬StringAt text position points stop := by
      intro hstring
      rw [hsuccess hstring] at hfailure
      cases hfailure
    rw [hfailure]
    exact ⟨fun points stop ↦ ⟨nofun, fun hstring ↦ absurd hstring (hnone points stop)⟩,
      fun _ ↦ hnone, fun _ ↦ rfl⟩
  · rw [hsuccess hfound]
    refine ⟨fun points stop ↦ ⟨?_, fun hstring ↦ ?_⟩, nofun, fun hnone ↦ absurd hfound (hnone _ _)⟩
    · rintro ⟨⟩
      exact hfound
    · rw [← hsuccess hfound, hsuccess hstring]

/-- An escape that is cut short sinks the whole string. -/
example : (string.runAt #['\x22', 'a', '\\', 'u', '0', '6', '\x22'] 0).outcome = .failure := rfl

end ParserCombinators.Json
