import Mathlib.Data.List.Forall2
import ParserCombinators.CommandLine.Lines
import ParserCombinators.Proofs.Text.Strip

/-!
# The usable lines

A line is used as stripping leaves it, unless nothing is left. The lines in front of the first one
that says `quit` are used, and it does not matter what comes after that one. What is used of a list
of lines can be given as lines again, and all of it is used once more.
-/

namespace ParserCombinators.CommandLine

variable {lines before behind others texts : List (List Char)} {line text : List Char}

/-- Each letter of the word may be a small or a capital one. -/
def SaysQuit (text : List Char) : Prop := text.map Char.toLower = "quit".toList

instance : DecidablePred SaysQuit := fun text ↦
  inferInstanceAs (Decidable (text.map Char.toLower = "quit".toList))

theorem isQuit_iff : isQuit text = true ↔ SaysQuit text := by
  rw [isQuit, beq_iff_eq]
  rfl

theorem forall₂_isStripOf_iff : List.Forall₂ IsStripOf lines texts ↔ lines.map strip = texts := by
  have hstrip : IsStripOf = fun line text ↦ strip line = text := by
    funext line text
    exact propext strip_eq_iff.symm
  have heq : lines.map strip = texts ↔ List.Forall₂ (· = ·) (lines.map strip) texts := by
    rw [List.forall₂_eq_eq_eq]
  rw [hstrip, heq, List.forall₂_map_left_iff]

theorem usableLines_eq_filter (lines : List (List Char)) :
    usableLines lines = ((lines.map strip).takeWhile (¬SaysQuit ·)).filter (· ≠ []) := by
  induction lines with
  | nil => rfl
  | cons line lines ih =>
    rw [usableLines, ih, List.map_cons]
    generalize strip line = text
    by_cases hquit : SaysQuit text
    · simp [isQuit_iff, hquit]
    · cases text <;> simp [isQuit_iff, hquit]

/-- The line that says `quit` hides all lines behind it. -/
theorem usableLines_append_cons (before behind : List (List Char))
    (hquit : SaysQuit (strip line)) :
    usableLines (before ++ line :: behind) = usableLines before := by
  have hbehind : (strip line :: behind.map strip).takeWhile (¬SaysQuit ·) = [] :=
    List.takeWhile_cons_of_neg (by simpa using hquit)
  rw [usableLines_eq_filter, usableLines_eq_filter, List.map_append, List.map_cons,
    List.takeWhile_append, hbehind, List.append_nil]
  split
  case isTrue hall => rw [(List.takeWhile_prefix _).eq_of_length hall]
  case isFalse => rfl

theorem usableLines_append (others : List (List Char))
    (hlines : ∀ line ∈ lines, ¬SaysQuit (strip line)) :
    usableLines (lines ++ others) = usableLines lines ++ usableLines others := by
  have hall : ∀ text ∈ lines.map strip, decide (¬SaysQuit text) = true := by
    simpa using hlines
  simp only [usableLines_eq_filter, List.map_append, List.takeWhile_append_of_pos hall,
    List.takeWhile_eq_self_iff.2 hall, List.filter_append]

/-! ## Lines that are used as they are -/

/-- What the line says is used, and there is nothing to strip. -/
structure IsUsable (text : List Char) : Prop where
  isStripped : strip text = text
  not_saysQuit : ¬SaysQuit text
  nonempty : text ≠ []

theorem usableLines_eq_self (htexts : ∀ text ∈ texts, IsUsable text) :
    usableLines texts = texts := by
  have hstrip : texts.map strip = texts :=
    (List.map_congr_left fun text htext ↦ (htexts text htext).isStripped).trans (List.map_id texts)
  have hquit : texts.takeWhile (¬SaysQuit ·) = texts :=
    List.takeWhile_eq_self_iff.2 fun text htext ↦ by simpa using (htexts text htext).not_saysQuit
  have hsome : texts.filter (· ≠ []) = texts :=
    List.filter_eq_self.2 fun text htext ↦ by simpa using (htexts text htext).nonempty
  rw [usableLines_eq_filter, hstrip, hquit, hsome]

theorem isUsable_of_mem_usableLines (htext : text ∈ usableLines lines) : IsUsable text := by
  rw [usableLines_eq_filter, List.mem_filter] at htext
  obtain ⟨hmem, hsome⟩ := htext
  have hquit := List.mem_takeWhile_imp hmem
  obtain ⟨line, -, rfl⟩ := List.mem_map.1 ((List.takeWhile_subset _) hmem)
  exact ⟨strip_strip line, by simpa using hquit, by simpa using hsome⟩

theorem usableLines_usableLines (lines : List (List Char)) :
    usableLines (usableLines lines) = usableLines lines :=
  usableLines_eq_self fun _ ↦ isUsable_of_mem_usableLines

/-- What is used of the lines is what stripping leaves of those in front of the first one that says
`quit`, without the empty ones. It is the same whatever lines come behind that one. Where no line
says `quit`, further lines only add what is used of them, and the used lines are all used again. -/
theorem usableLines_before_quit (lines : List (List Char)) :
    ∃ texts, List.Forall₂ IsStripOf lines texts ∧
      usableLines lines = (texts.takeWhile (¬SaysQuit ·)).filter (· ≠ []) ∧
      (∀ before line behind, lines = before ++ line :: behind → SaysQuit (strip line) →
        ∀ others, usableLines (before ++ line :: others) = usableLines lines) ∧
      ((∀ text ∈ texts, ¬SaysQuit text) →
        ∀ others, usableLines (lines ++ others) = usableLines lines ++ usableLines others) ∧
      usableLines (usableLines lines) = usableLines lines := by
  refine ⟨lines.map strip, forall₂_isStripOf_iff.2 rfl, usableLines_eq_filter lines, ?_, ?_,
    usableLines_usableLines lines⟩
  · rintro before line behind rfl hquit others
    rw [usableLines_append_cons before others hquit, usableLines_append_cons before behind hquit]
  · intro hlines others
    exact usableLines_append others fun line hline ↦ hlines _ (List.mem_map_of_mem hline)

/-- Capitals and blanks make no difference to the line that says `quit`. -/
theorem usableLines_before_capital_quit :
    SaysQuit (strip " QuIt\n".toList) ∧
    (∀ others, usableLines ("a \n".toList :: "\t\n".toList :: " QuIt\n".toList :: others) =
      ["a".toList]) ∧
    ¬SaysQuit (strip "a \n".toList) ∧ ¬SaysQuit (strip "\t\n".toList) ∧
    ∀ others, usableLines ("a \n".toList :: "\t\n".toList :: others) =
      "a".toList :: usableLines others := by
  refine ⟨by decide, ?_, by decide, by decide, ?_⟩
  · intro others
    obtain ⟨-, -, -, hhidden, -⟩ := usableLines_before_quit
      ["a \n".toList, "\t\n".toList, " QuIt\n".toList]
    exact hhidden ["a \n".toList, "\t\n".toList] " QuIt\n".toList [] rfl (by decide) others
  · intro others
    obtain ⟨texts, htexts, -, -, happend, -⟩ :=
      usableLines_before_quit ["a \n".toList, "\t\n".toList]
    rw [← forall₂_isStripOf_iff.1 htexts] at happend
    exact happend (by decide) others

end ParserCombinators.CommandLine
