import Mathlib.Data.List.Basic
import Mathlib.Data.List.TakeWhile
import ParserCombinators.Text.Strip

/-!
# What stripping leaves

Stripping takes the blanks off the ends and nothing else: what it leaves starts and ends with no
blank, and around it there are only blanks. That determines it, so a text that is left by stripping
is not changed by stripping again.
-/

namespace ParserCombinators

open Character

variable {characters text blanks : List Char}

theorem stripStart_append (hblanks : ∀ c ∈ blanks, isBlank c = true)
    (htext : ∀ c ∈ text.head?, isBlank c = false) : stripStart (blanks ++ text) = text := by
  rw [stripStart, List.dropWhile_append_of_pos hblanks]
  cases text with
  | nil => rfl
  | cons c rest => exact List.dropWhile_cons_of_neg (by simp [htext c rfl])

theorem stripEnd_append (hblanks : ∀ c ∈ blanks, isBlank c = true)
    (htext : ∀ c ∈ text.getLast?, isBlank c = false) : stripEnd (text ++ blanks) = text := by
  have hreverse : stripStart (blanks.reverse ++ text.reverse) = text.reverse := by
    apply stripStart_append
    · exact fun c hc ↦ hblanks c (List.mem_reverse.1 hc)
    · rwa [List.head?_reverse]
  rw [stripEnd, List.reverse_append]
  exact List.reverse_eq_iff.2 hreverse

theorem exists_stripStart_append (characters : List Char) :
    ∃ blanks, characters = blanks ++ stripStart characters ∧ (∀ c ∈ blanks, isBlank c = true) ∧
      ∀ c ∈ (stripStart characters).head?, isBlank c = false := by
  refine ⟨characters.takeWhile isBlank, List.takeWhile_append_dropWhile.symm,
    fun c hc ↦ List.mem_takeWhile_imp hc, fun c hc ↦ ?_⟩
  have hhead := List.head?_dropWhile_not isBlank characters
  rwa [← stripStart, Option.mem_def.1 hc] at hhead

theorem exists_stripEnd_append (characters : List Char) :
    ∃ blanks, characters = stripEnd characters ++ blanks ∧ (∀ c ∈ blanks, isBlank c = true) ∧
      ∀ c ∈ (stripEnd characters).getLast?, isBlank c = false := by
  obtain ⟨blanks, hsplit, hblanks, hhead⟩ := exists_stripStart_append characters.reverse
  refine ⟨blanks.reverse, ?_, fun c hc ↦ hblanks c (List.mem_reverse.1 hc), ?_⟩
  · rw [stripEnd, ← List.reverse_append]
    exact List.reverse_eq_iff.1 hsplit
  · rwa [stripEnd, List.getLast?_reverse]

/-- The text is what the blanks at both ends leave of the characters. -/
structure IsStripOf (characters text : List Char) : Prop where
  split : ∃ before behind, characters = before ++ (text ++ behind) ∧
    ∀ c ∈ before ++ behind, isBlank c = true
  head : ∀ c ∈ text.head?, isBlank c = false
  last : ∀ c ∈ text.getLast?, isBlank c = false

theorem IsStripOf.strip_eq (htext : IsStripOf characters text) : strip characters = text := by
  obtain ⟨⟨before, behind, rfl, hblanks⟩, hhead, hlast⟩ := htext
  cases text with
  | nil =>
    have hend : stripEnd ([] ++ (before ++ behind)) = [] := stripEnd_append hblanks hlast
    rw [List.nil_append] at hend ⊢
    rw [strip, hend]
    rfl
  | cons c rest =>
    rw [List.forall_mem_append] at hblanks
    have hend : stripEnd (before ++ c :: rest ++ behind) = before ++ c :: rest := by
      apply stripEnd_append hblanks.2
      rwa [List.getLast?_append_of_ne_nil before (List.cons_ne_nil c rest)]
    rw [strip, ← List.append_assoc, hend]
    exact stripStart_append hblanks.1 hhead

theorem isStripOf_strip (characters : List Char) : IsStripOf characters (strip characters) := by
  obtain ⟨behind, hsplit, hbehind, hlast⟩ := exists_stripEnd_append characters
  obtain ⟨before, hsplit', hbefore, hhead⟩ := exists_stripStart_append (stripEnd characters)
  rw [← strip] at hsplit' hhead
  refine ⟨⟨before, behind, ?_, List.forall_mem_append.2 ⟨hbefore, hbehind⟩⟩, hhead, fun c hc ↦ ?_⟩
  · rw [← List.append_assoc, ← hsplit', ← hsplit]
  · have hne : strip characters ≠ [] := by
      intro hnil
      rw [hnil] at hc
      cases hc
    apply hlast
    rwa [hsplit', List.getLast?_append_of_ne_nil before hne]

theorem strip_eq_iff : strip characters = text ↔ IsStripOf characters text :=
  ⟨fun heq ↦ heq ▸ isStripOf_strip characters, IsStripOf.strip_eq⟩

theorem strip_strip (characters : List Char) : strip (strip characters) = strip characters := by
  obtain ⟨-, hhead, hlast⟩ := isStripOf_strip characters
  exact IsStripOf.strip_eq ⟨⟨[], [], by simp, by simp⟩, hhead, hlast⟩

end ParserCombinators
