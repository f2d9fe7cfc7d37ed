import Mathlib.Data.List.Basic
import ParserCombinators.CommandLine.StoppingPoint
import ParserCombinators.Proofs.Text.Strip

/-!
# Where the carets stand

The first caret stands in the column of the position, also when that lies in blanks which are not
shown. From there the carets go to the end of what is shown, and there is one at least. In front of
them the lower line has its tabs where the upper line has them, so both lines are equally wide
there, however wide tabs are.
-/

namespace ParserCombinators.CommandLine

open Character

variable {text shown trailing characters : List Char} {position column : Nat} {caption : String}

/-- A tab goes on to the next multiple of the tab width, and every other character takes one column.
-/
def expandedWidth (tabWidth : Nat) (line : List Char) : Nat :=
  line.foldl (fun width c ↦ if c = '\t' then width + (tabWidth - width % tabWidth) else width + 1) 0

/-- The column behind the carets. -/
def caretEnd (shown : List Char) (position : Nat) : Nat :=
  if position < shown.length then margin.length + shown.length else margin.length + position + 1

/-- The lower line for a text that is shown without the blanks at its end. -/
structure PointsAt (text shown : List Char) (position : Nat) (caption : String)
    (lower : List Char) : Prop where
  firstCaret : lower.idxOf '^' = margin.length + position
  before : ∀ column < margin.length + position,
    lower[column]? = some (if (margin ++ text)[column]? = some '\t' then '\t' else ' ')
  carets : ∀ column, margin.length + position ≤ column → column < caretEnd shown position →
    lower[column]? = some '^'
  behind : lower.drop (caretEnd shown position) = ' ' :: caption.toList

/-! ## In front of the carets -/

theorem expandedWidth_indent (tabWidth : Nat) (characters : List Char) :
    expandedWidth tabWidth (indent characters) = expandedWidth tabWidth characters := by
  have htab (c : Char) : (if c == '\t' then '\t' else ' ') = '\t' ↔ c = '\t' := by
    by_cases hc : c = '\t' <;> simp [hc]
  simp only [expandedWidth, indent, List.foldl_map, htab]

theorem notMem_indent {c : Char} (htab : c ≠ '\t') (hblank : c ≠ ' ') : c ∉ indent characters := by
  intro hc
  obtain ⟨d, -, hd⟩ := List.mem_map.1 hc
  split at hd
  case isTrue => exact htab hd.symm
  case isFalse => exact hblank hd.symm

theorem length_indent (characters : List Char) : (indent characters).length = characters.length :=
  List.length_map ..

theorem getElem?_indent (hcolumn : column < characters.length) :
    (indent characters)[column]? =
      some (if characters[column]? = some '\t' then '\t' else ' ') := by
  simp [indent, List.getElem?_eq_getElem hcolumn]

theorem margin_consumed (text : List Char) (position : Nat) :
    margin ++ consumed text position = (margin ++ text).take (margin.length + position) := by
  have hposition : ¬(position : Int) < 0 := by omega
  rw [List.take_length_add_append, consumed, if_neg hposition, Int.toNat_natCast]

theorem length_margin_consumed (hposition : position ≤ text.length) :
    (margin ++ consumed text position).length = margin.length + position := by
  rw [margin_consumed, List.length_take, List.length_append]
  omega

/-! ## The lower line -/

/-- The lower line as it is put together. -/
def lowerLine (text shown : List Char) (position : Nat) (caption : String) : List Char :=
  indent (margin ++ consumed text position) ++
    (List.replicate (caretCount shown position) '^' ++ ' ' :: caption.toList)

theorem toList_stoppingPoint (source : String) (position : Nat) (caption : String) :
    (stoppingPoint source (some (position : Int)) caption).toList =
      margin ++ stripEnd source.toList ++
        '\n' :: lowerLine source.toList (stripEnd source.toList) position caption := by
  simp [stoppingPoint, lowerLine]

theorem caretEnd_eq (shown : List Char) (position : Nat) :
    caretEnd shown position = margin.length + position + caretCount shown position := by
  rw [caretEnd, caretCount]
  split <;> omega

theorem exists_caretCount_eq_succ (shown : List Char) (position : Nat) :
    ∃ count, caretCount shown position = count + 1 :=
  ⟨caretCount shown position - 1, (Nat.sub_add_cancel (Nat.le_max_left 1 _)).symm⟩

theorem pointsAt_lowerLine (shown : List Char) (caption : String)
    (hposition : position ≤ text.length) :
    PointsAt text shown position caption (lowerLine text shown position caption) := by
  have hmargin := length_margin_consumed hposition
  have hindent : (indent (margin ++ consumed text position)).length = margin.length + position := by
    rw [length_indent, hmargin]
  constructor
  case firstCaret =>
    have hnone : '^' ∉ indent (margin ++ consumed text position) :=
      notMem_indent (by decide) (by decide)
    obtain ⟨count, hcount⟩ := exists_caretCount_eq_succ shown position
    rw [lowerLine, hcount, List.replicate_succ, List.cons_append,
      List.idxOf_append_of_notMem hnone, List.idxOf_cons_self, Nat.add_zero, hindent]
  case before =>
    intro column hcolumn
    rw [lowerLine, List.getElem?_append_left (by omega), getElem?_indent (by omega),
      margin_consumed, List.getElem?_take_of_lt hcolumn]
  case carets =>
    intro column hstart hend
    rw [caretEnd_eq] at hend
    have hcaret : column - (margin.length + position) < caretCount shown position := by omega
    rw [lowerLine, List.getElem?_append_right (by omega), hindent,
      List.getElem?_append_left (by rwa [List.length_replicate]), List.getElem?_replicate,
      if_pos hcaret]
  case behind =>
    rw [lowerLine, ← List.append_assoc]
    apply List.drop_left'
    rw [List.length_append, List.length_replicate, hindent, caretEnd_eq]

theorem take_lowerLine (shown : List Char) (caption : String) (hposition : position ≤ text.length) :
    (lowerLine text shown position caption).take (margin.length + position) =
      indent ((margin ++ text).take (margin.length + position)) := by
  rw [lowerLine, ← margin_consumed]
  apply List.take_left'
  rw [length_indent, length_margin_consumed hposition]

theorem lineFeed_notMem_lowerLine (text shown : List Char) (position : Nat)
    (hcaption : '\n' ∉ caption.toList) : '\n' ∉ lowerLine text shown position caption := by
  intro hmem
  obtain hindent | hcarets | hblank | hcaption' : '\n' ∈ indent (margin ++ consumed text position) ∨
      '\n' ∈ List.replicate (caretCount shown position) '^' ∨ '\n' = ' ' ∨
        '\n' ∈ caption.toList := by
    simpa [lowerLine] using hmem
  · exact notMem_indent (by decide) (by decide) hindent
  · exact absurd (List.eq_of_mem_replicate hcarets) (by decide)
  · exact absurd hblank (by decide)
  · exact hcaption hcaption'

/-- The picture shows the text behind the margin, without the blanks at its end, and below it a line
whose carets stand under what is left of it behind the position. In front of the carets the two
lines are equally wide. -/
theorem stoppingPoint_pointsAt (source caption : String)
    (hsource : source.toList = shown ++ trailing) (htrailing : ∀ c ∈ trailing, isBlank c = true)
    (hshown : ∀ c ∈ shown.getLast?, isBlank c = false) (hline : '\n' ∉ source.toList)
    (hposition : position ≤ source.toList.length) :
    ∃ line, (stoppingPoint source (some (position : Int)) caption).toList =
        margin ++ shown ++ '\n' :: line ∧
      '\n' ∉ margin ++ shown ∧ ('\n' ∉ caption.toList → '\n' ∉ line) ∧
      PointsAt source.toList shown position caption line ∧
      ∀ tabWidth, position ≤ shown.length →
        expandedWidth tabWidth ((margin ++ shown).take (line.idxOf '^')) =
          expandedWidth tabWidth (line.take (line.idxOf '^')) := by
  have hstrip : stripEnd source.toList = shown := hsource ▸ stripEnd_append htrailing hshown
  have hpoints := pointsAt_lowerLine shown caption hposition
  refine ⟨lowerLine source.toList shown position caption, ?_, ?_,
    lineFeed_notMem_lowerLine _ _ _, hpoints, fun tabWidth hinside ↦ ?_⟩
  · rw [toList_stoppingPoint, hstrip]
  · rw [hsource, List.mem_append, not_or] at hline
    rw [List.mem_append, not_or]
    exact ⟨by decide, hline.1⟩
  · have hsame : (margin ++ source.toList).take (margin.length + position) =
        (margin ++ shown).take (margin.length + position) := by
      rw [List.take_length_add_append, List.take_length_add_append, hsource,
        List.take_append_of_le_length hinside]
    rw [hpoints.firstCaret, take_lowerLine shown caption hposition, expandedWidth_indent, hsame]

/-- A tab comes before the carets, and a blank at the end gets none. -/
theorem stoppingPoint_pointsAt_tab :
    "1\t+x ".toList = "1\t+x".toList ++ [' '] ∧ (∀ c ∈ [' '], isBlank c = true) ∧
    (∀ c ∈ "1\t+x".toList.getLast?, isBlank c = false) ∧ '\n' ∉ "1\t+x ".toList ∧
    2 ≤ "1\t+x ".toList.length ∧
    ∃ line, (stoppingPoint "1\t+x " (some (2 : Nat)) "here").toList =
        margin ++ "1\t+x".toList ++ '\n' :: line ∧
      PointsAt "1\t+x ".toList "1\t+x".toList 2 "here" line ∧
      expandedWidth 8 ((margin ++ "1\t+x".toList).take (line.idxOf '^')) =
        expandedWidth 8 (line.take (line.idxOf '^')) := by
  have hsource : "1\t+x ".toList = "1\t+x".toList ++ [' '] := rfl
  have htrailing : ∀ c ∈ [' '], isBlank c = true := List.forall_mem_singleton.2 (by decide)
  have hshown : ∀ c ∈ "1\t+x".toList.getLast?, isBlank c = false := by
    intro c hc
    obtain rfl : 'x' = c := Option.some.inj hc
    decide
  have hposition : 2 ≤ "1\t+x ".toList.length := by decide
  obtain ⟨line, hlines, -, -, hpoints, hwidth⟩ :=
    stoppingPoint_pointsAt "1\t+x " "here" hsource htrailing hshown (by decide) hposition
  exact ⟨hsource, htrailing, hshown, by decide, hposition, line, hlines, hpoints,
    hwidth 8 (by decide)⟩

end ParserCombinators.CommandLine
