import Mathlib.Data.List.Chain
import Mathlib.Data.List.TakeWhile
import ParserCombinators.Character.Blank
import ParserCombinators.Character.Digit
import ParserCombinators.Character.Letter

/-!
# Digits, letters and blanks are apart

No character is in two of the three classes. Each class is given by an ordered list of ranges of
code points, and two lists of ranges that do not overlap cover no common code point.
-/

namespace ParserCombinators

theorem forall_mem_head?_cons {holds : Char → Prop} {c : Char} (hc : holds c) (rest : List Char) :
    ∀ d ∈ (c :: rest).head?, holds d := by
  intro d hd
  obtain rfl : c = d := Option.some.inj hd
  exact hc

/-- A non-empty run of characters of one class. -/
structure IsRun (accepts : Char → Bool) (slice : List Char) : Prop where
  nonempty : slice ≠ []
  accepted : ∀ c ∈ slice, accepts c = true

theorem IsRun.head_accepted {accepts : Char → Bool} {slice rest : List Char}
    (hslice : IsRun accepts slice) : ∀ c ∈ (slice ++ rest).head?, accepts c = true := by
  obtain ⟨hnonempty, haccepted⟩ := hslice
  obtain ⟨d, slice, rfl⟩ := List.exists_cons_of_ne_nil hnonempty
  exact forall_mem_head?_cons (haccepted d List.mem_cons_self) (slice ++ rest)

theorem isRun_singleton {accepts : Char → Bool} {c : Char} (hc : accepts c = true) :
    IsRun accepts [c] where
  nonempty := List.cons_ne_nil c []
  accepted := List.forall_mem_singleton.2 hc

theorem IsRun.append_singleton {accepts : Char → Bool} {slice : List Char} {c : Char}
    (hslice : IsRun accepts slice) (hc : accepts c = true) : IsRun accepts (slice ++ [c]) where
  nonempty := by simp
  accepted := List.forall_mem_append.2 ⟨hslice.accepted, by simpa using hc⟩

namespace Character

/-- The ranges stand in the order of their first code points. -/
def Ranges.IsOrdered (ranges : Ranges) : Prop := (ranges.map Prod.fst).IsChain (· ≤ ·)

instance (ranges : Ranges) : Decidable ranges.IsOrdered :=
  inferInstanceAs (Decidable ((ranges.map Prod.fst).IsChain (· ≤ ·)))

theorem Ranges.isOrdered_iff {ranges : Ranges} :
    ranges.IsOrdered ↔ ranges.Pairwise fun range other ↦ range.1 ≤ other.1 := by
  rw [IsOrdered, List.isChain_iff_pairwise, List.pairwise_map]

/-- No range of the one ordered list overlaps a range of the other. The ranges of `right` that end
before a range of `left` are not compared with the later ranges of `left`. -/
def Ranges.areApart : Ranges → Ranges → Bool
  | [], _ => true
  | range :: rest, right =>
    let above := right.dropWhile fun other ↦ other.2.blt range.1
    (above.head?.all fun other ↦ range.2.blt other.1) && areApart rest above

theorem Ranges.apart_of_mem {left right : Ranges} {range other : Nat × Nat}
    (hleft : left.IsOrdered) (hright : right.IsOrdered) (hapart : left.areApart right = true)
    (hrange : range ∈ left) (hother : other ∈ right) :
    range.2 < other.1 ∨ other.2 < range.1 := by
  rw [isOrdered_iff] at hleft hright
  induction left generalizing right with
  | nil => simp at hrange
  | cons first rest ih =>
    rw [List.pairwise_cons] at hleft
    rw [areApart, Bool.and_eq_true] at hapart
    obtain ⟨hhead, hrest⟩ := hapart
    have habove := hright.sublist (List.dropWhile_sublist fun other ↦ other.2.blt first.1)
    rw [← List.takeWhile_append_dropWhile (p := fun other ↦ other.2.blt first.1) (l := right),
      List.mem_append] at hother
    obtain hbelow | hother := hother
    · have hfirst : first.1 ≤ range.1 := by
        obtain rfl | hrange := List.mem_cons.1 hrange
        · exact Nat.le_refl _
        · exact hleft.1 range hrange
      have hlast : other.2 < first.1 := by simpa using List.mem_takeWhile_imp hbelow
      exact .inr (Nat.lt_of_lt_of_le hlast hfirst)
    obtain rfl | hrange := List.mem_cons.1 hrange
    · obtain ⟨next, later, hsplit⟩ := List.exists_cons_of_ne_nil (List.ne_nil_of_mem hother)
      rw [hsplit, List.pairwise_cons] at habove
      rw [hsplit] at hhead hother
      have hnext : range.2 < next.1 := by simpa using hhead
      obtain rfl | hother := List.mem_cons.1 hother
      · exact .inl hnext
      · exact .inl (Nat.lt_of_lt_of_le hnext (habove.1 other hother))
    · exact ih hleft.2 habove hrest hrange hother

theorem Ranges.exists_of_covers {ranges : Ranges} {code : Nat} (hcovers : ranges.covers code) :
    ∃ range ∈ ranges, range.1 ≤ code ∧ code ≤ range.2 := by
  induction ranges with
  | nil => simp [covers] at hcovers
  | cons range rest ih =>
    obtain ⟨first, last⟩ := range
    simp only [covers, Bool.and_eq_true, Bool.or_eq_true, decide_eq_true_eq] at hcovers
    obtain ⟨hfirst, hlast | hrest⟩ := hcovers
    · exact ⟨(first, last), List.mem_cons_self, hfirst, hlast⟩
    · obtain ⟨range, hmem, hrange⟩ := ih hrest
      exact ⟨range, List.mem_cons_of_mem _ hmem, hrange⟩

theorem Ranges.areApart_eq_false {left right : Ranges} {code : Nat} (hordered : left.IsOrdered)
    (hordered' : right.IsOrdered) (hleft : ∃ range ∈ left, range.1 ≤ code ∧ code ≤ range.2)
    (hright : ∃ range ∈ right, range.1 ≤ code ∧ code ≤ range.2) :
    left.areApart right = false := by
  obtain ⟨range, hmem, hrange⟩ := hleft
  obtain ⟨other, hmem', hother⟩ := hright
  apply Bool.eq_false_iff.2
  intro hapart
  have := apart_of_mem hordered hordered' hapart hmem hmem'
  omega

def digitRanges : Ranges := scriptZeros.map fun start ↦ (start, start + 9)

theorem exists_of_isDigit {c : Char} (hc : isDigit c) :
    ∃ range ∈ digitRanges, range.1 ≤ c.toNat ∧ c.toNat ≤ range.2 := by
  rw [isDigit, digitValue?, Option.isSome_map] at hc
  obtain ⟨start, hstart⟩ := Option.isSome_iff_exists.1 hc
  have hrange := List.find?_some hstart
  simp only [Bool.and_eq_true, decide_eq_true_eq] at hrange
  exact ⟨(start, start + 9), List.mem_map.2 ⟨start, List.mem_of_find?_eq_some hstart, rfl⟩, hrange⟩

theorem digitRanges_isOrdered : digitRanges.IsOrdered := by decide +kernel

theorem letterRanges_isOrdered : letterRanges.IsOrdered := by decide +kernel

theorem blankRanges_isOrdered : blankRanges.IsOrdered := by decide

theorem isBlank_eq_false_of_isDigit {c : Char} (hc : isDigit c) : isBlank c = false := by
  apply Bool.eq_false_iff.2
  intro hblank
  have := Ranges.areApart_eq_false digitRanges_isOrdered blankRanges_isOrdered
    (exists_of_isDigit hc) (Ranges.exists_of_covers hblank)
  exact absurd this (by decide)

theorem isBlank_eq_false_of_isLetter {c : Char} (hc : isLetter c) : isBlank c = false := by
  apply Bool.eq_false_iff.2
  intro hblank
  have := Ranges.areApart_eq_false letterRanges_isOrdered blankRanges_isOrdered
    (Ranges.exists_of_covers hc) (Ranges.exists_of_covers hblank)
  exact absurd this (by decide +kernel)

theorem isLetter_eq_false_of_isDigit {c : Char} (hc : isDigit c) : isLetter c = false := by
  apply Bool.eq_false_iff.2
  intro hletter
  have := Ranges.areApart_eq_false digitRanges_isOrdered letterRanges_isOrdered
    (exists_of_isDigit hc) (Ranges.exists_of_covers hletter)
  exact absurd this (by decide +kernel)

theorem isDigit_eq_false_of_isLetter {c : Char} (hc : isLetter c) : isDigit c = false := by
  apply Bool.eq_false_iff.2
  intro hdigit
  rw [isLetter_eq_false_of_isDigit hdigit] at hc
  cases hc

theorem isDigit_eq_false_of_isBlank {c : Char} (hc : isBlank c) : isDigit c = false := by
  apply Bool.eq_false_iff.2
  intro hdigit
  rw [isBlank_eq_false_of_isDigit hdigit] at hc
  cases hc

end Character

end ParserCombinators
