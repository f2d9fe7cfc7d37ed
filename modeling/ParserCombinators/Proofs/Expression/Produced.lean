import ParserCombinators.Proofs.Expression.RoundTrip
import ParserCombinators.Proofs.Expression.Spacing

/-!
# The trees that parsing produces

Parsing produces exactly the trees whose constants have no sign and whose names are made of letters.
No limit on digits is involved: a tree that is too long to be rendered still has a text that both
grammars read as a whole.
-/

namespace ParserCombinators.Expression

open Character

variable {tree : Expression}

/-- What the grammar has tokens for. -/
def IsWellFormed : Expression → Prop
  | constant value => 0 ≤ value
  | identifier name => IsRun isLetter name.toList
  | operation left _ right => left.IsWellFormed ∧ right.IsWellFormed
  | foreign _ => False

theorem IsWellFormed.isRun_of_mem_names (htree : tree.IsWellFormed) :
    ∀ name ∈ tree.names, IsRun isLetter name.toList := by
  induction tree with
  | constant value => exact List.forall_mem_nil _
  | identifier name => exact List.forall_mem_singleton.2 htree
  | operation left operator right ihLeft ihRight =>
    exact List.forall_mem_append.2 ⟨ihLeft htree.1, ihRight htree.2⟩
  | foreign text => cases htree

/-- Every leaf of a tree comes from one token, and operations only put trees together. -/
theorem Derives.isWellFormed {level : Level} {slice : List Char}
    (hderives : Derives level slice tree) : tree.IsWellFormed := by
  induction hderives with
  | constant => exact Int.natCast_nonneg _
  | identifier hletters =>
    rw [IsWellFormed, String.toList_ofList]
    exact hletters
  | parentheses _ ih => exact ih
  | factor _ ih => exact ih
  | term _ ih => exact ih
  | product _ _ _ ihLeft ihRight => exact ⟨ihLeft, ihRight⟩
  | sum _ _ _ ihLeft ihRight => exact ⟨ihLeft, ihRight⟩

theorem isWellFormed_of_parse {spaced : Bool} {text : Text} {position : Int}
    (hparse : (parse spaced text).outcome = .success tree position) : tree.IsWellFormed :=
  (parse_eq_success_iff.1 hparse).derives.derives.isWellFormed

/-- With parentheses around every operation, an operation is a factor like the leaves. -/
theorem IsWellFormed.exists_derives (htree : tree.IsWellFormed) :
    ∃ slice, Derives .factor slice tree := by
  induction tree with
  | constant value =>
    obtain ⟨n, rfl⟩ := Int.eq_ofNat_of_zero_le htree
    have hconstant := Derives.constant (isRun_toDigits n)
    rw [decimalValue_toDigits] at hconstant
    exact ⟨_, hconstant⟩
  | identifier name =>
    have hidentifier := Derives.identifier htree
    rw [String.ofList_toList] at hidentifier
    exact ⟨_, hidentifier⟩
  | operation left operator right ihLeft ihRight =>
    obtain ⟨leftSlice, hleft⟩ := ihLeft htree.1
    obtain ⟨rightSlice, hright⟩ := ihRight htree.2
    have hoperation : Derives operator.level (leftSlice ++ operator.symbol :: rightSlice)
        (operation left operator right) := hleft.of_factor.operation hright.of_factor
    exact ⟨_, .parentheses hoperation.expression_of_operation⟩
  | foreign text => cases htree

theorem Derives.parse_eq {slice : List Char} (hderives : Derives .expression slice tree)
    (spaced : Bool) :
    (parse spaced slice.toArray).outcome = .success tree slice.length :=
  parse_whole.2 ⟨[], slice, rfl, isGap_nil spaced, hderives.spells spaced⟩

/-- The text has no blanks in it, so one text does for both grammars. -/
theorem IsWellFormed.exists_text (htree : tree.IsWellFormed) :
    ∃ text : Text, ∀ spaced, (parse spaced text).outcome = .success tree text.size := by
  obtain ⟨slice, hslice⟩ := htree.exists_derives
  exact ⟨slice.toArray, hslice.of_factor.parse_eq⟩

theorem produced_iff_isWellFormed (tree : Expression) :
    (∀ spaced text position,
      (parse spaced text).outcome = .success tree position → tree.IsWellFormed) ∧
    (tree.IsWellFormed →
      ∃ text : Text, ∀ spaced, (parse spaced text).outcome = .success tree text.size) :=
  ⟨fun _ _ _ hparse ↦ isWellFormed_of_parse hparse, fun htree ↦ htree.exists_text⟩

/-- A constant that is too long to be written out has a text, as has every tree that was read. -/
theorem produced_long_constant :
    (operation (identifier "x") .subtract (identifier "y")).IsWellFormed ∧
    (constant (tenTo 4300)).render = .error .integerTooLong ∧
    ∃ text : Text, ∀ spaced,
      (parse spaced text).outcome = .success (constant (tenTo 4300)) text.size := by
  refine ⟨?_, ?_, ?_⟩
  · exact (produced_iff_isWellFormed _).1 true #['x', ' ', '-', 'y', ')'] 4 (by decide +kernel)
  · rw [render, integerText, Int.natAbs_natCast]
    exact if_neg (Nat.lt_irrefl _)
  · exact (produced_iff_isWellFormed _).2 (Int.natCast_nonneg _)

end ParserCombinators.Expression
