import ParserCombinators.Expression.Grammar
import ParserCombinators.Proofs.Parser.Tokens

/-!
# The grammar of expressions as a set of rules

`Derives` are the rules of the plain grammar. `Spells` are the rules with a gap after every token,
where a gap is empty in the plain grammar and any run of blanks in the spaced one. Both say which
slices stand for which trees without saying how a slice is found. The two levels of chains have the
same rules, so that `Spells` has them once.
-/

namespace ParserCombinators

/-- Expressions are chains of terms, and terms are chains of factors. -/
inductive Expression.Level
  | expression
  | term
  | factor
  deriving DecidableEq

/-- What the operands in a chain of the level are. -/
def Expression.Level.operand : Level → Level
  | expression => term
  | term => factor
  | factor => factor

/-- The level of the chains that an operator joins. -/
def Operator.level : Operator → Expression.Level
  | add => .expression
  | subtract => .expression
  | multiply => .term
  | divide => .term

namespace Expression

open Character

inductive Derives : Level → Language Expression
  | constant {digits : List Char} :
      IsRun isDigit digits → Derives .factor digits (.constant (decimalValue digits))
  | identifier {letters : List Char} :
      IsRun isLetter letters → Derives .factor letters (.identifier (String.ofList letters))
  | parentheses {slice : List Char} {tree : Expression} :
      Derives .expression slice tree → Derives .factor ('(' :: (slice ++ [')'])) tree
  | factor {slice : List Char} {tree : Expression} :
      Derives .factor slice tree → Derives .term slice tree
  | product {slice slice' : List Char} {left right : Expression} {operator : Operator} :
      operator = .multiply ∨ operator = .divide → Derives .term slice left →
      Derives .factor slice' right →
      Derives .term (slice ++ operator.symbol :: slice') (.operation left operator right)
  | term {slice : List Char} {tree : Expression} :
      Derives .term slice tree → Derives .expression slice tree
  | sum {slice slice' : List Char} {left right : Expression} {operator : Operator} :
      operator = .add ∨ operator = .subtract → Derives .expression slice left →
      Derives .term slice' right →
      Derives .expression (slice ++ operator.symbol :: slice') (.operation left operator right)

def IsGap (spaced : Bool) (gap : List Char) : Prop :=
  ∀ c ∈ gap, spaced = true ∧ isBlank c = true

inductive Spells (spaced : Bool) : Level → Language Expression
  | constant {digits gap : List Char} :
      IsRun isDigit digits → IsGap spaced gap →
      Spells spaced .factor (digits ++ gap) (.constant (decimalValue digits))
  | identifier {letters gap : List Char} :
      IsRun isLetter letters → IsGap spaced gap →
      Spells spaced .factor (letters ++ gap) (.identifier (String.ofList letters))
  | parentheses {gap slice gap' : List Char} {tree : Expression} :
      IsGap spaced gap → Spells spaced .expression slice tree → IsGap spaced gap' →
      Spells spaced .factor ('(' :: (gap ++ (slice ++ ')' :: gap'))) tree
  | operand {level : Level} {slice : List Char} {tree : Expression} :
      level ≠ .factor → Spells spaced level.operand slice tree → Spells spaced level slice tree
  | operation (operator : Operator) {slice gap slice' : List Char} {left right : Expression} :
      Spells spaced operator.level slice left → IsGap spaced gap →
      Spells spaced operator.level.operand slice' right →
      Spells spaced operator.level (slice ++ operator.symbol :: (gap ++ slice'))
        (.operation left operator right)

/-- What a whole text spells; here a gap may stand in front, too. -/
def Document (spaced : Bool) : Language Expression := fun slice tree ↦
  ∃ gap body, slice = gap ++ body ∧ IsGap spaced gap ∧ Spells spaced .expression body tree

/-! ## Gaps -/

theorem isGap_nil (spaced : Bool) : IsGap spaced [] := by simp [IsGap]

theorem isGap_false {gap : List Char} : IsGap false gap ↔ gap = [] := by
  simp [IsGap, List.eq_nil_iff_forall_not_mem]

theorem isGap_append {spaced : Bool} {gap gap' : List Char} :
    IsGap spaced (gap ++ gap') ↔ IsGap spaced gap ∧ IsGap spaced gap' :=
  List.forall_mem_append

/-! ## Symbols -/

@[simp]
theorem isDigit_symbol (operator : Operator) : isDigit operator.symbol = false := by
  cases operator <;> decide

@[simp]
theorem isLetter_symbol (operator : Operator) : isLetter operator.symbol = false := by
  cases operator <;> decide

@[simp]
theorem isBlank_symbol (operator : Operator) : isBlank operator.symbol = false := by
  cases operator <;> decide

theorem symbol_injective {first second : Operator} (h : first.symbol = second.symbol) :
    first = second := by
  revert h
  cases first <;> cases second <;> decide

theorem level_ne_factor (operator : Operator) : operator.level ≠ .factor := by
  cases operator <;> decide

theorem level_ne_operand (operator : Operator) : operator.level ≠ operator.level.operand := by
  cases operator <;> decide

/-! ## Leaving gaps out -/

theorem Derives.operand {level : Level} {slice : List Char} {tree : Expression}
    (hlevel : level ≠ .factor) (hderives : Derives level.operand slice tree) :
    Derives level slice tree := by
  cases level with
  | expression => exact .term hderives
  | term => exact .factor hderives
  | factor => exact absurd rfl hlevel

theorem Derives.operation {operator : Operator} {slice slice' : List Char}
    {left right : Expression} (hleft : Derives operator.level slice left)
    (hright : Derives operator.level.operand slice' right) :
    Derives operator.level (slice ++ operator.symbol :: slice')
      (.operation left operator right) := by
  cases operator with
  | add => exact .sum (.inl rfl) hleft hright
  | subtract => exact .sum (.inr rfl) hleft hright
  | multiply => exact .product (.inl rfl) hleft hright
  | divide => exact .product (.inr rfl) hleft hright

theorem Derives.spells (spaced : Bool) {level : Level} {slice : List Char} {tree : Expression}
    (hderives : Derives level slice tree) : Spells spaced level slice tree := by
  have hempty := isGap_nil spaced
  induction hderives with
  | constant hdigits => simpa using Spells.constant hdigits hempty
  | identifier hletters => simpa using Spells.identifier hletters hempty
  | parentheses _ ih => simpa using Spells.parentheses hempty ih hempty
  | factor _ ih => exact .operand (by decide) ih
  | term _ ih => exact .operand (by decide) ih
  | product hoperator _ _ ihLeft ihRight =>
    obtain rfl | rfl := hoperator
    · exact .operation .multiply ihLeft hempty ihRight
    · exact .operation .divide ihLeft hempty ihRight
  | sum hoperator _ _ ihLeft ihRight =>
    obtain rfl | rfl := hoperator
    · exact .operation .add ihLeft hempty ihRight
    · exact .operation .subtract ihLeft hempty ihRight

/-- The slice without the blanks that the grammar allows. -/
def withoutGaps (spaced : Bool) (slice : List Char) : List Char :=
  slice.filter fun c ↦ !(spaced && isBlank c)

theorem withoutGaps_false (slice : List Char) : withoutGaps false slice = slice := by
  simp [withoutGaps]

theorem withoutGaps_append (spaced : Bool) (slice slice' : List Char) :
    withoutGaps spaced (slice ++ slice') = withoutGaps spaced slice ++ withoutGaps spaced slice' :=
  List.filter_append ..

theorem withoutGaps_of_isGap {spaced : Bool} {gap : List Char} (hgap : IsGap spaced gap) :
    withoutGaps spaced gap = [] := by
  apply List.filter_eq_nil_iff.2
  intro c hc
  simp [hgap c hc]

theorem withoutGaps_of_not_blank {spaced : Bool} {slice : List Char}
    (hslice : ∀ c ∈ slice, isBlank c = false) : withoutGaps spaced slice = slice := by
  apply List.filter_eq_self.2
  intro c hc
  simp [hslice c hc]

theorem withoutGaps_cons {spaced : Bool} {c : Char} (hc : isBlank c = false) (slice : List Char) :
    withoutGaps spaced (c :: slice) = c :: withoutGaps spaced slice := by
  simp [withoutGaps, hc]

/-- No two tokens grow together when the gap between them is left out, since in every rule a symbol
stands between two operands. -/
theorem Spells.derives {spaced : Bool} {level : Level} {slice : List Char} {tree : Expression}
    (hspells : Spells spaced level slice tree) : Derives level (withoutGaps spaced slice) tree := by
  induction hspells with
  | constant hdigits hgap =>
    have hkept : ∀ c ∈ _, isBlank c = false :=
      fun c hc ↦ isBlank_eq_false_of_isDigit (hdigits.accepted c hc)
    rw [withoutGaps_append, withoutGaps_of_isGap hgap, withoutGaps_of_not_blank hkept,
      List.append_nil]
    exact .constant hdigits
  | identifier hletters hgap =>
    have hkept : ∀ c ∈ _, isBlank c = false :=
      fun c hc ↦ isBlank_eq_false_of_isLetter (hletters.accepted c hc)
    rw [withoutGaps_append, withoutGaps_of_isGap hgap, withoutGaps_of_not_blank hkept,
      List.append_nil]
    exact .identifier hletters
  | parentheses hgap _ hgap' ih =>
    rw [withoutGaps_cons (by decide), withoutGaps_append, withoutGaps_append,
      withoutGaps_cons (by decide), withoutGaps_of_isGap hgap, withoutGaps_of_isGap hgap']
    exact .parentheses ih
  | operand hlevel _ ih => exact ih.operand hlevel
  | operation operator _ hgap _ ihLeft ihRight =>
    rw [withoutGaps_append, withoutGaps_cons (isBlank_symbol operator), withoutGaps_append,
      withoutGaps_of_isGap hgap]
    exact ihLeft.operation ihRight

theorem spells_false_iff {level : Level} {slice : List Char} {tree : Expression} :
    Spells false level slice tree ↔ Derives level slice tree :=
  ⟨fun hspells ↦ withoutGaps_false slice ▸ hspells.derives, fun hderives ↦ hderives.spells false⟩

theorem document_false_iff {slice : List Char} {tree : Expression} :
    Document false slice tree ↔ Derives .expression slice tree := by
  constructor
  · rintro ⟨gap, body, rfl, hgap, hbody⟩
    rw [isGap_false.1 hgap]
    exact spells_false_iff.1 hbody
  · exact fun hderives ↦ ⟨[], slice, rfl, isGap_nil false, hderives.spells false⟩

end Expression

end ParserCombinators
