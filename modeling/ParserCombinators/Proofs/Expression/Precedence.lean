import ParserCombinators.Proofs.Expression.Produced

/-!
# Parentheses where they are needed

A product binds tighter than a sum, and operators of one level group to the left. So parentheses are
needed around a sum in a product, and around the right operand of an operator of the same level.
With these and no others a text stands for its tree, it still does with further parentheses around
any part of it, and no text for the tree has fewer of them.
-/

namespace ParserCombinators.Expression

open Character

variable {tree left right : Expression} {operator : Operator} {slice : List Char}

/-! ## Texts with few parentheses -/

/-- A sum or a difference. -/
def isSum : Expression → Bool
  | operation _ .add _ => true
  | operation _ .subtract _ => true
  | _ => false

def isOperation : Expression → Bool
  | operation .. => true
  | _ => false

/-- Whether a left operand has to be put in parentheses. -/
def bracketsLeft (operator : Operator) (left : Expression) : Bool :=
  match operator with
  | .add | .subtract => false
  | .multiply | .divide => left.isSum

/-- Whether a right operand has to be put in parentheses. -/
def bracketsRight (operator : Operator) (right : Expression) : Bool :=
  match operator with
  | .add | .subtract => right.isSum
  | .multiply | .divide => right.isOperation

def bracketed (needed : Bool) (slice : List Char) : List Char :=
  if needed then '(' :: (slice ++ [')']) else slice

/-- The tree as a text with parentheses only where they are needed. -/
def compact : Expression → List Char
  | constant value => Nat.toDigits 10 value.toNat
  | identifier name => name.toList
  | operation left operator right =>
    bracketed (bracketsLeft operator left) left.compact ++
      operator.symbol :: bracketed (bracketsRight operator right) right.compact
  | foreign text => text.toList

/-- A text of the tree with parentheses where they are needed, and any number of further pairs
around any part of it. The flag says whether there is a pair around all of it. -/
inductive Writes : Bool → Language Expression
  | constant {value : Int} :
      Writes false (Nat.toDigits 10 value.toNat) (constant value)
  | identifier {name : String} : Writes false name.toList (identifier name)
  | operation (operator : Operator) {leftEnclosed rightEnclosed : Bool}
      {slice slice' : List Char} {left right : Expression} :
      Writes leftEnclosed slice left → (bracketsLeft operator left = true → leftEnclosed = true) →
      Writes rightEnclosed slice' right →
      (bracketsRight operator right = true → rightEnclosed = true) →
      Writes false (slice ++ operator.symbol :: slice') (operation left operator right)
  | parentheses {enclosed : Bool} {slice : List Char} {tree : Expression} :
      Writes enclosed slice tree → Writes true ('(' :: (slice ++ [')'])) tree

theorem Writes.bracketed {needed : Bool} (hwrites : Writes false slice tree) :
    Writes needed (bracketed needed slice) tree := by
  cases needed with
  | true => exact .parentheses hwrites
  | false => exact hwrites

theorem IsWellFormed.writes_compact (htree : tree.IsWellFormed) :
    Writes false tree.compact tree := by
  induction tree with
  | constant value => exact .constant
  | identifier name => exact .identifier
  | operation left operator right ihLeft ihRight =>
    exact .operation operator (ihLeft htree.1).bracketed id (ihRight htree.2).bracketed id
  | foreign text => cases htree

/-! ## The levels of the grammar -/

/-- Whether a tree has to be put in parentheses to be a slice of the level. -/
def bracketsAt : Level → Expression → Bool
  | .expression, _ => false
  | .term, tree => tree.isSum
  | .factor, tree => tree.isOperation

theorem bracketsLeft_eq (operator : Operator) (left : Expression) :
    bracketsLeft operator left = bracketsAt operator.level left := by
  cases operator <;> rfl

theorem bracketsRight_eq (operator : Operator) (right : Expression) :
    bracketsRight operator right = bracketsAt operator.level.operand right := by
  cases operator <;> rfl

/-- An operation needs no parentheses at the level of its operator and at looser ones. -/
theorem Derives.of_operation {level : Level}
    (hderives : Derives operator.level slice (.operation left operator right))
    (hlevel : bracketsAt level (.operation left operator right) = false) :
    Derives level slice (.operation left operator right) := by
  cases level with
  | expression => exact hderives.expression_of_operation
  | term =>
    cases operator with
    | multiply | divide => exact hderives
    | add | subtract => cases hlevel
  | factor => cases hlevel

theorem Writes.derives {enclosed : Bool} {level : Level} (hwrites : Writes enclosed slice tree)
    (htree : tree.IsWellFormed) (hlevel : bracketsAt level tree = true → enclosed = true) :
    Derives level slice tree := by
  -- The level is that of the place where the tree stands, which is another one for each operand.
  induction hwrites generalizing level with
  | constant =>
    obtain ⟨n, rfl⟩ := Int.eq_ofNat_of_zero_le htree
    have hconstant := Derives.constant (isRun_toDigits n)
    rw [decimalValue_toDigits] at hconstant
    exact hconstant.of_factor
  | identifier =>
    have hidentifier := Derives.identifier htree
    rw [String.ofList_toList] at hidentifier
    exact hidentifier.of_factor
  | operation operator _ hleft _ hright ihLeft ihRight =>
    rw [bracketsLeft_eq] at hleft
    rw [bracketsRight_eq] at hright
    have hoperation := (ihLeft htree.1 hleft).operation (ihRight htree.2 hright)
    exact hoperation.of_operation (Bool.eq_false_iff.2 fun hneeded ↦ nomatch hlevel hneeded)
  | parentheses _ ih => exact (Derives.parentheses (ih htree nofun)).of_factor

/-! ## The fewest parentheses -/

theorem count_bracketed (needed : Bool) (slice : List Char) :
    (bracketed needed slice).count '(' = slice.count '(' + needed.toNat := by
  cases needed <;> simp [bracketed]

theorem count_compact_operation :
    (operation left operator right).compact.count '(' =
      left.compact.count '(' + (bracketsAt operator.level left).toNat +
        (right.compact.count '(' + (bracketsAt operator.level.operand right).toNat) := by
  have hsymbol : operator.symbol ≠ '(' := by cases operator <;> decide
  rw [compact, List.count_append, List.count_cons_of_ne hsymbol, count_bracketed, count_bracketed,
    bracketsLeft_eq, bracketsRight_eq]

theorem count_toDigits (n : Nat) : (Nat.toDigits 10 n).count '(' = 0 := by
  refine List.count_eq_zero.2 fun hmem ↦ ?_
  exact absurd ((isRun_toDigits n).accepted '(' hmem) (by decide)

theorem bracketsAt_operation (operator : Operator) (left right : Expression) :
    bracketsAt operator.level (operation left operator right) = false := by
  cases operator <;> rfl

/-- What needs parentheses at one level needs them at the tighter ones. -/
theorem bracketsAt_operand {level : Level} (tree : Expression) (hlevel : level ≠ .factor)
    (hneeded : bracketsAt level tree = true) : bracketsAt level.operand tree = true := by
  cases level with
  | expression => cases hneeded
  | term =>
    cases tree with
    | operation => rfl
    | constant | identifier | foreign => cases hneeded
  | factor => exact absurd rfl hlevel

/-- A slice has at least the parentheses that its tree needs at the level of the slice. -/
theorem Spells.count_compact_le {spaced : Bool} {level : Level}
    (hspells : Spells spaced level slice tree) :
    tree.compact.count '(' + (bracketsAt level tree).toNat ≤ slice.count '(' := by
  induction hspells with
  | constant =>
    rw [compact, count_toDigits]
    exact Nat.zero_le _
  | identifier =>
    rw [compact, String.toList_ofList, List.count_append]
    exact Nat.le_add_right _ _
  | @parentheses _ _ _ tree _ _ _ ih =>
    have hpair := Bool.toNat_le (bracketsAt .factor tree)
    simp only [List.count_append, List.count_cons_self]
    omega
  | @operand _ _ tree hlevel _ ih =>
    have hmono := Bool.toNat_le_toNat (bracketsAt_operand tree hlevel)
    omega
  | @operation operator _ _ _ left right _ _ _ ihLeft ihRight =>
    rw [count_compact_operation, bracketsAt_operation, List.count_append]
    simp only [List.count_append, List.count_cons, Bool.toNat_false]
    omega

/-- A tree is read back from its text with the fewest parentheses, and from every text that has
further pairs around some of its parts. -/
theorem parse_compact (tree : Expression) (htree : tree.IsWellFormed) :
    (∀ spaced, (parse spaced tree.compact.toArray).outcome =
      .success tree tree.compact.length) ∧
    (∀ enclosed slice, Writes enclosed slice tree → ∀ spaced,
      (parse spaced slice.toArray).outcome = .success tree slice.length) ∧
    ∀ spaced (text : Text), (parse spaced text).outcome = .success tree text.size →
      tree.compact.count '(' ≤ text.toList.count '(' := by
  have hwritten (enclosed : Bool) (slice : List Char) (hwrites : Writes enclosed slice tree) :
      ∀ spaced, (parse spaced slice.toArray).outcome = .success tree slice.length := by
    have hderives : Derives .expression slice tree := hwrites.derives htree nofun
    exact hderives.parse_eq
  refine ⟨hwritten false tree.compact htree.writes_compact, hwritten, fun spaced text hparse ↦ ?_⟩
  obtain ⟨gap, body, htext, -, hbody⟩ := parse_whole.1 hparse
  have hcount := hbody.count_compact_le
  rw [htext, List.count_append]
  omega

/-- A product groups to the left, so the one on the right is put in parentheses; those around the
constant in it are further ones. -/
theorem parse_compact_product :
    (operation (identifier "x") .divide
      (operation (constant 1) .multiply (identifier "y"))).IsWellFormed ∧
    (parse false #['x', '/', '(', '1', '*', 'y', ')']).outcome = .success (operation
      (identifier "x") .divide (operation (constant 1) .multiply (identifier "y"))) 7 ∧
    (parse false #['x', '/', '(', '(', '1', ')', '*', 'y', ')']).outcome = .success (operation
      (identifier "x") .divide (operation (constant 1) .multiply (identifier "y"))) 9 := by
  have hx : IsRun isLetter ['x'] :=
    ⟨List.cons_ne_nil _ _, List.forall_mem_singleton.2 (by decide)⟩
  have hy : IsRun isLetter ['y'] :=
    ⟨List.cons_ne_nil _ _, List.forall_mem_singleton.2 (by decide)⟩
  have htree : (operation (identifier "x") .divide
      (operation (constant 1) .multiply (identifier "y"))).IsWellFormed :=
    ⟨hx, Int.natCast_nonneg 1, hy⟩
  obtain ⟨hcompact, hwritten, -⟩ := parse_compact _ htree
  have hone : Writes false ['1'] (constant 1) := @Writes.constant 1
  have hinner : Writes true ['(', '(', '1', ')', '*', 'y', ')']
      (operation (constant 1) .multiply (identifier "y")) :=
    .parentheses (.operation .multiply (.parentheses hone) nofun (@Writes.identifier "y") nofun)
  refine ⟨htree, hcompact false, hwritten false _ ?_ false⟩
  exact .operation .divide (@Writes.identifier "x") nofun hinner fun _ ↦ rfl

end ParserCombinators.Expression
