import Mathlib.Data.List.TakeWhile
import ParserCombinators.Proofs.Expression.RoundTrip

/-!
# Renderings can be told apart

Two trees are never written out alike, also where they have negative constants, which the grammar
does not read. The first character tells what kind of tree a rendering is of, and a rendering ends
where the next character joins it no more. So of two renderings that start equal texts neither goes
on longer than the other.
-/

namespace ParserCombinators

open Character

variable {rest rest' : List Char}

/-- A run goes on as long as its class does. -/
theorem IsRun.append_inj {accepts : Char → Bool} {run run' : List Char} (hrun : IsRun accepts run)
    (hrun' : IsRun accepts run') (hrest : ∀ c ∈ rest.head?, accepts c = false)
    (hrest' : ∀ c ∈ rest'.head?, accepts c = false) (htexts : run ++ rest = run' ++ rest') :
    run = run' ∧ rest = rest' := by
  have htake {run rest : List Char} (hrun : IsRun accepts run)
      (hrest : ∀ c ∈ rest.head?, accepts c = false) :
      (run ++ rest).takeWhile accepts = run := by
    rw [List.takeWhile_append_of_pos hrun.accepted]
    cases rest with
    | nil => exact List.append_nil run
    | cons c rest =>
      rw [List.takeWhile_cons_of_neg (by simp [hrest c rfl]), List.append_nil]
  have hsame : run = run' := by rw [← htake hrun hrest, htexts, htake hrun' hrest']
  subst hsame
  exact ⟨rfl, List.append_cancel_left htexts⟩

theorem IsRun.exists_head {accepts : Char → Bool} {run : List Char} (hrun : IsRun accepts run)
    (rest : List Char) : ∃ c, (run ++ rest).head? = some c ∧ accepts c = true := by
  obtain ⟨c, tail, rfl⟩ := List.exists_cons_of_ne_nil hrun.nonempty
  exact ⟨c, rfl, hrun.accepted c List.mem_cons_self⟩

theorem toDigits_append_inj {m n : Nat} (hrest : ∀ c ∈ rest.head?, isDigit c = false)
    (hrest' : ∀ c ∈ rest'.head?, isDigit c = false)
    (htexts : Nat.toDigits 10 m ++ rest = Nat.toDigits 10 n ++ rest') : m = n ∧ rest = rest' := by
  obtain ⟨hdigits, hsame⟩ :=
    (isRun_toDigits m).append_inj (isRun_toDigits n) hrest hrest' htexts
  refine ⟨?_, hsame⟩
  rw [← decimalValue_toDigits m, hdigits, decimalValue_toDigits]

theorem toDigits_append_ne (n : Nat) : Nat.toDigits 10 n ++ rest ≠ '-' :: rest' := by
  intro htexts
  have hhead : (Nat.toDigits 10 n ++ rest).head? ≠ some '-' :=
    Expression.head?_ne_of_isRun (isRun_toDigits n) (by decide)
  rw [htexts] at hhead
  exact hhead rfl

/-- The sign tells negative integers from the others, and the digits behind it are a run. -/
theorem toString_append_inj {m n : Int} (hrest : ∀ c ∈ rest.head?, isDigit c = false)
    (hrest' : ∀ c ∈ rest'.head?, isDigit c = false)
    (htexts : (toString m).toList ++ rest = (toString n).toList ++ rest') :
    m = n ∧ rest = rest' := by
  cases m with
  | ofNat m =>
    rw [Int.ofNat_eq_natCast, toList_toString_natCast] at htexts
    cases n with
    | ofNat n =>
      rw [Int.ofNat_eq_natCast, toList_toString_natCast] at htexts
      obtain ⟨rfl, hsame⟩ := toDigits_append_inj hrest hrest' htexts
      exact ⟨rfl, hsame⟩
    | negSucc n =>
      rw [toList_toString_negSucc] at htexts
      exact absurd htexts (toDigits_append_ne m)
  | negSucc m =>
    rw [toList_toString_negSucc] at htexts
    cases n with
    | ofNat n =>
      rw [Int.ofNat_eq_natCast, toList_toString_natCast] at htexts
      exact absurd htexts.symm (toDigits_append_ne n)
    | negSucc n =>
      rw [toList_toString_negSucc] at htexts
      obtain ⟨hsuccessor, hsame⟩ := toDigits_append_inj hrest hrest' (List.cons.inj htexts).2
      rw [Nat.succ.inj hsuccessor]
      exact ⟨rfl, hsame⟩

namespace Expression

variable {tree other : Expression} {source source' : String}

/-! ## The kind of a rendering -/

inductive Kind
  | constant
  | identifier
  | operation
  | foreign
  deriving DecidableEq

def kind : Expression → Kind
  | constant _ => .constant
  | identifier _ => .identifier
  | operation _ _ _ => .operation
  | foreign _ => .foreign

/-- The kind of tree whose rendering starts with the character. -/
def Kind.ofFirst (c : Char) : Kind :=
  if c = '(' then .operation else if isLetter c then .identifier else .constant

theorem kind_of_render (htree : tree.IsWritable) (hsource : tree.render = .ok source)
    (rest : List Char) :
    (source.toList ++ rest).head?.map Kind.ofFirst = some tree.kind := by
  cases tree with
  | constant value =>
    rw [render_constant htree] at hsource
    rw [← Except.ok.inj hsource]
    cases value with
    | ofNat n =>
      obtain ⟨c, hhead, hc⟩ := (isRun_toDigits n).exists_head rest
      have hopening : c ≠ '(' := ne_of_apply_ne isDigit (by rw [hc]; decide)
      rw [Int.ofNat_eq_natCast, toList_toString_natCast, hhead, Option.map_some, Kind.ofFirst,
        if_neg hopening, isLetter_eq_false_of_isDigit hc]
      rfl
    | negSucc n =>
      rw [toList_toString_negSucc]
      rfl
  | identifier name =>
    obtain rfl : name = source := Except.ok.inj hsource
    obtain ⟨c, hhead, hc⟩ := IsRun.exists_head htree rest
    have hopening : c ≠ '(' := ne_of_apply_ne isLetter (by rw [hc]; decide)
    rw [hhead, Option.map_some, Kind.ofFirst, if_neg hopening, if_pos hc]
    rfl
  | operation left operator right =>
    obtain ⟨leftText, rightText, -, -, hsource⟩ := render_operation.1 hsource
    rw [hsource]
    rfl
  | foreign text => cases htree

theorem kind_eq_of_render (htree : tree.IsWritable) (hother : other.IsWritable)
    (hsource : tree.render = .ok source) (hsource' : other.render = .ok source')
    (htexts : source.toList ++ rest = source'.toList ++ rest') : tree.kind = other.kind := by
  apply Option.some.inj
  rw [← kind_of_render htree hsource rest, htexts, kind_of_render hother hsource' rest']

/-! ## Renderings in a context -/

/-- Neither a digit nor a letter follows, so no token goes on. -/
def EndsTokens (rest : List Char) : Prop :=
  ∀ c ∈ rest.head?, isDigit c = false ∧ isLetter c = false

theorem endsTokens_symbol (operator : Operator) (rest : List Char) :
    EndsTokens (operator.symbol :: rest) := by
  rintro _ ⟨⟩
  exact ⟨isDigit_symbol operator, isLetter_symbol operator⟩

theorem endsTokens_closing (rest : List Char) : EndsTokens (')' :: rest) := by
  rintro _ ⟨⟩
  decide

/-- The left operand ends before the operator, and the right one before the parenthesis, so the
texts of the operands are compared in a context. -/
theorem render_append_inj (htree : tree.IsWritable) (hother : other.IsWritable)
    (hsource : tree.render = .ok source) (hsource' : other.render = .ok source')
    (hrest : EndsTokens rest) (hrest' : EndsTokens rest')
    (htexts : source.toList ++ rest = source'.toList ++ rest') : tree = other ∧ rest = rest' := by
  induction tree generalizing other source source' rest rest' with
  | constant m =>
    have hkind := kind_eq_of_render htree hother hsource hsource' htexts
    cases other with
    | constant n =>
      rw [render_constant htree] at hsource
      rw [render_constant hother] at hsource'
      rw [← Except.ok.inj hsource, ← Except.ok.inj hsource'] at htexts
      obtain ⟨rfl, hsame⟩ :=
        toString_append_inj (fun c hc ↦ (hrest c hc).1) (fun c hc ↦ (hrest' c hc).1) htexts
      exact ⟨rfl, hsame⟩
    | identifier | operation | foreign => cases hkind
  | identifier name =>
    have hkind := kind_eq_of_render htree hother hsource hsource' htexts
    cases other with
    | identifier name' =>
      obtain rfl : name = source := Except.ok.inj hsource
      obtain rfl : name' = source' := Except.ok.inj hsource'
      obtain ⟨hname, hsame⟩ := IsRun.append_inj htree hother (fun c hc ↦ (hrest c hc).2)
        (fun c hc ↦ (hrest' c hc).2) htexts
      exact ⟨congrArg identifier (String.toList_inj.1 hname), hsame⟩
    | constant | operation | foreign => cases hkind
  | operation left operator right ihLeft ihRight =>
    have hkind := kind_eq_of_render htree hother hsource hsource' htexts
    cases other with
    | operation left' operator' right' =>
      obtain ⟨leftText, rightText, hleft, hright, hsource⟩ := render_operation.1 hsource
      obtain ⟨leftText', rightText', hleft', hright', hsource'⟩ := render_operation.1 hsource'
      simp only [hsource, hsource', List.cons_append, List.append_assoc, List.nil_append] at htexts
      obtain ⟨rfl, hpair⟩ := ihLeft htree.1 hother.1 hleft hleft' (endsTokens_symbol operator _)
        (endsTokens_symbol operator' _) (List.cons.inj htexts).2
      obtain ⟨hsymbol, hoperand⟩ := List.cons.inj hpair
      obtain ⟨rfl, hclosing⟩ := ihRight htree.2 hother.2 hright hright' (endsTokens_closing _)
        (endsTokens_closing _) hoperand
      rw [symbol_injective hsymbol]
      exact ⟨rfl, (List.cons.inj hclosing).2⟩
    | constant | identifier | foreign => cases hkind
  | foreign => cases htree

/-- A tree is written out, and no other one is written out alike. -/
theorem render_injective (tree other : Expression) (htree : tree.IsWritable)
    (hother : other.IsWritable) :
    (∃ source, tree.render = .ok source) ∧ (tree.render = other.render → tree = other) := by
  obtain ⟨source, hsource⟩ := exists_render htree
  refine ⟨⟨source, hsource⟩, fun hsame ↦ ?_⟩
  have hempty : EndsTokens [] := nofun
  exact (render_append_inj htree hother hsource (hsame ▸ hsource) hempty hempty rfl).1

/-- A minus sign can be an operator, the sign of a constant, or both one after the other. -/
theorem render_injective_minus :
    (operation (constant 1) .subtract (constant (-1))).IsWritable ∧
    (operation (constant 1) .subtract (constant 1)).IsWritable ∧
    (operation (constant 1) .subtract (constant (-1))).render ≠
      (operation (constant 1) .subtract (constant 1)).render := by
  have hone : (constant 1).IsWritable := show (Nat.toDigits 10 1).length ≤ 4300 by decide
  have hminus : (constant (-1)).IsWritable := show (Nat.toDigits 10 1).length ≤ 4300 by decide
  refine ⟨⟨hone, hminus⟩, ⟨hone, hone⟩, fun hsame ↦ ?_⟩
  have htrees := (render_injective (operation (constant 1) .subtract (constant (-1)))
    (operation (constant 1) .subtract (constant 1)) ⟨hone, hminus⟩ ⟨hone, hone⟩).2 hsame
  exact absurd htrees (by decide)

end Expression

end ParserCombinators
