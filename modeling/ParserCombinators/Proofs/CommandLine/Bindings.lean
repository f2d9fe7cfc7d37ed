import ParserCombinators.CommandLine.Binding
import ParserCombinators.Proofs.Expression.Names
import ParserCombinators.Proofs.Expression.Produced
import ParserCombinators.Proofs.Number.Integers

/-!
# What bindings bind

The name of a binding is a run of letters, as it is in expressions, so every variable can be bound
to every number that has a text. In the environment the last binding of a name counts. Integers are
bound exactly, as long as they are within the limit on digits; beyond it they are taken for doubles,
and the doubles are infinite.
-/

namespace ParserCombinators

open Character
open Expression

/-! ## Environments -/

namespace Environment

variable {α : Type} {bindings : List (String × α)} {name : String} {value : α}

theorem ofBindings_append_singleton (bindings : List (String × α)) (binding : String × α) :
    ofBindings (bindings ++ [binding]) = (ofBindings bindings).bind binding.1 binding.2 :=
  List.foldl_append ..

/-- The last binding of a name is the first one from behind. -/
theorem ofBindings_apply (bindings : List (String × α)) (name : String) :
    ofBindings bindings name = bindings.reverse.lookup name := by
  induction bindings using List.reverseRecOn with
  | nil => rfl
  | append_singleton bindings binding ih =>
    rw [ofBindings_append_singleton, bind, ih, List.reverse_concat, List.lookup_cons]
    by_cases hname : name = binding.1
    · simp [hname]
    · simp [hname, beq_eq_false_iff_ne.2 hname]

theorem isSome_ofBindings (hmem : (name, value) ∈ bindings) :
    (ofBindings bindings name).isSome := by
  rw [ofBindings_apply, Option.isSome_iff_ne_none]
  intro hnone
  have hapart := List.lookup_eq_none_iff.1 hnone _ (List.mem_reverse.2 hmem)
  simp at hapart

end Environment

namespace CommandLine

variable {κ ρ : Type} {text : Text} {name numeral : String} {n : Int}

/-! ## Reading a binding -/

theorem reads_bindingName (rules : κ → Matcher ρ) {letters rest : List Char}
    (hletters : IsRun isLetter letters) (hleft : letters ++ '=' :: rest <:+ text.toList) :
    bindingName.Reads text rules (letters ++ '=' :: rest) (String.ofList letters) rest := by
  have hequals := (List.suffix_append letters _).trans hleft
  have hstop : ∀ c ∈ ('=' :: rest).head?, isLetter c = false :=
    forall_mem_head?_cons (by decide) rest
  exact (Parser.reads_identifier hleft hletters hstop).keepLeft (Parser.reads_skipChar hequals)

/-- The name ends at the first equals sign, and the number is all that follows it. -/
theorem readBinding_append (hname : IsRun isLetter name.toList) (numeral : String) :
    readBinding (name ++ "=" ++ numeral) =
      (readNumber numeral.toList).map fun value ↦ (name, value) := by
  let text := Text.ofString (name ++ "=" ++ numeral)
  have htext : text.toList = (name.toList ++ ['=']) ++ numeral.toList := by
    simp [text, Text.ofString]
  have hleft : name.toList ++ '=' :: numeral.toList <:+ text.toList := by
    rw [htext, List.append_assoc]
    exact List.suffix_rfl
  have hreads : (bindingName : Parser Empty Empty String).Reads text Empty.elim _ _ _ :=
    reads_bindingName Empty.elim hname hleft
  rw [List.append_cons, String.ofList_toList] at hreads
  have hsuffix : text.suffixFrom (name.toList ++ ['=']).length = numeral.toList := by
    rw [Text.suffixFrom, htext, Int.toNat_natCast, List.drop_left]
  rw [readBinding, hreads.outcome_run htext]
  dsimp only
  rw [hsuffix]

/-! ## Integers -/

theorem readNumber_toString_of_not_isLong (hshort : ¬IsLong n) :
    readNumber (toString n).toList = .ok (.integer n) := by
  have hwithin : ¬4300 < (Nat.toDigits 10 n.natAbs).length := hshort
  rw [readNumber, Reading.integer_toString, if_neg hwithin]

theorem readNumber_toString_of_isLong (hlong : IsLong n) :
    readNumber (toString n).toList = .ok (.float (Binary64.infinity (decide (n < 0)))) := by
  have hbeyond : 4300 < (Nat.toDigits 10 n.natAbs).length := hlong
  rw [readNumber, Reading.integer_toString, if_pos hbeyond]
  dsimp only
  rw [Reading.float?_toString_of_isLong hlong]

/-- An integer is bound as it is, unless it has too many digits. -/
theorem readBinding_toString (name : String) (hname : IsRun isLetter name.toList) (n : Int) :
    (¬IsLong n → readBinding (name ++ "=" ++ toString n) = .ok (name, .integer n)) ∧
    (IsLong n → readBinding (name ++ "=" ++ toString n) =
      .ok (name, .float (Binary64.infinity (decide (n < 0))))) := by
  rw [readBinding_append hname]
  constructor
  · intro hshort
    rw [readNumber_toString_of_not_isLong hshort]
    rfl
  · intro hlong
    rw [readNumber_toString_of_isLong hlong]
    rfl

theorem readBinding_toString_bounds :
    IsRun isLetter "a".toList ∧
    readBinding ("a" ++ "=" ++ toString (-12 : Int)) = .ok ("a", .integer (-12)) ∧
    readBinding ("a" ++ "=" ++ toString (-tenTo 4300 : Int)) =
      .ok ("a", .float (Binary64.infinity true)) := by
  have hname : IsRun isLetter "a".toList := isRun_singleton (by decide)
  have hshort : ¬IsLong (-12) := by
    unfold IsLong
    decide
  have hlong : IsLong (-tenTo 4300) := by
    rw [IsLong, Int.natAbs_neg]
    exact isLong_tenTo
  have hnegative : (-tenTo 4300 : Int) < 0 :=
    Int.neg_neg_of_pos (Int.natCast_pos.2 (tenTo_pos 4300))
  refine ⟨hname, (readBinding_toString "a" hname _).1 hshort, ?_⟩
  rw [(readBinding_toString "a" hname _).2 hlong, decide_eq_true hnegative]

/-- The smallest integer with too many digits is bound to an infinite double. -/
theorem readBinding_tenTo :
    readBinding ("a" ++ "=" ++ toString (tenTo 4300 : Int)) =
      .ok ("a", .float (Binary64.infinity false)) ∧
    ¬∀ name : String, IsRun isLetter name.toList → ∀ n : Int,
      readBinding (name ++ "=" ++ toString n) = .ok (name, .integer n) := by
  have hname : IsRun isLetter "a".toList := isRun_singleton (by decide)
  have hbinding : readBinding ("a" ++ "=" ++ toString (tenTo 4300 : Int)) =
      .ok ("a", .float (Binary64.infinity false)) := by
    have hpositive : ¬(tenTo 4300 : Int) < 0 := Int.not_lt.2 (Int.natCast_nonneg _)
    rw [readBinding_append hname, readNumber_toString_of_isLong isLong_tenTo,
      decide_eq_false hpositive]
    rfl
  refine ⟨hbinding, fun hexact ↦ ?_⟩
  have hinteger := hexact "a" hname (tenTo 4300)
  rw [hbinding] at hinteger
  cases hinteger

/-! ## Variables of an expression -/

/-- A text that can be read as an integer or as a double. -/
def IsNumeral (numeral : String) : Prop :=
  (∃ n, Reading.integer numeral.toList = .ok n) ∨ ∃ x, Reading.float? numeral.toList = some x

theorem IsNumeral.exists_readNumber (hnumeral : IsNumeral numeral) :
    ∃ value, readNumber numeral.toList = .ok value := by
  unfold readNumber
  obtain ⟨n, hinteger⟩ | ⟨x, hfloat⟩ := hnumeral
  · exact ⟨.integer n, by rw [hinteger]⟩
  · cases Reading.integer numeral.toList with
    | ok n => exact ⟨.integer n, rfl⟩
    | error => exact ⟨.float x, by rw [hfloat]⟩

theorem fst_of_readBinding {binding : String × Number} (hname : IsRun isLetter name.toList)
    (hbinding : readBinding (name ++ "=" ++ numeral) = .ok binding) : binding.1 = name := by
  rw [readBinding_append hname] at hbinding
  cases hvalue : readNumber numeral.toList with
  | ok value =>
    rw [hvalue] at hbinding
    obtain rfl := Except.ok.inj hbinding
    rfl
  | error fault =>
    rw [hvalue] at hbinding
    cases hbinding

/-- A variable of an expression that was read takes every number there is a text for, and once all
of them are bound, whatever else is, none is reported. -/
theorem binds_names {spaced : Bool} {text : Text} {tree : Expression} {position : Int}
    (hparse : (parse spaced text).outcome = .success tree position) :
    (∀ name ∈ tree.names, ∀ numeral, IsNumeral numeral → ∃ value,
      readNumber numeral.toList = .ok value ∧
        readBinding (name ++ "=" ++ numeral) = .ok (name, value)) ∧
    ∀ bindings : List (String × Number),
      (∀ name ∈ tree.names, ∃ numeral, ∃ binding ∈ bindings,
        readBinding (name ++ "=" ++ numeral) = .ok binding) →
      ∀ other, tree.evaluate (.ofBindings bindings) ≠ .error (.unboundVariable other) := by
  have hletters := (isWellFormed_of_parse hparse).isRun_of_mem_names
  constructor
  · intro name hname numeral hnumeral
    obtain ⟨value, hvalue⟩ := hnumeral.exists_readNumber
    refine ⟨value, hvalue, ?_⟩
    rw [readBinding_append (hletters name hname), hvalue]
    rfl
  · intro bindings hbindings
    refine evaluate_ne_unboundVariable fun name hname ↦ ?_
    obtain ⟨numeral, ⟨bound, value⟩, hmem, hbinding⟩ := hbindings name hname
    obtain rfl : bound = name := fst_of_readBinding (hletters name hname) hbinding
    exact Environment.isSome_ofBindings hmem

/-- The second binding of the same variable and the one of another variable do no harm. -/
theorem binds_names_sum :
    let tree := operation (operation (identifier "x") .multiply (identifier "y")) .add
      (identifier "x")
    let minus := Number.float (Binary64.infinity true)
    (parse false #['x', '*', 'y', '+', 'x']).outcome = .success tree 5 ∧
    (∃ value, readNumber "-inf".toList = .ok value ∧
      readBinding ("y" ++ "=" ++ "-inf") = .ok ("y", value)) ∧
    ∀ other, tree.evaluate (.ofBindings
      [("y", .integer 0), ("z", .integer 7), ("x", .integer (-2)), ("y", minus)]) ≠
        .error (.unboundVariable other) := by
  intro tree minus
  have hparse : (parse false #['x', '*', 'y', '+', 'x']).outcome = .success tree 5 := by
    decide +kernel
  obtain ⟨hbindable, hbound⟩ := binds_names hparse
  have hy : "y" ∈ tree.names := by decide
  refine ⟨hparse, hbindable "y" hy "-inf" (.inr ⟨Binary64.infinity true, by decide +kernel⟩), hbound _ ?_⟩
  intro name hname
  have hnames : name = "x" ∨ name = "y" := by
    revert name
    decide
  obtain rfl | rfl := hnames
  · exact ⟨"-2", ("x", .integer (-2)), by simp, rfl⟩
  · exact ⟨"-inf", ("y", minus), by simp, rfl⟩

end CommandLine

end ParserCombinators
