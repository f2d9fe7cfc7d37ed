import ParserCombinators.Proofs.Value.Faults

/-!
# The names that evaluation asks for

Evaluation asks an environment for the names that the tree lists and for no others, from left to
right. So environments that agree on these names cannot be told apart, and a value is found only
where all of them are bound. A fault elsewhere can come before a missing name, but if a name is
reported, then it is the first one that is missing.
-/

namespace ParserCombinators

/-- The name is listed and unbound, and all names before its first place in the list are bound. -/
structure Environment.Lacks {α : Type} (environment : Environment α) (names : List String)
    (name : String) : Prop where
  listed : name ∈ names
  unbound : environment name = none
  earlier : ∀ other ∈ names.takeWhile (· ≠ name), (environment other).isSome

theorem Environment.lacks_of_find? {α : Type} {environment : Environment α} {names : List String}
    {name : String} (hname : names.find? (fun other ↦ (environment other).isNone) = some name) :
    environment.Lacks names name := by
  obtain ⟨hmissing, before, behind, rfl, hbefore⟩ := List.find?_eq_some_iff_append.1 hname
  have hunbound : environment name = none := by simpa using hmissing
  refine ⟨List.mem_append_right before List.mem_cons_self, hunbound, fun other hother ↦ ?_⟩
  -- A bound name is no missing one, so the names before it reach no further than `before`.
  have hbound : ∀ other ∈ before, (environment other).isSome := by simpa using hbefore
  have hdiffers : ∀ other ∈ before, decide (other ≠ name) = true := by
    intro other hmem
    refine decide_eq_true fun hsame ↦ ?_
    have := hbound other hmem
    rw [hsame, hunbound] at this
    cases this
  rw [List.takeWhile_append_of_pos hdiffers, List.takeWhile_cons_of_neg (by simp),
    List.append_nil] at hother
  exact hbound other hother

namespace Expression

section Domain

variable {α : Type} [Arithmetic α] {environment environment' : Environment α}
  {tree left right : Expression} {operator : Operator} {value : α} {fault : Fault} {name : String}

theorem evaluate_operation_eq_ok :
    (operation left operator right).evaluate environment = .ok value ↔
      ∃ leftValue rightValue, left.evaluate environment = .ok leftValue ∧
        right.evaluate environment = .ok rightValue ∧
          Arithmetic.apply operator leftValue rightValue = .ok value := by
  rw [evaluate]
  cases left.evaluate environment with
  | error fault => simp [Bind.bind, Except.bind]
  | ok leftValue => cases right.evaluate environment <;> simp [Bind.bind, Except.bind]

/-- The fault is that of the first of the two operands that has one, or that of the operator. -/
theorem evaluate_operation_eq_error :
    (operation left operator right).evaluate environment = .error fault ↔
      left.evaluate environment = .error fault ∨
        ∃ leftValue, left.evaluate environment = .ok leftValue ∧
          (right.evaluate environment = .error fault ∨
            ∃ rightValue, right.evaluate environment = .ok rightValue ∧
              Arithmetic.apply operator leftValue rightValue = .error fault) := by
  rw [evaluate]
  cases left.evaluate environment with
  | error fault => simp [Bind.bind, Except.bind]
  | ok leftValue => cases right.evaluate environment <;> simp [Bind.bind, Except.bind]

theorem evaluate_congr (hagree : ∀ name ∈ tree.names, environment name = environment' name) :
    tree.evaluate environment = tree.evaluate environment' := by
  induction tree with
  | constant value => rfl
  | identifier name => rw [evaluate, evaluate, hagree name List.mem_cons_self]
  | operation left operator right ihLeft ihRight =>
    obtain ⟨hleft, hright⟩ := List.forall_mem_append.1 hagree
    rw [evaluate, evaluate, ihLeft hleft, ihRight hright]
  | foreign text => rfl

theorem bound_of_evaluate (hvalue : tree.evaluate environment = .ok value) :
    ∀ name ∈ tree.names, (environment name).isSome := by
  induction tree generalizing value with
  | constant => exact List.forall_mem_nil _
  | identifier name =>
    rw [evaluate] at hvalue
    cases hbound : environment name with
    | some bound => simp [names, hbound]
    | none => simp [hbound] at hvalue
  | operation left operator right ihLeft ihRight =>
    obtain ⟨_, _, hleft, hright, -⟩ := evaluate_operation_eq_ok.1 hvalue
    exact List.forall_mem_append.2 ⟨ihLeft hleft, ihRight hright⟩
  | foreign => exact List.forall_mem_nil _

/-- Where the left operand has a value none of its names is missing, so the search for a missing
name goes on in the right operand, as the evaluation does. -/
theorem find?_names_of_evaluate
    (hoperators : ∀ operator (first second : α) name,
      Arithmetic.apply operator first second ≠ .error (.unboundVariable name))
    (hfault : tree.evaluate environment = .error (.unboundVariable name)) :
    tree.names.find? (fun other ↦ (environment other).isNone) = some name := by
  induction tree with
  | constant => cases hfault
  | identifier other =>
    rw [evaluate] at hfault
    cases hbound : environment other with
    | some bound => simp [hbound] at hfault
    | none =>
      obtain rfl : other = name := by simpa [hbound] using hfault
      simp [names, hbound]
  | operation left operator right ihLeft ihRight =>
    rw [names, List.find?_append]
    obtain hleft | ⟨leftValue, hleft, hright | ⟨rightValue, -, hoperator⟩⟩ :=
      evaluate_operation_eq_error.1 hfault
    · rw [ihLeft hleft, Option.some_or]
    · have hbound : left.names.find? (fun other ↦ (environment other).isNone) = none := by
        simpa [Option.isSome_iff_ne_none] using bound_of_evaluate hleft
      rw [hbound, Option.none_or, ihRight hright]
    · exact absurd hoperator (hoperators operator leftValue rightValue name)
  | foreign => cases hfault

end Domain

/-- A variable that is reported is listed in the tree and has no value. -/
theorem evaluate_ne_unboundVariable {tree : Expression} {environment : Environment Number}
    (hbound : ∀ name ∈ tree.names, (environment name).isSome) (other : String) :
    tree.evaluate environment ≠ .error (.unboundVariable other) := by
  intro hfault
  have hfind := find?_names_of_evaluate (fun operator first second name hoperator ↦ by
    cases Number.raisesOnly_apply operator first second _ hoperator) hfault
  obtain ⟨hlisted, hunbound, -⟩ := Environment.lacks_of_find? hfind
  have hsome := hbound other hlisted
  rw [hunbound] at hsome
  cases hsome

/-- Whatever the domain, only the names that are listed matter, and a value takes all of them. In
arithmetic on numbers and on values of all kinds, a name that is reported is the first that is
missing. -/
theorem evaluate_names (tree : Expression) :
    (∀ (α : Type) [Arithmetic α] (environment environment' : Environment α),
      (∀ name ∈ tree.names, environment name = environment' name) →
        tree.evaluate environment = tree.evaluate environment') ∧
    (∀ (α : Type) [Arithmetic α] (environment : Environment α) (value : α),
      tree.evaluate environment = .ok value →
        ∀ name ∈ tree.names, (environment name).isSome) ∧
    (∀ (environment : Environment Number) (name : String),
      tree.evaluate environment = .error (.unboundVariable name) →
        environment.Lacks tree.names name) ∧
    ∀ (environment : Environment Value) (name : String),
      tree.evaluate environment = .error (.unboundVariable name) →
        environment.Lacks tree.names name := by
  refine ⟨fun α _ environment environment' ↦ evaluate_congr,
    fun α _ environment value ↦ bound_of_evaluate, fun environment name hfault ↦ ?_,
    fun environment name hfault ↦ ?_⟩
  · refine Environment.lacks_of_find? (find?_names_of_evaluate ?_ hfault)
    intro operator first second other hoperator
    cases Number.raisesOnly_apply operator first second _ hoperator
  · refine Environment.lacks_of_find? (find?_names_of_evaluate ?_ hfault)
    intro operator first second other hoperator
    cases Value.raisesOnly_apply operator first second _ hoperator with
    | arithmetic harithmetic => cases harithmetic

/-- Two of the names are missing, of which the first one is reported. Another name that is bound in
addition makes no difference. -/
theorem evaluate_names_sum :
    (Environment.ofBindings [("x", Value.ofNat 1)]).Lacks ["x", "y", "z"] "y" ∧
    ((operation (identifier "x") .add
        (operation (identifier "y") .multiply (identifier "z"))).evaluate
      (Environment.ofBindings [("w", Value.ofNat 2), ("x", Value.ofNat 1)]) =
        .error (.unboundVariable "y")) ∧
    ∀ name ∈ ["x", "x"], ((Environment.ofBindings [("x", Value.ofNat 1)]) name).isSome := by
  obtain ⟨hsame, -, -, hlacks⟩ := evaluate_names
    (operation (identifier "x") .add (operation (identifier "y") .multiply (identifier "z")))
  obtain ⟨-, hbound, -, -⟩ := evaluate_names
    (operation (identifier "x") .subtract (identifier "x"))
  have hmissing : (operation (identifier "x") .add
      (operation (identifier "y") .multiply (identifier "z"))).evaluate
        (Environment.ofBindings [("x", Value.ofNat 1)]) = .error (.unboundVariable "y") := rfl
  refine ⟨hlacks _ _ hmissing, (hsame Value _ _ ?_).trans hmissing, hbound Value _ (.ofNat 0) rfl⟩
  simp [names, Environment.ofBindings, Environment.bind]

end Expression

end ParserCombinators
