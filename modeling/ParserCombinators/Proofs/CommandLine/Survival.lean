import ParserCombinators.CommandLine.Report
import ParserCombinators.Proofs.Expression.Produced
import ParserCombinators.Proofs.Number.Faults

/-!
# Which expressions end the command

Text that does not parse, missing variables and divisions by zero are complained about, and the
command goes on. What it does not survive are numbers out of bounds: a constant or a value that is
too long to be written out, and an evaluation that needs a double where none is large enough. The
first such expression ends the command with a fault, and nothing after it is looked at.
-/

namespace ParserCombinators

/-! ## Faults of trees -/

namespace Expression

variable {tree : Expression} {environment : Environment Number} {fault : Fault}

/-- What can go wrong with the value of a tree that was read. -/
inductive EvaluationFault : Fault → Prop
  | unbound (name : String) : EvaluationFault (.unboundVariable name)
  | arithmetic {fault : Fault} : fault.IsArithmetic → EvaluationFault fault

theorem IsWellFormed.raisesOnly_evaluate (htree : tree.IsWellFormed)
    (environment : Environment Number) : RaisesOnly EvaluationFault (tree.evaluate environment) := by
  induction tree with
  | constant value => exact .ok _
  | identifier name =>
    rw [evaluate]
    split
    · exact .ok _
    · exact .error (.unbound name)
  | operation left operator right ihLeft ihRight =>
    refine (ihLeft htree.1).bind fun leftValue ↦ (ihRight htree.2).bind fun rightValue ↦ ?_
    exact (Number.raisesOnly_apply operator leftValue rightValue).mono fun _ ↦ .arithmetic
  | foreign text => cases htree

theorem IsWellFormed.raisesOnly_render (htree : tree.IsWellFormed) :
    RaisesOnly (· = .integerTooLong) tree.render := by
  induction tree with
  | constant value =>
    rw [render]
    by_cases hlong : IsLong value
    · exact integerText_of_isLong hlong ▸ .error rfl
    · exact integerText_of_not_isLong hlong ▸ .ok _
  | identifier name => exact .ok name
  | operation left operator right ihLeft ihRight =>
    exact (ihLeft htree.1).bind fun _ ↦ (ihRight htree.2).bind fun _ ↦ .ok _
  | foreign text => cases htree

/-- Every constant of a tree is written out on the way. -/
theorem not_isLong_of_render {source : String} (hrender : tree.render = .ok source) :
    ∀ value ∈ tree.constants, ¬IsLong value := by
  induction tree generalizing source with
  | constant value =>
    intro other hmem hlong
    obtain rfl : other = value := List.mem_singleton.1 hmem
    rw [render, integerText_of_isLong hlong] at hrender
    cases hrender
  | identifier name => simp [constants]
  | operation left operator right ihLeft ihRight =>
    obtain ⟨leftText, rightText, hleft, hright, -⟩ := render_operation.1 hrender
    exact List.forall_mem_append.2 ⟨ihLeft hleft, ihRight hright⟩
  | foreign text => cases hrender

theorem IsWellFormed.isWritable (htree : tree.IsWellFormed)
    (hshort : ∀ value ∈ tree.constants, ¬IsLong value) : tree.IsWritable := by
  induction tree with
  | constant value => exact Nat.not_lt.1 (hshort value (List.mem_singleton_self value))
  | identifier name => exact htree
  | operation left operator right ihLeft ihRight =>
    obtain ⟨hleft, hright⟩ := List.forall_mem_append.1 hshort
    exact ⟨ihLeft htree.1 hleft, ihRight htree.2 hright⟩
  | foreign text => cases htree

theorem IsWellFormed.render_eq_error_iff (htree : tree.IsWellFormed) :
    tree.render = .error fault ↔
      fault = .integerTooLong ∧ ∃ value ∈ tree.constants, IsLong value := by
  constructor
  · intro herror
    refine ⟨htree.raisesOnly_render fault herror, ?_⟩
    by_contra hshort
    push Not at hshort
    obtain ⟨source, hsource⟩ := exists_render (htree.isWritable hshort)
    rw [hsource] at herror
    cases herror
  · rintro ⟨rfl, value, hmem, hlong⟩
    cases hrender : tree.render with
    | ok source => exact absurd hlong (not_isLong_of_render hrender value hmem)
    | error fault => rw [htree.raisesOnly_render fault hrender]

end Expression

namespace CommandLine

open Expression

variable {options : Options} {environment : Environment Number} {tree : Expression}
  {text : String} {texts : List String} {fault : Fault} {status : Nat}

/-! ## What is written -/

namespace Written

@[simp]
theorem nothing_append (written : Written) : nothing ++ written = written := by
  obtain ⟨output, errors, warnings⟩ := written
  change Written.mk ("" ++ output) ("" ++ errors) ([] ++ warnings) = _
  rw [String.empty_append, String.empty_append, List.nil_append]

@[simp]
theorem append_nothing (written : Written) : written ++ nothing = written := by
  obtain ⟨output, errors, warnings⟩ := written
  change Written.mk (output ++ "") (errors ++ "") (warnings ++ []) = _
  rw [String.append_empty, String.append_empty, List.append_nil]

end Written

/-! ## One expression -/

/-- The tree that is written out for a text. On demand, no text may be left over. -/
def Shows (options : Options) (text : String) (tree : Expression) : Prop :=
  ∃ position : Int,
    (parse options.spaced (.ofString text)).outcome = .success tree position ∧
    (options.complete = true → ¬position < text.length)

/-- The value of a tree is out of bounds, or a number on the way to it is. -/
inductive Overflows (environment : Environment Number) (tree : Expression) : Fault → Prop
  | value {n : Int} : tree.evaluate environment = .ok (.integer n) → IsLong n →
      Overflows environment tree .integerTooLong
  | quotient : tree.evaluate environment = .error .quotientTooLarge →
      Overflows environment tree .quotientTooLarge
  | conversion : tree.evaluate environment = .error .integerTooLarge →
      Overflows environment tree .integerTooLarge

/-- A variable that is looked up has no value, or something is divided by zero. -/
inductive IsUndefined (environment : Environment Number) (tree : Expression) : Prop
  | unbound {name : String} : tree.evaluate environment = .error (.unboundVariable name) →
      IsUndefined environment tree
  | zero : tree.evaluate environment = .error .divisionByZero → IsUndefined environment tree
  | floatZero : tree.evaluate environment = .error .floatDivisionByZero →
      IsUndefined environment tree

/-- A text that ends the command, with the fault that ends it. -/
inductive IsFatal (options : Options) (environment : Environment Number) (text : String) :
    Fault → Prop
  | constant {tree : Expression} {n : Int} : Shows options text tree → n ∈ tree.constants →
      IsLong n → IsFatal options environment text .integerTooLong
  | value {tree : Expression} {fault : Fault} : Shows options text tree →
      (∀ n ∈ tree.constants, ¬IsLong n) → options.evaluated = true →
      Overflows environment tree fault → IsFatal options environment text fault

/-- A text that is complained about. -/
inductive IsFaulty (options : Options) (environment : Environment Number) (text : String) : Prop
  | unread : (∀ tree, ¬Shows options text tree) → IsFaulty options environment text
  | undefined {tree : Expression} : Shows options text tree →
      (∀ n ∈ tree.constants, ¬IsLong n) → options.evaluated = true →
      IsUndefined environment tree → IsFaulty options environment text

theorem Shows.isWellFormed (hshows : Shows options text tree) : tree.IsWellFormed := by
  obtain ⟨position, hparse, -⟩ := hshows
  exact isWellFormed_of_parse hparse

theorem Overflows.reportValue (hoverflows : Overflows environment tree fault) :
    (reportValue tree environment).ending = .error fault := by
  cases hoverflows with
  | value hvalue hlong =>
    simp only [CommandLine.reportValue, hvalue, Number.text, integerText_of_isLong hlong]
  | quotient hevaluate => simp only [CommandLine.reportValue, hevaluate]
  | conversion hevaluate => simp only [CommandLine.reportValue, hevaluate]

theorem IsUndefined.reportValue (hundefined : IsUndefined environment tree) :
    (reportValue tree environment).ending = .ok 1 := by
  cases hundefined with
  | unbound hevaluate => simp only [CommandLine.reportValue, hevaluate, Report.finished]
  | zero hevaluate => simp only [CommandLine.reportValue, hevaluate, Report.finished]
  | floatZero hevaluate => simp only [CommandLine.reportValue, hevaluate, Report.finished]

theorem reportValue_cases (htree : tree.IsWellFormed) (environment : Environment Number) :
    (reportValue tree environment).ending = .ok 0 ∨ IsUndefined environment tree ∨
      ∃ fault, Overflows environment tree fault := by
  cases hevaluate : tree.evaluate environment with
  | ok value =>
    cases value with
    | integer n =>
      by_cases hlong : IsLong n
      · exact .inr (.inr ⟨_, .value hevaluate hlong⟩)
      · left
        simp only [reportValue, hevaluate, Number.text, integerText_of_not_isLong hlong,
          Report.finished]
    | float x =>
      left
      simp only [reportValue, hevaluate, Number.text, Report.finished]
  | error fault =>
    right
    cases htree.raisesOnly_evaluate environment fault hevaluate with
    | unbound name => exact .inl (.unbound hevaluate)
    | arithmetic harithmetic =>
      cases harithmetic with
      | divisionByZero => exact .inl (.zero hevaluate)
      | floatDivisionByZero => exact .inl (.floatZero hevaluate)
      | quotientTooLarge => exact .inr ⟨_, .quotient hevaluate⟩
      | integerTooLarge => exact .inr ⟨_, .conversion hevaluate⟩

/-- Text that is left over is noted, but what is written out and how it ends are up to the tree. -/
theorem Shows.exists_process (hshows : Shows options text tree)
    (environment : Environment Number) : ∃ note, process options environment text =
      .after (.toErrors note) (reportTree options environment tree) := by
  obtain ⟨position, hparse, hcomplete⟩ := hshows
  unfold CommandLine.process
  rw [hparse]
  dsimp only
  split
  case isTrue hleft =>
    rw [if_neg fun hwanted ↦ hcomplete hwanted hleft]
    exact ⟨_, rfl⟩
  case isFalse =>
    refine ⟨"", ?_⟩
    change _ = Report.mk (.nothing ++ _) _
    rw [Written.nothing_append]

theorem Shows.process (hshows : Shows options text tree) :
    (process options environment text).ending = (reportTree options environment tree).ending := by
  obtain ⟨note, hprocess⟩ := hshows.exists_process environment
  rw [hprocess]
  rfl

theorem exists_process_of_unread (hunread : ∀ tree, ¬Shows options text tree)
    (environment : Environment Number) :
    ∃ complaint, process options environment text = .finished (.toErrors complaint) 1 := by
  unfold process
  split
  case h_1 tree position hparse =>
    obtain ⟨hcomplete, hleft⟩ := Classical.not_imp.1 fun hwhole ↦
      hunread tree ⟨position, hparse, hwhole⟩
    rw [if_pos (not_not.1 hleft), if_pos hcomplete]
    exact ⟨_, rfl⟩
  case h_2 => exact ⟨_, rfl⟩

theorem process_of_unread (hunread : ∀ tree, ¬Shows options text tree) :
    (process options environment text).ending = .ok 1 := by
  obtain ⟨complaint, hprocess⟩ := exists_process_of_unread hunread environment
  rw [hprocess]
  rfl

theorem reportTree_of_render {source : String} (hrender : tree.render = .ok source) :
    reportTree options environment tree = .after (.toOutput (source ++ "\n"))
      (if options.evaluated then reportValue tree environment else .finished .nothing 0) := by
  rw [reportTree, hrender]
  dsimp only
  split
  case isTrue => rfl
  case isFalse => rw [Report.after, Report.finished, Report.finished, Written.append_nothing]

theorem reportTree_of_constant {n : Int} (htree : tree.IsWellFormed) (hmem : n ∈ tree.constants)
    (hlong : IsLong n) :
    (reportTree options environment tree).ending = .error .integerTooLong := by
  rw [reportTree, htree.render_eq_error_iff.2 ⟨rfl, n, hmem, hlong⟩]

theorem reportTree_of_short (htree : tree.IsWellFormed)
    (hshort : ∀ n ∈ tree.constants, ¬IsLong n) :
    (reportTree options environment tree).ending =
      if options.evaluated then (reportValue tree environment).ending else .ok 0 := by
  obtain ⟨source, hsource⟩ := exists_render (htree.isWritable hshort)
  rw [reportTree_of_render hsource, Report.after]
  split <;> rfl

theorem IsFatal.process (hfatal : IsFatal options environment text fault) :
    (process options environment text).ending = .error fault := by
  cases hfatal with
  | constant hshows hmem hlong =>
    rw [hshows.process, reportTree_of_constant hshows.isWellFormed hmem hlong]
  | value hshows hshort hevaluated hoverflows =>
    rw [hshows.process, reportTree_of_short hshows.isWellFormed hshort, if_pos hevaluated,
      hoverflows.reportValue]

theorem IsFaulty.process (hfaulty : IsFaulty options environment text) :
    (process options environment text).ending = .ok 1 := by
  cases hfaulty with
  | unread hunread => exact process_of_unread hunread
  | undefined hshows hshort hevaluated hundefined =>
    rw [hshows.process, reportTree_of_short hshows.isWellFormed hshort, if_pos hevaluated,
      hundefined.reportValue]

theorem process_cases (options : Options) (environment : Environment Number) (text : String) :
    (process options environment text).ending = .ok 0 ∨ IsFaulty options environment text ∨
      ∃ fault, IsFatal options environment text fault := by
  by_cases hshown : ∃ tree, Shows options text tree
  · obtain ⟨tree, hshows⟩ := hshown
    have htree := hshows.isWellFormed
    by_cases hlong : ∃ n ∈ tree.constants, IsLong n
    · obtain ⟨n, hmem, hlong⟩ := hlong
      exact .inr (.inr ⟨_, .constant hshows hmem hlong⟩)
    · push Not at hlong
      rw [hshows.process, reportTree_of_short htree hlong]
      split
      case isTrue hevaluated =>
        obtain hzero | hundefined | ⟨fault, hoverflows⟩ := reportValue_cases htree environment
        · exact .inl hzero
        · exact .inr (.inl (.undefined hshows hlong hevaluated hundefined))
        · exact .inr (.inr ⟨fault, .value hshows hlong hevaluated hoverflows⟩)
      case isFalse => exact .inl rfl
  · exact .inr (.inl (.unread (not_exists.1 hshown)))

theorem process_error_iff :
    (process options environment text).ending = .error fault ↔
      IsFatal options environment text fault := by
  refine ⟨fun hending ↦ ?_, IsFatal.process⟩
  obtain hzero | hfaulty | ⟨other, hfatal⟩ := process_cases options environment text
  · rw [hzero] at hending
    cases hending
  · rw [hfaulty.process] at hending
    cases hending
  · rw [hfatal.process] at hending
    cases hending
    exact hfatal

theorem process_ok_iff :
    (process options environment text).ending = .ok status ↔
      (∀ fault, ¬IsFatal options environment text fault) ∧
        ((IsFaulty options environment text ∧ status = 1) ∨
          (¬IsFaulty options environment text ∧ status = 0)) := by
  constructor
  · intro hending
    have hsurvives (fault : Fault) : ¬IsFatal options environment text fault := by
      intro hfatal
      rw [hfatal.process] at hending
      cases hending
    refine ⟨hsurvives, ?_⟩
    by_cases hfaulty : IsFaulty options environment text
    · rw [hfaulty.process] at hending
      exact .inl ⟨hfaulty, (Except.ok.inj hending).symm⟩
    · obtain hzero | hother | ⟨fault, hfatal⟩ := process_cases options environment text
      · rw [hzero] at hending
        exact .inr ⟨hfaulty, (Except.ok.inj hending).symm⟩
      · exact absurd hother hfaulty
      · exact absurd hfatal (hsurvives fault)
  · rintro ⟨hsurvives, ⟨hfaulty, rfl⟩ | ⟨hfaulty, rfl⟩⟩
    · exact hfaulty.process
    · obtain hzero | hother | ⟨fault, hfatal⟩ := process_cases options environment text
      · exact hzero
      · exact absurd hother hfaulty
      · exact absurd hfatal (hsurvives fault)

/-! ## All expressions -/

/-- What is written about expressions, one after the other. -/
def writtenAbout (options : Options) (environment : Environment Number) (texts : List String) :
    Written :=
  texts.foldr (fun text others ↦ (process options environment text).written ++ others) .nothing

/-- A text that is not fatal is written about, and the command goes on with the others. -/
theorem processAll_cons (hsurvives : ∀ fault, ¬IsFatal options environment text fault)
    (texts : List String) :
    ∃ status, (process options environment text).ending = .ok status ∧
      processAll options environment (text :: texts) =
        ⟨(process options environment text).written ++
            (processAll options environment texts).written,
          (processAll options environment texts).ending.map (max status)⟩ := by
  cases hending : (process options environment text).ending with
  | ok status => exact ⟨status, rfl, by rw [processAll, hending]⟩
  | error fault => exact absurd (process_error_iff.1 hending) (hsurvives fault)

theorem processAll_of_survives
    (hsurvives : ∀ text ∈ texts, ∀ fault, ¬IsFatal options environment text fault) :
    ∃ status ≤ 1, processAll options environment texts =
        ⟨writtenAbout options environment texts, .ok status⟩ ∧
      (status = 1 ↔ ∃ text ∈ texts, IsFaulty options environment text) := by
  induction texts with
  | nil => exact ⟨0, Nat.zero_le 1, rfl, by simp⟩
  | cons text texts ih =>
    obtain ⟨hfirst, hothers⟩ := List.forall_mem_cons.1 hsurvives
    obtain ⟨others, hle, heq, hfaulty⟩ := ih hothers
    obtain ⟨status, hending, hcons⟩ := processAll_cons hfirst texts
    rw [heq] at hcons
    refine ⟨max status others, ?_, hcons, ?_⟩
    · obtain ⟨-, ⟨-, rfl⟩ | ⟨-, rfl⟩⟩ := process_ok_iff.1 hending <;> omega
    · rw [List.exists_mem_cons_iff, ← hfaulty]
      obtain ⟨-, ⟨htext, rfl⟩ | ⟨htext, rfl⟩⟩ := process_ok_iff.1 hending
      · simp [htext]; omega
      · simp [htext]

theorem processAll_of_fatal {before after : List String}
    (hbefore : ∀ earlier ∈ before, ∀ fault, ¬IsFatal options environment earlier fault)
    (hfatal : IsFatal options environment text fault) :
    processAll options environment (before ++ text :: after) =
      ⟨writtenAbout options environment (before ++ [text]), .error fault⟩ := by
  induction before with
  | nil =>
    have hreport : processAll options environment (text :: after) =
        process options environment text := by
      rw [processAll, hfatal.process]
    rw [List.nil_append, hreport, ← hfatal.process, List.nil_append]
    simp [writtenAbout]
  | cons earlier before ih =>
    obtain ⟨hfirst, hothers⟩ := List.forall_mem_cons.1 hbefore
    obtain ⟨status, -, hcons⟩ := processAll_cons hfirst (before ++ text :: after)
    rw [List.cons_append, hcons, ih hothers]
    rfl

/-- The first fatal one of some texts, if there is any. -/
theorem exists_first_fatal (options : Options) (environment : Environment Number)
    (texts : List String) :
    (∀ text ∈ texts, ∀ fault, ¬IsFatal options environment text fault) ∨
    ∃ before text after fault, texts = before ++ text :: after ∧
      (∀ earlier ∈ before, ∀ fault, ¬IsFatal options environment earlier fault) ∧
      IsFatal options environment text fault := by
  induction texts with
  | nil => exact .inl nofun
  | cons first others ih =>
    by_cases hfirst : ∃ fault, IsFatal options environment first fault
    · obtain ⟨fault, hfatal⟩ := hfirst
      exact .inr ⟨[], first, others, fault, rfl, nofun, hfatal⟩
    · rw [not_exists] at hfirst
      obtain hothers | ⟨before, text, after, fault, rfl, hbefore, hfatal⟩ := ih
      · exact .inl (List.forall_mem_cons.2 ⟨hfirst, hothers⟩)
      · exact .inr ⟨first :: before, text, after, fault, rfl,
          List.forall_mem_cons.2 ⟨hfirst, hbefore⟩, hfatal⟩

/-- The texts that the command works on. -/
def Options.givenTexts (options : Options) (input : String) : List String :=
  if options.expressions.isEmpty then linesOf input else options.expressions

/-- Either every text is worked on and the status tells whether there was anything to complain
about, or the command ends with the fault of the first text that is fatal. -/
theorem runOptions_cases (options : Options) (input : String) :
    let environment := Environment.ofBindings options.bindings
    let warnings := warningsOf options.bindings
    (∃ status ≤ 1, runOptions options input =
        ⟨warnings ++ writtenAbout options environment (options.givenTexts input), .ok status⟩ ∧
      (∀ text ∈ options.givenTexts input, ∀ fault, ¬IsFatal options environment text fault) ∧
      (status = 1 ↔ ∃ text ∈ options.givenTexts input, IsFaulty options environment text)) ∨
    ∃ before text after fault, options.givenTexts input = before ++ text :: after ∧
      (∀ earlier ∈ before, ∀ fault, ¬IsFatal options environment earlier fault) ∧
      IsFatal options environment text fault ∧
      runOptions options input =
        ⟨warnings ++ writtenAbout options environment (before ++ [text]), .error fault⟩ := by
  intro environment warnings
  have hrun : runOptions options input =
      .after warnings (processAll options environment (options.givenTexts input)) := rfl
  obtain hsurvives | ⟨before, text, after, fault, htexts, hbefore, hfatal⟩ :=
    exists_first_fatal options environment (options.givenTexts input)
  · obtain ⟨status, hle, heq, hfaulty⟩ := processAll_of_survives hsurvives
    exact .inl ⟨status, hle, by rw [hrun, heq]; rfl, hsurvives, hfaulty⟩
  · refine .inr ⟨before, text, after, fault, htexts, hbefore, hfatal, ?_⟩
    rw [hrun, htexts, processAll_of_fatal hbefore hfatal]
    rfl

/-- A division by zero would be complained about, but a quotient that no double is large enough for
ends the command without a status, and the second expression is not looked at. -/
theorem command_of_quotientTooLarge :
    let large := String.ofList ('1' :: List.replicate 100 '0')
    let report := command ["-e", "-l", "a=" ++ large, "a*a*a*a/1", "2"] ""
    report.written = .toOutput "((((a*a)*a)*a)/1)\n" ∧
      report.ending = .error .quotientTooLarge ∧ ∀ status, report.ending ≠ .ok status := by
  intro large report
  obtain ⟨hwritten, hending⟩ : report.written = .toOutput "((((a*a)*a)*a)/1)\n" ∧
      report.ending = .error .quotientTooLarge := by
    decide +kernel
  refine ⟨hwritten, hending, fun status hstatus ↦ ?_⟩
  rw [hending] at hstatus
  cases hstatus

end CommandLine

end ParserCombinators
