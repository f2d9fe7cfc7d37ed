import ParserCombinators.Proofs.CommandLine.Bindings
import ParserCombinators.Proofs.CommandLine.Survival

/-!
# What the command prints and returns

A text is refused if no prefix of it is an expression, or if the whole of it has to be one and is
not. For every other text the longest expression in front is written out, and on demand its value,
unless it has none. The status is one if any text is refused or has no value on demand, and the
output of the command is what is printed for the texts, one after the other.
-/

namespace ParserCombinators.CommandLine

open Expression

variable {options : Options} {environment : Environment Number} {text : String}
  {texts : List String} {tree other : Expression} {status : Nat}

/-! ## Trees and refusals -/

/-- The tree of the longest expression that the text begins with. -/
def BeginsWith (options : Options) (text : String) (tree : Expression) : Prop :=
  ∃ position, IsLongestPrefix (Document options.spaced) (.ofString text) tree position

inductive IsRefused (options : Options) (text : String) : Prop
  | unread : ¬HasPrefix (Document options.spaced) (.ofString text) → IsRefused options text
  | incomplete : options.complete = true →
      (∀ tree, ¬Document options.spaced text.toList tree) → IsRefused options text

theorem BeginsWith.unique (hfirst : BeginsWith options text tree)
    (hsecond : BeginsWith options text other) : tree = other := by
  obtain ⟨position, hfirst⟩ := hfirst
  obtain ⟨position', hsecond⟩ := hsecond
  have hsame := (parse_eq_success_iff.2 hfirst).symm.trans (parse_eq_success_iff.2 hsecond)
  rw [Outcome.success.injEq] at hsame
  exact hsame.1

/-- Whether the parser came to the end is whether the whole text is an expression, since no longer
prefix is one. -/
theorem shows_iff :
    Shows options text tree ↔ BeginsWith options text tree ∧ ¬IsRefused options text := by
  have hsize : (text.length : Int) = (Text.ofString text).size := by
    rw [Text.ofString, List.size_toArray, String.length_toList]
  constructor
  · rintro ⟨position, hparse, hcomplete⟩
    have hlongest := parse_eq_success_iff.1 hparse
    refine ⟨⟨position, hlongest⟩, fun hrefused ↦ ?_⟩
    cases hrefused with
    | unread hnone => exact hnone hlongest.hasPrefix
    | incomplete hwanted hnone =>
      exact hcomplete hwanted (hsize ▸ hlongest.lt_size_iff.2 hnone)
  · rintro ⟨⟨position, hlongest⟩, haccepted⟩
    refine ⟨position, parse_eq_success_iff.2 hlongest, fun hwanted hleft ↦ ?_⟩
    rw [hsize, hlongest.lt_size_iff] at hleft
    exact haccepted (.incomplete hwanted hleft)

theorem isRefused_iff : IsRefused options text ↔ ∀ tree, ¬Shows options text tree := by
  constructor
  · exact fun hrefused tree hshows ↦ (shows_iff.1 hshows).2 hrefused
  · intro hnone
    by_contra haccepted
    have hsome : HasPrefix (Document options.spaced) (.ofString text) :=
      by_contra fun hnone ↦ haccepted (.unread hnone)
    obtain ⟨tree, hbegins⟩ := hsome.exists_longest
    exact hnone tree (shows_iff.2 ⟨hbegins, haccepted⟩)

/-! ## The output for one text -/

/-- The line of a value; nothing if there is no value. -/
inductive ValueLine (environment : Environment Number) (tree : Expression) : String → Prop
  | undefined : IsUndefined environment tree → ValueLine environment tree ""
  | value {value : Number} {digits : String} : tree.evaluate environment = .ok value →
      value.text = .ok digits → ValueLine environment tree (" --> " ++ digits ++ "\n")

inductive Printed (options : Options) (environment : Environment Number) (text : String) :
    String → Prop
  | refused : IsRefused options text → Printed options environment text ""
  | plain {tree : Expression} {source : String} : ¬IsRefused options text →
      BeginsWith options text tree → tree.render = .ok source → options.evaluated = false →
      Printed options environment text (source ++ "\n")
  | valued {tree : Expression} {source line : String} : ¬IsRefused options text →
      BeginsWith options text tree → tree.render = .ok source → options.evaluated = true →
      ValueLine environment tree line → Printed options environment text (source ++ "\n" ++ line)

theorem IsUndefined.not_ok {value : Number} (hundefined : IsUndefined environment tree) :
    tree.evaluate environment ≠ .ok value := by
  intro hvalue
  cases hundefined with
  | unbound hevaluate => cases hevaluate.symm.trans hvalue
  | zero hevaluate => cases hevaluate.symm.trans hvalue
  | floatZero hevaluate => cases hevaluate.symm.trans hvalue

theorem rightUnique_valueLine : Relator.RightUnique (ValueLine environment) := by
  intro tree first second hfirst hsecond
  cases hfirst with
  | undefined hundefined =>
    cases hsecond with
    | undefined => rfl
    | value hvalue => exact absurd hvalue hundefined.not_ok
  | value hvalue hdigits =>
    cases hsecond with
    | undefined hundefined => exact absurd hvalue hundefined.not_ok
    | value hvalue' hdigits' =>
      obtain rfl := Except.ok.inj (hvalue.symm.trans hvalue')
      obtain rfl := Except.ok.inj (hdigits.symm.trans hdigits')
      rfl

theorem rightUnique_printed : Relator.RightUnique (Printed options environment) := by
  intro text first second hfirst hsecond
  cases hfirst with
  | refused hrefused =>
    cases hsecond with
    | refused => rfl
    | plain haccepted => exact absurd hrefused haccepted
    | valued haccepted => exact absurd hrefused haccepted
  | plain haccepted hbegins hrender hplain =>
    cases hsecond with
    | refused hrefused => exact absurd hrefused haccepted
    | plain _ hbegins' hrender' =>
      obtain rfl := hbegins.unique hbegins'
      rw [Except.ok.inj (hrender.symm.trans hrender')]
    | valued _ _ _ hevaluated => cases hplain.symm.trans hevaluated
  | valued haccepted hbegins hrender hevaluated hline =>
    cases hsecond with
    | refused hrefused => exact absurd hrefused haccepted
    | plain _ _ _ hplain => cases hplain.symm.trans hevaluated
    | valued _ hbegins' hrender' _ hline' =>
      obtain rfl := hbegins.unique hbegins'
      rw [Except.ok.inj (hrender.symm.trans hrender'), rightUnique_valueLine hline hline']

theorem valueLine_reportValue (hending : (reportValue tree environment).ending = .ok status) :
    ValueLine environment tree (reportValue tree environment).written.output := by
  rw [reportValue] at hending
  split at hending
  case h_1 value hvalue =>
    split at hending
    case h_1 digits hdigits =>
      simp only [reportValue, hvalue, hdigits]
      exact .value hvalue hdigits
    case h_2 => cases hending
  case h_2 name hevaluate =>
    simp only [reportValue, hevaluate]
    exact .undefined (.unbound hevaluate)
  case h_3 hevaluate =>
    simp only [reportValue, hevaluate]
    exact .undefined (.zero hevaluate)
  case h_4 hevaluate =>
    simp only [reportValue, hevaluate]
    exact .undefined (.floatZero hevaluate)
  case h_5 => cases hending

theorem printed_process (hending : (process options environment text).ending = .ok status) :
    Printed options environment text (process options environment text).written.output := by
  by_cases hrefused : IsRefused options text
  · obtain ⟨complaint, hprocess⟩ :=
      exists_process_of_unread (isRefused_iff.1 hrefused) environment
    rw [hprocess]
    exact .refused hrefused
  · obtain ⟨tree, hshows⟩ := not_forall_not.1 (isRefused_iff.not.1 hrefused)
    have hbegins := (shows_iff.1 hshows).1
    obtain ⟨note, hprocess⟩ := hshows.exists_process environment
    have houtput : (process options environment text).written.output =
        (reportTree options environment tree).written.output := by
      rw [hprocess]
      exact String.empty_append
    rw [hshows.process] at hending
    rw [houtput]
    cases hrender : tree.render with
    | ok source =>
      rw [reportTree_of_render hrender] at hending ⊢
      by_cases hevaluated : options.evaluated = true
      · rw [if_pos hevaluated] at hending ⊢
        exact .valued hrefused hbegins hrender hevaluated (valueLine_reportValue hending)
      · rw [if_neg hevaluated]
        change Printed options environment text (source ++ "\n" ++ "")
        rw [String.append_empty]
        exact .plain hrefused hbegins hrender (Bool.eq_false_iff.2 hevaluated)
    | error fault =>
      rw [reportTree, hrender] at hending
      cases hending

/-! ## Failures -/

/-- The text is refused, or its value is asked for and it has none. -/
inductive Fails (options : Options) (environment : Environment Number) (text : String) : Prop
  | refused : IsRefused options text → Fails options environment text
  | undefined {tree : Expression} : ¬IsRefused options text → BeginsWith options text tree →
      options.evaluated = true → IsUndefined environment tree → Fails options environment text

theorem isFaulty_iff_fails (hsurvives : ∀ fault, ¬IsFatal options environment text fault) :
    IsFaulty options environment text ↔ Fails options environment text := by
  constructor
  · intro hfaulty
    cases hfaulty with
    | unread hunread => exact .refused (isRefused_iff.2 hunread)
    | undefined hshows _ hevaluated hundefined =>
      obtain ⟨hbegins, haccepted⟩ := shows_iff.1 hshows
      exact .undefined haccepted hbegins hevaluated hundefined
  · intro hfails
    cases hfails with
    | refused hrefused => exact .unread (isRefused_iff.1 hrefused)
    | undefined haccepted hbegins hevaluated hundefined =>
      have hshows := shows_iff.2 ⟨hbegins, haccepted⟩
      exact .undefined hshows (fun n hmem hlong ↦ hsurvives _ (.constant hshows hmem hlong))
        hevaluated hundefined

/-! ## All texts -/

theorem output_writtenAbout (options : Options) (environment : Environment Number)
    (texts : List String) : (writtenAbout options environment texts).output =
      String.join (texts.map fun text ↦ (process options environment text).written.output) := by
  induction texts with
  | nil => rfl
  | cons text texts ih =>
    rw [List.map_cons, String.join_cons, ← ih]
    rfl

/-- Only a run that no text ends has a status. -/
theorem survives_of_processAll
    (hending : (processAll options environment texts).ending = .ok status) :
    ∀ text ∈ texts, ∀ fault, ¬IsFatal options environment text fault := by
  obtain hsurvives | ⟨before, text, after, fault, rfl, hbefore, hfatal⟩ :=
    exists_first_fatal options environment texts
  · exact hsurvives
  · rw [processAll_of_fatal hbefore hfatal] at hending
    cases hending

theorem status_of_processAll
    (hending : (processAll options environment texts).ending = .ok status) :
    (status = 1 ∧ ∃ text ∈ texts, Fails options environment text) ∨
      (status = 0 ∧ ∀ text ∈ texts, ¬Fails options environment text) := by
  have hsurvives := survives_of_processAll hending
  have hfails : (∃ text ∈ texts, IsFaulty options environment text) ↔
      ∃ text ∈ texts, Fails options environment text :=
    exists_congr fun text ↦ and_congr_right fun hmem ↦ isFaulty_iff_fails (hsurvives text hmem)
  obtain ⟨found, hle, hall, hstatus⟩ := processAll_of_survives hsurvives
  rw [hall] at hending
  obtain rfl : found = status := Except.ok.inj hending
  rw [hfails] at hstatus
  by_cases hany : ∃ text ∈ texts, Fails options environment text
  · exact .inl ⟨hstatus.2 hany, hany⟩
  · have hother : found ≠ 1 := fun hone ↦ hany (hstatus.1 hone)
    push Not at hany
    exact .inr ⟨by omega, hany⟩

theorem forall₂_printed (hending : (processAll options environment texts).ending = .ok status) :
    List.Forall₂ (Printed options environment) texts
      (texts.map fun text ↦ (process options environment text).written.output) := by
  rw [List.forall₂_map_right_iff, List.forall₂_same]
  intro text hmem
  cases htext : (process options environment text).ending with
  | ok status => exact printed_process htext
  | error fault =>
    exact absurd (process_error_iff.1 htext) (survives_of_processAll hending text hmem fault)

theorem output_processAll (hending : (processAll options environment texts).ending = .ok status) :
    (processAll options environment texts).written.output =
      String.join (texts.map fun text ↦ (process options environment text).written.output) := by
  obtain ⟨found, -, hall, -⟩ := processAll_of_survives (survives_of_processAll hending)
  rw [hall, output_writtenAbout]

/-- Every run that has a status returns one exactly if some text fails. It writes out what is
printed for the texts in their order, and for each text only one thing can be. -/
theorem runOptions_output (options : Options) (input : String) (status : Nat)
    (hending : (runOptions options input).ending = .ok status) :
    let environment : Environment Number := fun name ↦ options.bindings.reverse.lookup name
    let texts := options.givenTexts input
    (status = 1 ∧ (∃ text ∈ texts, Fails options environment text) ∨
      status = 0 ∧ ∀ text ∈ texts, ¬Fails options environment text) ∧
    (∃! outputs, List.Forall₂ (Printed options environment) texts outputs) ∧
    ∀ outputs, List.Forall₂ (Printed options environment) texts outputs →
      (runOptions options input).written.output = String.join outputs := by
  intro environment texts
  have hlast : Environment.ofBindings options.bindings = environment :=
    funext (Environment.ofBindings_apply options.bindings)
  have hrun : runOptions options input =
      .after (warningsOf options.bindings) (processAll options environment texts) := by
    rw [← hlast]
    rfl
  rw [hrun] at hending ⊢
  have hprinted := forall₂_printed hending
  have hunique : Relator.RightUnique (List.Forall₂ (Printed options environment)) :=
    rightUnique_printed.forall₂
  refine ⟨status_of_processAll hending,
    ⟨_, hprinted, fun outputs houtputs ↦ hunique houtputs hprinted⟩, fun outputs houtputs ↦ ?_⟩
  calc (warningsOf options.bindings).output ++ (processAll options environment texts).written.output
      = (processAll options environment texts).written.output := String.empty_append
    _ = String.join outputs := by rw [output_processAll hending, hunique houtputs hprinted]

/-- The last binding of the variable counts. The second text has a tree but no value, and the third
has no tree. -/
theorem runOptions_output_repeated :
    let options : Options := ⟨true, true, false, [("x", .integer 1), ("x", .integer 2)],
      ["x * 3)", "y", ")"]⟩
    let environment : Environment Number := fun name ↦ options.bindings.reverse.lookup name
    (runOptions options "").ending = .ok 1 ∧
    (∃ text ∈ ["x * 3)", "y", ")"], Fails options environment text) ∧
    ∃ outputs, List.Forall₂ (Printed options environment) ["x * 3)", "y", ")"] outputs ∧
      String.join outputs = "(x*3)\n --> 6\ny\n" := by
  intro options environment
  obtain ⟨hending, houtput⟩ : (runOptions options "").ending = .ok 1 ∧
      (runOptions options "").written.output = "(x*3)\n --> 6\ny\n" := by
    decide +kernel
  obtain ⟨⟨-, hfails⟩ | ⟨hzero, -⟩, ⟨outputs, hprinted, -⟩, hwritten⟩ :=
    runOptions_output options "" 1 hending
  · exact ⟨hending, hfails, outputs, hprinted, (hwritten outputs hprinted).symm.trans houtput⟩
  · cases hzero

end ParserCombinators.CommandLine
