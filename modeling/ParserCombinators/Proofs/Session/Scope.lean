import ParserCombinators.Proofs.Session.Faults
import ParserCombinators.Session.Basic

/-!
# The scope of a session

What a recipe builds is within the scope of the parsers that it names, and each ready-made grammar
refers to nothing but itself. So every parser of a session, and every rule in a cell, refers only to
cells that the session has made.
-/

namespace ParserCombinators

variable {κ ρ : Type} {known : κ → Prop}

/-! ## Ready-made grammars -/

namespace Expression

@[simp]
theorem isWithin_token {α : Type} (spaced : Bool) {inner : Parser κ ρ α} :
    (token spaced inner).IsWithin known ↔ inner.IsWithin known := by
  cases spaced <;> simp [token]

@[simp]
theorem isWithin_operatorToken (spaced : Bool) (operator : Operator) :
    (operatorToken spaced operator : Parser κ ρ _).IsWithin known := by
  simp [operatorToken]

/-- To put two expressions together is never a fault. -/
theorem exists_ok_of_yields {spaced : Bool} {operator operator' : Operator}
    {combine : Expression → Expression → Except Fault Expression}
    (hyields : (.orElse (operatorToken spaced operator) (operatorToken spaced operator') :
      Parser κ ρ _).Yields combine) (left right : Expression) :
    ∃ tree, combine left right = .ok tree := by
  obtain hyields | hyields := hyields.of_orElse
  all_goals
    obtain ⟨_, rfl⟩ := hyields.of_map
    exact ⟨_, rfl⟩

@[simp]
theorem isWithin_grammar (spaced : Bool) :
    (grammar spaced : Parser κ ρ Expression).IsWithin known := by
  have hchain {operand : Parser Unit Expression Expression} {operator operator' : Operator}
      (hoperand : operand.IsWithin fun _ ↦ True) :
      (Parser.chainLeft operand (.orElse (operatorToken spaced operator)
        (operatorToken spaced operator'))).IsWithin fun _ ↦ True := by
    refine Parser.isWithin_chainLeft hoperand (by simp) fun combine hyields left right ↦ ?_
    obtain ⟨tree, htree⟩ := exists_ok_of_yields hyields left right
    rw [htree]
    exact faultIsOrdinary_ok tree
  have hfactor : (factor spaced).IsWithin fun _ ↦ True := by simp [factor]
  have hrule : (rule spaced).IsWithin fun _ ↦ True := hchain (hchain hfactor)
  cases spaced <;> simpa [grammar] using hrule

end Expression

namespace Introduction

@[simp]
theorem isWithin_keyValue : (keyValue : Parser κ ρ _).IsWithin known := by
  simp [keyValue]

end Introduction

namespace Json

@[simp]
theorem isWithin_punctuation (c : Char) : (punctuation c : Parser κ ρ Unit).IsWithin known := by
  simp [punctuation]

@[simp]
theorem isWithin_reserved (word : String) : (reserved word : Parser κ ρ Value).IsWithin known := by
  simp [reserved, faultIsOrdinary_reservedValue]

@[simp]
theorem isWithin_digits : (digits : Parser κ ρ (List Char)).IsWithin known := by
  simp [digits, Parser.digit]

@[simp]
theorem isWithin_fraction : (fraction : Parser κ ρ (List Char)).IsWithin known := by
  simp [fraction]

@[simp]
theorem isWithin_exponent : (exponent : Parser κ ρ (List Char)).IsWithin known := by
  simp [exponent, optional, single]

@[simp]
theorem isWithin_numberText : (numberText : Parser κ ρ (List Char)).IsWithin known := by
  simp [numberText, optional, single]

@[simp]
theorem isWithin_number : (number : Parser κ ρ Number).IsWithin known := by
  simp [number, faultIsOrdinary_numberValue]

@[simp]
theorem isWithin_hexDigits (read : List Char) (wanted : Nat) :
    (hexDigits read wanted : Script κ ρ CodePoints).IsWithin known := by
  induction wanted generalizing read with
  | zero => simp [hexDigits, faultIsOrdinary_hexPoint]
  | succ wanted ih => simp [hexDigits, hexDigit, ih]

@[simp]
theorem isWithin_unicodeEscape : (unicodeEscape : Parser κ ρ CodePoints).IsWithin known := by
  simp [unicodeEscape]

@[simp]
theorem isWithin_simpleEscape : (simpleEscape : Parser κ ρ CodePoints).IsWithin known := by
  simp [simpleEscape, faultIsOrdinary_escapedChar]

@[simp]
theorem isWithin_plain : (plain : Parser κ ρ CodePoints).IsWithin known := by
  simp [plain]

@[simp]
theorem isWithin_string : (string : Parser κ ρ CodePoints).IsWithin known := by
  simp [string]

section Containers

variable {α β : Type} {item : Parser κ ρ α} {separator : Parser κ ρ β} {inner : Parser κ ρ Value}

theorem isWithin_separatedBy (hitem : item.IsWithin known) (hseparator : separator.IsWithin known) :
    (separatedBy item separator).IsWithin known := by
  simp [separatedBy, hitem, hseparator]

theorem isWithin_array (hinner : inner.IsWithin known) : (array inner).IsWithin known := by
  simp [array, isWithin_separatedBy hinner]

theorem isWithin_member (hinner : inner.IsWithin known) : (member inner).IsWithin known := by
  simpa [member] using hinner

theorem isWithin_object (hinner : inner.IsWithin known) : (object inner).IsWithin known := by
  simp [object, isWithin_separatedBy (isWithin_member hinner)]

end Containers

@[simp]
theorem isWithin_value : (value : Parser κ ρ Value).IsWithin known := by
  simp [value, valueRule, isWithin_object, isWithin_array]

end Json

namespace Session

variable {known known' : Cell → Prop}

theorem ReadyMade.isWithin_build (parser : ReadyMade) : parser.build.IsWithin known := by
  cases parser with
  | expression spaced => simp [build]
  | _ => simp [build, Parser.digit, Parser.letter, Parser.blank, Parser.blanks,
      Introduction.sumOfTwo, Introduction.keyValues, Json.hexDigit, Json.document,
      Json.isWithin_array, Json.isWithin_member, Json.isWithin_object]

/-! ## What recipes build -/

theorem isWithin_character {points : CodePoints} {parser : AnyParser}
    (hbuilt : character points = .ok parser) : parser.IsWithin known := by
  unfold character at hbuilt
  repeat' split at hbuilt
  all_goals cases hbuilt
  · simp
  · simp

theorem isWithin_chain {term operator : AnyParser} (hterm : term.IsWithin known)
    (hoperator : operator.IsWithin known) : (chain term operator).IsWithin known := by
  refine Parser.isWithin_chainLeft hterm (by simpa) fun combine hyields ↦ ?_
  obtain ⟨value, rfl⟩ := hyields.of_map
  exact faultIsOrdinary_combining value

theorem isWithin_joinedText {inner : AnyParser} (hinner : inner.IsWithin known) :
    (joinedText inner).IsWithin known := by
  simpa [joinedText, Function.faultIsOrdinary_joined] using hinner

theorem isWithin_countedItems (read : List Value) (wanted : Nat) :
    (countedItems read wanted).IsWithin known := by
  induction wanted generalizing read with
  | zero => simp [countedItems]
  | succ wanted ih => simp [countedItems, ih]

theorem isWithin_counted (value : Value) : (counted value).IsWithin known := by
  unfold counted
  split
  · rw [Parser.isWithin_sequence]
    apply isWithin_countedItems
  · simp [Fault.IsOrdinary]

theorem isWithin_sameCharacter (value : Value) : (sameCharacter value).IsWithin known := by
  unfold sameCharacter
  repeat' split
  · exact isWithin_character ‹_›
  · next herror =>
      unfold character at herror
      repeat' split at herror
      all_goals cases herror
      simp [Fault.IsOrdinary]
  all_goals simp [Fault.IsOrdinary]

theorem isWithin_script (finish : Finish) {steps : List (Option Skip × AnyParser)}
    (hsteps : ∀ step ∈ steps, step.2.IsWithin known) (read : List Value) :
    (script finish steps read).IsWithin known := by
  induction steps generalizing read with
  | nil => simpa [script] using finish.faultIsOrdinary_apply read
  | cons step rest ih =>
    obtain ⟨hfirst, hrest⟩ := List.forall_mem_cons.1 hsteps
    obtain ⟨_ | skip, parser⟩ := step
    · simpa [script] using ⟨hfirst, fun value ↦ ih hrest _⟩
    · simp only [script]
      split
      · exact ih hrest read
      · simpa using ⟨hfirst, fun value ↦ ih hrest _⟩
      · next fault herror => simpa using skip.faultIsOrdinary_holds read fault herror

theorem isWithin_lookUp {entries : List (String × AnyParser)}
    (hentries : ∀ entry ∈ entries, entry.2.IsWithin known) (value : Value) :
    (lookUp entries value).IsWithin known := by
  unfold lookUp
  repeat' split
  · next hfound => exact hentries _ (List.mem_of_find?_eq_some hfound)
  all_goals simp [Fault.IsOrdinary]

/-- What is built, if it can be built, has the property. -/
def Builds {α : Type 1} (property : α → Prop) (result : Except Fault α) : Prop :=
  ∀ value, result = .ok value → property value

section Builds

variable {α β : Type 1} {property : α → Prop} {property' : β → Prop} {result : Except Fault α}

theorem builds_ok {value : α} (hvalue : property value) : Builds property (.ok value) := by
  rintro _ ⟨⟩
  exact hvalue

theorem Builds.bind {next : α → Except Fault β} (hresult : Builds property result)
    (hnext : ∀ value, property value → Builds property' (next value)) :
    Builds property' (result >>= next) := by
  cases result with
  | ok value => exact hnext value (hresult value rfl)
  | error fault => exact fun _ ↦ nofun

theorem Builds.map {f : α → β} (hresult : Builds property result)
    (hf : ∀ value, property value → property' (f value)) : Builds property' (result.map f) := by
  cases result with
  | ok value => exact builds_ok (hf value (hresult value rfl))
  | error fault => exact fun _ ↦ nofun

end Builds

theorem builds_skipCharacter (points : CodePoints) :
    Builds (·.IsWithin known) (skipCharacter points) :=
  Builds.map (fun _ ↦ isWithin_character) fun _ hparser ↦ by simpa

variable {names : String → Except Fault AnyParser}

mutual

/-- A recipe stays within the scope of the parsers that have names. -/
theorem builds_recipe (hnames : ∀ name, Builds (·.IsWithin known) (names name)) :
    (recipe : Recipe) → Builds (·.IsWithin known) (recipe.build names)
  | .readyMade parser => builds_ok parser.isWithin_build
  | .named name => hnames name
  | .fail => builds_ok (by simp)
  | .succeed value => builds_ok (by simp)
  | .satisfy test => builds_ok (by simp)
  | .character text => fun _ ↦ isWithin_character
  | .skipCharacter text => builds_skipCharacter text
  | .punctuation text => (builds_skipCharacter text).map fun _ hparser ↦ by simpa
  | .literal text => builds_ok (by simp)
  | .reserved word => builds_ok (by simp)
  | .choice alternatives =>
    (builds_all hnames alternatives).bind fun
      | [], _ => fun _ ↦ nofun
      | _ :: _, hparsers => builds_ok (by simpa using hparsers)
  | .keepRight first second =>
    (builds_recipe hnames first).bind fun _ hfirst ↦
      (builds_recipe hnames second).bind fun _ hsecond ↦ builds_ok (by simp [hfirst, hsecond])
  | .keepLeft first second =>
    (builds_recipe hnames first).bind fun _ hfirst ↦
      (builds_recipe hnames second).bind fun _ hsecond ↦ builds_ok (by simp [hfirst, hsecond])
  | .pair first second =>
    (builds_recipe hnames first).bind fun _ hfirst ↦
      (builds_recipe hnames second).bind fun _ hsecond ↦ builds_ok (by simp [hfirst, hsecond])
  | .between opening inner closing =>
    (builds_recipe hnames opening).bind fun _ hopening ↦
      (builds_recipe hnames inner).bind fun _ hinner ↦
        (builds_recipe hnames closing).bind fun _ hclosing ↦
          builds_ok (by simp [hopening, hinner, hclosing])
  | .many inner =>
    (builds_recipe hnames inner).bind fun _ hinner ↦ builds_ok (by simpa [items] using hinner)
  | .many1 inner =>
    (builds_recipe hnames inner).bind fun _ hinner ↦ builds_ok (by simpa [items] using hinner)
  | .chainLeft term operator =>
    (builds_recipe hnames term).bind fun _ hterm ↦
      (builds_recipe hnames operator).bind fun _ hoperator ↦
        builds_ok (isWithin_chain hterm hoperator)
  | .stringOf inner =>
    (builds_recipe hnames inner).bind fun _ hinner ↦ builds_ok (isWithin_joinedText hinner)
  | .lexeme inner =>
    (builds_recipe hnames inner).bind fun _ hinner ↦ builds_ok (by simpa)
  | .skipBlanks inner =>
    (builds_recipe hnames inner).bind fun _ hinner ↦ builds_ok (by simpa)
  | .optional inner =>
    (builds_recipe hnames inner).bind fun _ hinner ↦ builds_ok (by simpa)
  | .separatedBy item separator =>
    (builds_recipe hnames item).bind fun _ hitem ↦
      (builds_recipe hnames separator).bind fun _ hseparator ↦
        builds_ok (by simpa [items] using Json.isWithin_separatedBy hitem hseparator)
  | .convert inner function =>
    (builds_recipe hnames inner).bind fun _ hinner ↦
      builds_ok (by simpa [function.faultIsOrdinary_apply] using hinner)
  | .bind first next =>
    (builds_recipe hnames first).bind fun _ hfirst ↦
      (builds_continuation hnames next).bind fun _ hnext ↦
        builds_ok (Parser.isWithin_bind.2 ⟨hfirst, hnext⟩)
  | .trace tag inner =>
    (builds_recipe hnames inner).bind fun _ hinner ↦ builds_ok (by simpa)
  | .sequence steps finish label =>
    (builds_steps hnames steps).bind fun _ hsteps ↦
      builds_ok (by simpa using isWithin_script finish hsteps [])

theorem builds_continuation (hnames : ∀ name, Builds (·.IsWithin known) (names name)) :
    (next : Continuation) →
      Builds (fun parser ↦ ∀ value, (parser value).IsWithin known) (next.build names)
  | .same => builds_ok isWithin_sameCharacter
  | .succeed => builds_ok (by simp)
  | .fail => builds_ok (by simp)
  | .count => builds_ok isWithin_counted
  | .always recipe =>
    (builds_recipe hnames recipe).bind fun _ hparser ↦ builds_ok fun _ ↦ hparser
  | .table entries =>
    (builds_table hnames entries).bind fun _ hentries ↦ builds_ok (isWithin_lookUp hentries)

theorem builds_all (hnames : ∀ name, Builds (·.IsWithin known) (names name)) :
    (recipes : List Recipe) →
      Builds (fun parsers ↦ ∀ parser ∈ parsers, parser.IsWithin known) (buildAll names recipes)
  | [] => builds_ok (by simp)
  | recipe :: rest =>
    (builds_recipe hnames recipe).bind fun _ hparser ↦
      (builds_all hnames rest).bind fun _ hrest ↦
        builds_ok (List.forall_mem_cons.2 ⟨hparser, hrest⟩)

theorem builds_steps (hnames : ∀ name, Builds (·.IsWithin known) (names name)) :
    (steps : List (Option Skip × Recipe)) →
      Builds (fun built ↦ ∀ step ∈ built, step.2.IsWithin known) (buildSteps names steps)
  | [] => builds_ok (by simp)
  | (_, recipe) :: rest =>
    (builds_recipe hnames recipe).bind fun _ hparser ↦
      (builds_steps hnames rest).bind fun _ hrest ↦
        builds_ok (List.forall_mem_cons.2 ⟨hparser, hrest⟩)

theorem builds_table (hnames : ∀ name, Builds (·.IsWithin known) (names name)) :
    (entries : List (String × Recipe)) →
      Builds (fun built ↦ ∀ entry ∈ built, entry.2.IsWithin known) (buildTable names entries)
  | [] => builds_ok (by simp)
  | (_, recipe) :: rest =>
    (builds_recipe hnames recipe).bind fun _ hparser ↦
      (builds_table hnames rest).bind fun _ hrest ↦
        builds_ok (List.forall_mem_cons.2 ⟨hparser, hrest⟩)

end

end Session

end ParserCombinators
