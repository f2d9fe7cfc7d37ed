import ParserCombinators.Parser.Lexical
import ParserCombinators.Proofs.Parser.Comparison
import ParserCombinators.Proofs.Parser.Reading

/-!
# What parsers refer to

A parser is within its scope when it refers only to rules that are known, and never by itself raises
the fault that stands for an empty cell. Both are decided part by part, so there is an equivalence
for each way of putting parsers together.
-/

namespace ParserCombinators

variable {κ ρ τ α β γ : Type}

/-- Only an empty cell raises any other fault. -/
def Fault.IsOrdinary (fault : Fault) : Prop := ∀ label, fault ≠ .unassignedReference label

def Source.IsWithin (known : κ → Prop) : Source κ → Prop
  | .rule name => known name
  | .fault raised => raised.IsOrdinary

/-! ## Results -/

def FaultIsOrdinary (result : Except Fault α) : Prop :=
  ∀ fault, result = .error fault → fault.IsOrdinary

@[simp]
theorem faultIsOrdinary_ok (value : α) : FaultIsOrdinary (.ok value) := nofun

@[simp]
theorem faultIsOrdinary_error (fault : Fault) :
    FaultIsOrdinary (.error fault : Except Fault α) ↔ fault.IsOrdinary := by
  simp [FaultIsOrdinary]

@[simp]
theorem faultIsOrdinary_map (f : α → β) (result : Except Fault α) :
    FaultIsOrdinary (result.map f) ↔ FaultIsOrdinary result := by
  cases result <;> simp [Except.map]

/-! ## Parsers -/

section Quantifiers

variable {p q r : α → Prop} {s : β → α → Prop}

theorem forall_or_imp_iff : (∀ a, p a ∨ q a → r a) ↔ (∀ a, p a → r a) ∧ ∀ a, q a → r a :=
  (forall_congr' fun _ ↦ or_imp).trans forall_and

theorem forall_exists_imp_iff : (∀ a, (∃ b, s b a) → r a) ↔ ∀ b a, s b a → r a :=
  ⟨fun h b a hs ↦ h a ⟨b, hs⟩, fun h a ⟨b, hs⟩ ↦ h b a hs⟩

end Quantifiers

/-- Faults are given one by one where parsers draw on the faults of a result. -/
theorem faultIsOrdinary_iff (known : κ → Prop) (result : Except Fault α) :
    FaultIsOrdinary result ↔ ∀ source : Source κ,
      (∃ fault, result = .error fault ∧ source = .fault fault) → source.IsWithin known := by
  constructor
  · rintro hresult _ ⟨fault, herror, rfl⟩
    exact hresult fault herror
  · intro hresult fault herror
    exact hresult (.fault fault) ⟨fault, herror, rfl⟩

def Parser.IsWithin (known : κ → Prop) (parser : Parser κ ρ α) : Prop :=
  ∀ source, parser.DrawsOn source → source.IsWithin known

def Script.IsWithin (known : κ → Prop) (script : Script κ ρ α) : Prop :=
  ∀ source, script.DrawsOn source → source.IsWithin known

namespace Parser

variable {known known' : κ → Prop}
variable {first : Parser κ ρ α} {second : Parser κ ρ β} {third : Parser κ ρ γ}

theorem IsWithin.mono (hfirst : first.IsWithin known) (hknown : ∀ name, known name → known' name) :
    first.IsWithin known'
  | .rule name, hname => hknown name (hfirst _ hname)
  | .fault fault, hfault => hfirst (.fault fault) hfault

@[simp]
theorem isWithin_item : (item : Parser κ ρ Char).IsWithin known := nofun

@[simp]
theorem isWithin_succeed (value : α) : (succeed value : Parser κ ρ α).IsWithin known := nofun

@[simp]
theorem isWithin_fail : (fail : Parser κ ρ α).IsWithin known := nofun

@[simp]
theorem isWithin_raise (fault : Fault) :
    (raise fault : Parser κ ρ α).IsWithin known ↔ fault.IsOrdinary := forall_eq

@[simp]
theorem isWithin_satisfy (accepts : Char → Bool) :
    (satisfy accepts : Parser κ ρ Char).IsWithin known := nofun

@[simp]
theorem isWithin_bind {next : α → Parser κ ρ β} :
    (bind first next).IsWithin known ↔
      first.IsWithin known ∧ ∀ value, (next value).IsWithin known :=
  forall_or_imp_iff.trans (and_congr_right' forall_exists_imp_iff)

@[simp]
theorem isWithin_convert {f : α → Except Fault β} :
    (convert first f).IsWithin known ↔
      first.IsWithin known ∧ ∀ value, FaultIsOrdinary (f value) := by
  refine forall_or_imp_iff.trans (and_congr_right' (forall_exists_imp_iff.trans ?_))
  exact forall_congr' fun value ↦ (faultIsOrdinary_iff known (f value)).symm

@[simp]
theorem isWithin_map {f : α → β} : (map f first).IsWithin known ↔ first.IsWithin known := by
  simp [map]

@[simp]
theorem isWithin_choice {others : Nat} {alternatives : Fin (others + 1) → Parser κ ρ α} :
    (choice others alternatives).IsWithin known ↔
      ∀ index, (alternatives index).IsWithin known := forall_exists_imp_iff

theorem drawsOn_firstOf {others : List (Parser κ ρ α)} {source : Source κ} :
    (firstOf first others).DrawsOn source ↔
      ∃ parser ∈ first :: others, parser.DrawsOn source := by
  constructor
  · rintro ⟨index, hindex⟩
    exact ⟨_, List.get_mem (first :: others) index, hindex⟩
  · rintro ⟨parser, hmem, hparser⟩
    obtain ⟨index, rfl⟩ := List.get_of_mem hmem
    exact ⟨index, hparser⟩

@[simp]
theorem isWithin_firstOf {others : List (Parser κ ρ α)} :
    (firstOf first others).IsWithin known ↔
      first.IsWithin known ∧ ∀ other ∈ others, other.IsWithin known := by
  rw [firstOf, isWithin_choice, Fin.forall_fin_succ]
  simp [List.forall_mem_iff_forall_getElem, Fin.forall_iff]

@[simp]
theorem isWithin_orElse {other : Parser κ ρ α} :
    (orElse first other).IsWithin known ↔ first.IsWithin known ∧ other.IsWithin known := by
  simp [orElse]

@[simp]
theorem isWithin_keepRight :
    (keepRight first second).IsWithin known ↔ first.IsWithin known ∧ second.IsWithin known :=
  forall_or_imp_iff

@[simp]
theorem isWithin_keepLeft :
    (keepLeft first second).IsWithin known ↔ first.IsWithin known ∧ second.IsWithin known :=
  forall_or_imp_iff

@[simp]
theorem isWithin_pair :
    (pair first second).IsWithin known ↔ first.IsWithin known ∧ second.IsWithin known :=
  forall_or_imp_iff

@[simp]
theorem isWithin_between :
    (between first second third).IsWithin known ↔
      first.IsWithin known ∧ second.IsWithin known ∧ third.IsWithin known :=
  forall_or_imp_iff.trans (and_congr_right' forall_or_imp_iff)

@[simp]
theorem isWithin_many : (many first).IsWithin known ↔ first.IsWithin known := Iff.rfl

@[simp]
theorem isWithin_many1 : (many1 first).IsWithin known ↔ first.IsWithin known := Iff.rfl

/-- The functions that the operator yields must not raise the fault of an empty cell either. -/
theorem isWithin_chainLeft {operator : Parser κ ρ (α → α → Except Fault α)}
    (hfirst : first.IsWithin known) (hoperator : operator.IsWithin known)
    (hcombine : ∀ combine, operator.Yields combine → ∀ left right,
      FaultIsOrdinary (combine left right)) :
    (chainLeft first operator).IsWithin known := by
  rintro source (hsource | hsource | ⟨combine, left, right, fault, hyields, herror, rfl⟩)
  · exact hfirst source hsource
  · exact hoperator source hsource
  · exact hcombine combine hyields left right fault herror

@[simp]
theorem isWithin_sequence {script : Script κ ρ α} {label : Option String} :
    (sequence label script).IsWithin known ↔ script.IsWithin known := Iff.rfl

@[simp]
theorem isWithin_trace {tag : String} :
    (trace tag first).IsWithin known ↔ first.IsWithin known := Iff.rfl

@[simp]
theorem isWithin_forwarding {name : κ} :
    (forwarding name : Parser κ ρ ρ).IsWithin known ↔ known name := forall_eq

@[simp]
theorem isWithin_recursive {rule : Parser Unit τ τ} :
    (recursive rule : Parser κ ρ τ).IsWithin known ↔ rule.IsWithin fun _ ↦ True := by
  constructor
  · rintro hrule (name | fault) hsource
    · trivial
    · exact hrule (.fault fault) ⟨fault, hsource, rfl⟩
  · rintro hrule source ⟨fault, hsource, rfl⟩
    exact hrule (.fault fault) hsource

end Parser

namespace Script

variable {known : κ → Prop}

@[simp]
theorem isWithin_finish {value : Except Fault α} :
    (finish value : Script κ ρ α).IsWithin known ↔ FaultIsOrdinary value :=
  (faultIsOrdinary_iff known value).symm

@[simp]
theorem isWithin_raise (fault : Fault) :
    (raise fault : Script κ ρ α).IsWithin known ↔ fault.IsOrdinary := forall_eq

@[simp]
theorem isWithin_step {first : Parser κ ρ α} {next : α → Script κ ρ β} :
    (step first next).IsWithin known ↔
      first.IsWithin known ∧ ∀ value, (next value).IsWithin known :=
  forall_or_imp_iff.trans (and_congr_right' forall_exists_imp_iff)

end Script

/-! ## Values of parsers -/

namespace Parser

variable {first other : Parser κ ρ α} {value : α}

theorem Yields.of_map {f : α → β} {converted : β} (hyields : (map f first).Yields converted) :
    ∃ value, converted = f value := by
  obtain ⟨text, rules, position, stop, hrun⟩ := hyields
  rw [map, matcher, Matcher.convert, Run.outcome_andThen_eq_success] at hrun
  obtain ⟨value, middle, -, hvalue⟩ := hrun
  exact ⟨value, (Outcome.success.inj hvalue).1.symm⟩

theorem Yields.of_orElse (hyields : (orElse first other).Yields value) :
    first.Yields value ∨ other.Yields value := by
  obtain ⟨text, rules, position, stop, hrun⟩ := hyields
  have hbranch : ((first.matcher text rules position).branch Run.succeeded fun _ ↦
      (other.matcher text rules position).branch Run.succeeded fun _ ↦ Run.failed).outcome =
        .success value stop := hrun
  simp only [Run.outcome_branch_eq_success] at hbranch
  obtain ⟨found, middle, hfirst, hfound⟩ | ⟨-, ⟨found, middle, hother, hfound⟩ | hnone⟩ := hbranch
  · obtain ⟨rfl, rfl⟩ := Outcome.success.inj hfound
    exact .inl ⟨text, rules, position, middle, hfirst⟩
  · obtain ⟨rfl, rfl⟩ := Outcome.success.inj hfound
    exact .inr ⟨text, rules, position, middle, hother⟩
  · exact absurd hnone.2 nofun

end Parser

/-! ## Characters and tokens -/

namespace Parser

variable {known : κ → Prop}

@[simp]
theorem isWithin_char (c : Char) : (char c : Parser κ ρ Char).IsWithin known := by
  simp [char]

@[simp]
theorem isWithin_skipChar (c : Char) : (skipChar c : Parser κ ρ Unit).IsWithin known := by
  simp [skipChar]

@[simp]
theorem isWithin_spelling (value : α) (characters : List Char) :
    (spelling value characters : Script κ ρ α).IsWithin known := by
  induction characters with
  | nil => simp [spelling]
  | cons c rest ih => simpa [spelling] using ih

@[simp]
theorem isWithin_literal (expected : String) :
    (literal expected : Parser κ ρ String).IsWithin known := by
  simp [literal]

@[simp]
theorem isWithin_stringOf {inner : Parser κ ρ Char} :
    (stringOf inner).IsWithin known ↔ inner.IsWithin known := by
  simp [stringOf]

@[simp]
theorem isWithin_lexeme {inner : Parser κ ρ α} :
    (lexeme inner).IsWithin known ↔ inner.IsWithin known := by
  simp [lexeme, blanks, blank]

@[simp]
theorem isWithin_skipBlanks {inner : Parser κ ρ α} :
    (skipBlanks inner).IsWithin known ↔ inner.IsWithin known := by
  simp [skipBlanks, blanks, blank]

@[simp]
theorem isWithin_integer : (integer : Parser κ ρ Nat).IsWithin known := by
  simp [integer, digit]

@[simp]
theorem isWithin_identifier : (identifier : Parser κ ρ String).IsWithin known := by
  simp [identifier, letter]

end Parser

end ParserCombinators
