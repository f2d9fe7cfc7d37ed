import ParserCombinators.Proofs.Expression.Grammar
import ParserCombinators.Proofs.Parser.Choosing

/-!
# What the expression parsers read is spelled by the rules

By induction on the depth of parentheses: a factor reads an inner expression only after an opening
parenthesis, so on fewer characters. The chains of the two levels have one proof.
-/

namespace ParserCombinators.Expression

open ParserCombinators.Parser

variable {κ ρ α : Type} {text : Text} {spaced : Bool} {left : List Char}

/-- The parser for each level. -/
def parserAt (spaced : Bool) : Level → Parser Unit Expression Expression
  | .expression => rule spaced
  | .term => term spaced
  | .factor => factor spaced

/-- The parser for the operators of each level. -/
def operatorsAt (spaced : Bool) :
    Level → Parser Unit Expression (Expression → Expression → Except Fault Expression)
  | .expression => .orElse (operatorToken spaced .add) (operatorToken spaced .subtract)
  | .term => .orElse (operatorToken spaced .multiply) (operatorToken spaced .divide)
  | .factor => .fail

theorem parserAt_eq_chainLeft {level : Level} (hlevel : level ≠ .factor) :
    parserAt spaced level =
      .chainLeft (parserAt spaced level.operand) (operatorsAt spaced level) := by
  cases level with
  | expression => rfl
  | term => rfl
  | factor => exact absurd rfl hlevel

/-- A symbol of the level with the gap after it, valued as the operation that it stands for. -/
def Operation (spaced : Bool) (level : Level) :
    Language (Expression → Expression → Except Fault Expression) := fun slice combine ↦
  ∃ operator gap, operator.level = level ∧ IsGap spaced gap ∧
    slice = operator.symbol :: gap ∧ combine = fun left right ↦ .ok (.operation left operator right)

theorem respects_token {rules : κ → Matcher ρ} {inner : Parser κ ρ α} {language : Language α}
    (hleft : left <:+ text.toList) (hinner : inner.Respects text rules language left) :
    (token spaced inner).Respects text rules (fun slice value ↦ ∃ body gap, slice = body ++ gap ∧
      language body value ∧ IsGap spaced gap) left := by
  cases spaced with
  | false => exact hinner.mono fun slice value _ hslice ↦
      ⟨slice, [], (List.append_nil slice).symm, hslice, isGap_nil false⟩
  | true =>
    refine (hinner.lexeme hleft).mono fun slice value _ ⟨body, gap, hslice, hbody, hgap⟩ ↦ ?_
    exact ⟨body, gap, hslice, hbody, fun c hc ↦ ⟨rfl, hgap c hc⟩⟩

/-- A symbol with the gap after it. -/
def Symbol (spaced : Bool) (symbol : Char) : Language Unit := fun slice _ ↦
  ∃ gap, slice = symbol :: gap ∧ IsGap spaced gap

theorem respects_symbol {rules : κ → Matcher ρ} (hleft : left <:+ text.toList) (symbol : Char) :
    (token spaced (.skipChar symbol)).Respects text rules (Symbol spaced symbol) left := by
  apply (respects_token hleft (respects_skipChar hleft)).mono
  rintro _ _ - ⟨_, gap, rfl, rfl, hgap⟩
  exact ⟨gap, rfl, hgap⟩

theorem respects_operatorToken {rules : Unit → Matcher Expression} (hleft : left <:+ text.toList)
    (operator : Operator) :
    (operatorToken spaced operator).Respects text rules (Operation spaced operator.level) left := by
  apply (respects_symbol hleft operator.symbol).map
  rintro _ _ ⟨gap, rfl, hgap⟩
  exact ⟨operator, gap, rfl, hgap, rfl, rfl⟩

theorem respects_operatorsAt {rules : Unit → Matcher Expression} (hleft : left <:+ text.toList)
    {level : Level} (hlevel : level ≠ .factor) :
    (operatorsAt spaced level).Respects text rules (Operation spaced level) left := by
  have hoperators (first second : Operator) (hfirst : first.level = level)
      (hsecond : second.level = level) :
      (Parser.orElse (operatorToken spaced first) (operatorToken spaced second)).Respects text rules
        (Operation spaced level) left := by
    apply respects_firstOf
    intro parser hparser
    obtain rfl | rfl : parser = operatorToken spaced first ∨
      parser = operatorToken spaced second := by simpa using hparser
    · exact hfirst ▸ respects_operatorToken hleft first
    · exact hsecond ▸ respects_operatorToken hleft second
  cases level with
  | expression => exact hoperators .add .subtract rfl rfl
  | term => exact hoperators .multiply .divide rfl rfl
  | factor => exact absurd rfl hlevel

/-- A chain of operands at one level is spelled at that level. -/
theorem spells_of_chain {level : Level} (hlevel : level ≠ .factor) {slice : List Char}
    {tree : Expression}
    (hchain : Language.Chain (Spells spaced level.operand) (Operation spaced level) slice tree) :
    Spells spaced level slice tree := by
  induction hchain with
  | single hoperand => exact .operand hlevel hoperand
  | pair _ hoperation hoperand hcombine ih =>
    obtain ⟨operator, gap, rfl, hgap, rfl, rfl⟩ := hoperation
    cases hcombine
    exact .operation operator ih hgap hoperand

theorem respects_factor {rules : Unit → Matcher Expression} (hleft : left <:+ text.toList)
    (hinner : ∀ rest, rest <:+ left → rest.length < left.length →
      (forwarding ()).Respects text rules (Spells spaced .expression) rest) :
    (factor spaced).Respects text rules (Spells spaced .factor) left := by
  have hparentheses : (Parser.between (token spaced (.skipChar '(')) (.forwarding ())
      (token spaced (.skipChar ')'))).Respects text rules (Spells spaced .factor) left := by
    have hbody : ∀ opening value rest, left = opening ++ rest → Symbol spaced '(' opening value →
        (forwarding ()).Respects text rules (Spells spaced .expression) rest := by
      rintro _ _ rest rfl ⟨gap, rfl, -⟩
      apply hinner rest (List.suffix_append ..)
      simp only [List.cons_append, List.length_cons, List.length_append]
      omega
    refine (respects_symbol hleft '(').between hbody
      (fun _ _ rest hsplit _ ↦ respects_symbol ?_ ')') ?_
    · exact Text.suffix_of_append hleft hsplit
    · rintro _ _ slice tree _ _ ⟨gap, rfl, hgap⟩ hslice ⟨gap', rfl, hgap'⟩
      exact .parentheses hgap hslice hgap'
  have hconstant : ((token spaced .integer).map fun value : Nat ↦ constant value).Respects text
      rules (Spells spaced .factor) left := by
    apply (respects_token hleft (respects_integer hleft)).map
    rintro _ _ ⟨digits, gap, rfl, ⟨hdigits, rfl⟩, hgap⟩
    exact .constant hdigits hgap
  have hidentifier : ((token spaced Parser.identifier).map identifier).Respects text rules
      (Spells spaced .factor) left := by
    apply (respects_token hleft (respects_identifier hleft)).map
    rintro _ _ ⟨letters, gap, rfl, ⟨hletters, rfl⟩, hgap⟩
    exact .identifier hletters hgap
  apply respects_firstOf
  intro parser hparser
  simp only [List.mem_cons, List.not_mem_nil, or_false] at hparser
  obtain rfl | rfl | rfl := hparser
  · exact hparentheses
  · exact hconstant
  · exact hidentifier

theorem respects_chain {rules : Unit → Matcher Expression} {level : Level}
    (hlevel : level ≠ .factor) (hleft : left <:+ text.toList)
    (hoperand : ∀ rest, rest <:+ left →
      (parserAt spaced level.operand).Respects text rules (Spells spaced level.operand) rest) :
    (parserAt spaced level).Respects text rules (Spells spaced level) left := by
  rw [parserAt_eq_chainLeft hlevel]
  refine (respects_chainLeft hoperand
    (fun rest hrest ↦ respects_operatorsAt (hrest.trans hleft) hlevel) ?_ ?_).mono
      fun slice tree _ hchain ↦ spells_of_chain hlevel hchain
  · rintro _ _ ⟨operator, gap, -, -, rfl, -⟩
    exact List.cons_ne_nil _ _
  · rintro _ _ ⟨operator, gap, -, -, -, rfl⟩ first second
    exact ⟨_, rfl⟩

/-- The three levels together, given what an inner expression reads on fewer characters. -/
theorem respects_level {rules : Unit → Matcher Expression} (hleft : left <:+ text.toList)
    (hinner : ∀ rest, rest <:+ left → rest.length < left.length →
      (forwarding ()).Respects text rules (Spells spaced .expression) rest) (level : Level) :
    (parserAt spaced level).Respects text rules (Spells spaced level) left := by
  have hfactor : ∀ rest, rest <:+ left →
      (parserAt spaced .factor).Respects text rules (Spells spaced .factor) rest := by
    intro rest hrest
    apply respects_factor (hrest.trans hleft)
    intro rest' hrest' hshorter
    exact hinner rest' (hrest'.trans hrest) (hshorter.trans_le hrest.length_le)
  have hterm : ∀ rest, rest <:+ left →
      (parserAt spaced .term).Respects text rules (Spells spaced .term) rest := by
    intro rest hrest
    exact respects_chain (by decide) (hrest.trans hleft) fun rest' hrest' ↦
      hfactor rest' (hrest'.trans hrest)
  cases level with
  | expression => exact respects_chain (by decide) hleft hterm
  | term => exact hterm left List.suffix_rfl
  | factor => exact hfactor left List.suffix_rfl

theorem respects_parserAt {depth : Nat} (hleft : left <:+ text.toList)
    (hdepth : left.length ≤ depth) (level : Level) :
    (parserAt spaced level).Respects text ((rule spaced).nested text depth) (Spells spaced level)
      left := by
  induction depth generalizing left level with
  | zero =>
    refine respects_level hleft (fun rest _ hshorter ↦ ?_) level
    omega
  | succ depth ih =>
    refine respects_level hleft (fun rest hrest hshorter ↦ ?_) level
    exact respects_forwarding_succ.2 (ih (hrest.trans hleft) (by omega) .expression)

theorem respects_grammar {rules : κ → Matcher ρ} (hleft : left <:+ text.toList) :
    (grammar spaced).Respects text rules (Document spaced) left := by
  have hrecursive {left : List Char} (hleft : left <:+ text.toList) :
      (recursive (rule spaced) : Parser κ ρ Expression).Respects text rules
        (Spells spaced .expression) left :=
    respects_recursive.2 (respects_parserAt hleft le_rfl .expression)
  cases spaced with
  | false =>
    exact (hrecursive hleft).mono fun slice tree _ hspells ↦
      ⟨[], slice, rfl, isGap_nil false, hspells⟩
  | true =>
    refine (respects_blanks hleft).keepRight (fun slice _ rest hsplit _ ↦ hrecursive
      (Text.suffix_of_append hleft hsplit)) fun gap _ body tree hgap hbody ↦ ?_
    exact ⟨gap, body, rfl, fun c hc ↦ ⟨rfl, hgap c hc⟩, hbody⟩

end ParserCombinators.Expression
