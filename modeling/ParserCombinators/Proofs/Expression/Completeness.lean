import Mathlib.Data.List.Basic
import ParserCombinators.Proofs.Expression.Soundness

/-!
# What the rules spell is read

A slice is read as a whole wherever nothing that follows belongs to it: the next character does not
join the last token, it is no blank that the last gap could take, and no operator with an operand
follows. The induction is on the rules, and it lets the pairs that come after a slice go on, because
a chain is built from its left end and read from there, too.
-/

namespace ParserCombinators.Expression

open Character
open ParserCombinators.Parser

variable {κ ρ α : Type} {text : Text} {spaced : Bool} {level : Level} {tree value : Expression}
  {slice gap left rest final : List Char} {depth : Nat}

/-- Whether two neighbours belong to one token. -/
def joins (a b : Char) : Bool := isDigit a && isDigit b || isLetter a && isLetter b

/-- Neither the last token nor the last gap of the slice goes on in the rest. -/
structure Detached (spaced : Bool) (slice rest : List Char) : Prop where
  token : ∀ a ∈ slice.getLast?, ∀ b ∈ rest.head?, joins a b = false
  gap : spaced = true → ∀ b ∈ rest.head?, isBlank b = false

/-- The rest does not start with an operator of the level and an operand for it. -/
def NoPair (spaced : Bool) (level : Level) (rest : List Char) : Prop :=
  ∀ (operator : Operator) gap slice rest' tree, operator.level = level → IsGap spaced gap →
    rest = operator.symbol :: (gap ++ (slice ++ rest')) → ¬Spells spaced level.operand slice tree

/-- How reading goes on after a slice of the level: with the pairs of a chain, or not at all after a
factor. -/
def Resumes (text : Text) (rules : Unit → Matcher Expression) (spaced : Bool) (level : Level)
    (tree : Expression) (left : List Char) (value : Expression) (rest : List Char) : Prop :=
  if level = .factor then value = tree ∧ rest = left
  else Extends text rules (parserAt spaced level.operand) (operatorsAt spaced level) tree left
    value rest

theorem Detached.of_append {slice' : List Char}
    (hdetached : Detached spaced (slice ++ slice') rest) : Detached spaced slice' rest where
  token a ha := hdetached.token a (List.mem_getLast?_append_of_mem_getLast? ha)
  gap := hdetached.gap

theorem detached_symbol (operator : Operator) :
    Detached spaced slice (operator.symbol :: rest) where
  token a _ b hb := by
    obtain rfl : operator.symbol = b := Option.some.inj hb
    simp [joins]
  gap _ b hb := by
    obtain rfl : operator.symbol = b := Option.some.inj hb
    exact isBlank_symbol operator

theorem detached_closing : Detached spaced slice (')' :: rest) where
  token a _ b hb := by
    obtain rfl : ')' = b := Option.some.inj hb
    simp [joins, show isDigit ')' = false by decide, show isLetter ')' = false by decide]
  gap _ b hb := by
    obtain rfl : ')' = b := Option.some.inj hb
    decide

theorem noPair_closing : NoPair spaced level (')' :: rest) := by
  intro operator gap slice rest' tree _ _ hsplit
  have hsymbol : operator.symbol ≠ ')' := by cases operator <;> decide
  exact absurd (List.cons.inj hsplit).1.symm hsymbol

theorem noPair_factor : NoPair spaced .factor rest :=
  fun operator _ _ _ _ hlevel ↦ absurd hlevel (level_ne_factor operator)

/-- A pair of one level is no pair of another. -/
theorem noPair_symbol {operator : Operator} (hlevel : operator.level ≠ level) :
    NoPair spaced level (operator.symbol :: rest) := by
  intro other gap slice rest' tree hother _ hsplit
  rw [symbol_injective (List.cons.inj hsplit).1] at hlevel
  exact absurd hother hlevel

/-- Slices of the grammar start with a token. -/
theorem Spells.exists_cons (hspells : Spells spaced level slice tree) :
    ∃ c tail, slice = c :: tail ∧ isBlank c = false := by
  induction hspells with
  | @constant digits gap hdigits _ =>
    obtain ⟨hnonempty, haccepted⟩ := hdigits
    obtain ⟨c, tail, rfl⟩ := List.exists_cons_of_ne_nil hnonempty
    exact ⟨c, tail ++ gap, rfl, isBlank_eq_false_of_isDigit (haccepted c List.mem_cons_self)⟩
  | @identifier letters gap hletters _ =>
    obtain ⟨hnonempty, haccepted⟩ := hletters
    obtain ⟨c, tail, rfl⟩ := List.exists_cons_of_ne_nil hnonempty
    exact ⟨c, tail ++ gap, rfl, isBlank_eq_false_of_isLetter (haccepted c List.mem_cons_self)⟩
  | parentheses => exact ⟨'(', _, rfl, by decide⟩
  | operand _ _ ih => exact ih
  | operation operator _ _ _ ihLeft _ =>
    obtain ⟨c, tail, rfl, hc⟩ := ihLeft
    exact ⟨c, _, rfl, hc⟩

theorem Spells.head_not_blank (hspells : Spells spaced level slice tree) :
    ∀ c ∈ (slice ++ rest).head?, isBlank c = false := by
  obtain ⟨c, tail, rfl, hc⟩ := hspells.exists_cons
  simpa using hc

/-! ## Tokens with their gaps -/

theorem reads_token {rules : κ → Matcher ρ} {inner : Parser κ ρ α} {value : α}
    (hinner : inner.Reads text rules left value (gap ++ rest)) (hrest : gap ++ rest <:+ text.toList)
    (hgap : IsGap spaced gap) (hstop : spaced = true → ∀ c ∈ rest.head?, isBlank c = false) :
    (token spaced inner).Reads text rules left value rest := by
  cases spaced with
  | false =>
    rw [isGap_false.1 hgap] at hinner
    exact hinner
  | true => exact hinner.lexeme hrest (fun c hc ↦ (hgap c hc).2) (hstop rfl)

theorem rejects_token {rules : κ → Matcher ρ} {inner : Parser κ ρ α}
    (hinner : inner.Rejects text rules left) : (token spaced inner).Rejects text rules left := by
  cases spaced with
  | false => exact hinner
  | true => exact hinner.keepLeft

/-- After a token of one class and its gap, no character of the class follows. -/
theorem head_not_accepted {accepts : Char → Bool} {run : List Char}
    (hjoins : ∀ a b, accepts a = true → accepts b = true → joins a b = true)
    (hblank : ∀ c, accepts c = true → isBlank c = false) (hrun : IsRun accepts run)
    (hgap : IsGap spaced gap) (hdetached : Detached spaced (run ++ gap) rest) :
    ∀ c ∈ (gap ++ rest).head?, accepts c = false := by
  intro c hc
  apply Bool.eq_false_iff.2
  intro haccepts
  cases gap with
  | nil =>
    obtain ⟨hnonempty, haccepted⟩ := hrun
    have hlast : run.getLast hnonempty ∈ (run ++ []).getLast? := by
      rw [List.append_nil]
      exact List.getLast_mem_getLast? hnonempty
    have hjoined := hjoins _ c (haccepted _ (List.getLast_mem hnonempty)) haccepts
    rw [hdetached.token _ hlast c hc] at hjoined
    cases hjoined
  | cons d gap =>
    obtain rfl : d = c := Option.some.inj hc
    have := hblank d haccepts
    rw [(hgap d List.mem_cons_self).2] at this
    cases this

theorem reads_symbol (rules : κ → Matcher ρ) {symbol : Char}
    (hleft : symbol :: (gap ++ rest) <:+ text.toList) (hgap : IsGap spaced gap)
    (hstop : spaced = true → ∀ c ∈ rest.head?, isBlank c = false) :
    (token spaced (.skipChar symbol)).Reads text rules (symbol :: (gap ++ rest)) () rest :=
  reads_token (reads_skipChar hleft) ((List.suffix_cons ..).trans hleft) hgap hstop

theorem rejects_symbol (rules : κ → Matcher ρ) {symbol : Char} (hleft : left <:+ text.toList)
    (hhead : left.head? ≠ some symbol) :
    (token spaced (.skipChar symbol)).Rejects text rules left :=
  rejects_token (rejects_skipChar hleft hhead)

theorem reads_operatorsAt (rules : Unit → Matcher Expression) (operator : Operator)
    (hleft : operator.symbol :: (gap ++ rest) <:+ text.toList) (hgap : IsGap spaced gap)
    (hstop : spaced = true → ∀ c ∈ rest.head?, isBlank c = false) :
    (operatorsAt spaced operator.level).Reads text rules (operator.symbol :: (gap ++ rest))
      (fun left right ↦ .ok (.operation left operator right)) rest := by
  have hread : (operatorToken spaced operator).Reads text rules
      (operator.symbol :: (gap ++ rest))
      (fun left right ↦ .ok (.operation left operator right)) rest :=
    (reads_symbol rules hleft hgap hstop).map
  have hother {other : Operator} (hne : operator.symbol ≠ other.symbol) :
      (operatorToken spaced other).Rejects text rules (operator.symbol :: (gap ++ rest)) :=
    (rejects_symbol rules hleft (by simpa using hne)).map
  cases operator with
  | add => exact hread.orElse
  | subtract => exact (hother (by decide)).orElse_reads hread
  | multiply => exact hread.orElse
  | divide => exact (hother (by decide)).orElse_reads hread

/-! ## Chains -/

theorem resumes_iff_extends {rules : Unit → Matcher Expression} (hlevel : level ≠ .factor) :
    Resumes text rules spaced level tree left value rest ↔
      Extends text rules (parserAt spaced level.operand) (operatorsAt spaced level) tree left
        value rest := by
  rw [Resumes, if_neg hlevel]

/-- Without a pair to go on with, reading stops; an operator without an operand is given back. -/
theorem resumes_self (hleft : left <:+ text.toList) (hdepth : left.length ≤ depth)
    (hnone : NoPair spaced level left) :
    Resumes text ((rule spaced).nested text depth) spaced level tree left tree left := by
  by_cases hlevel : level = .factor
  · rw [Resumes, if_pos hlevel]
    exact ⟨rfl, rfl⟩
  rw [resumes_iff_extends hlevel]
  have hoperators : (operatorsAt spaced level).Respects text ((rule spaced).nested text depth)
      (Operation spaced level) left := respects_operatorsAt hleft hlevel
  obtain hrejects | ⟨_, combine, middle, rfl, ⟨operator, gap, hoperator, hgap, rfl, -⟩, hreads⟩ :=
    hoperators
  · exact hrejects.extends
  have hmiddle : middle <:+ operator.symbol :: gap ++ middle := List.suffix_append ..
  obtain hrejects | ⟨slice, operand, late, rfl, hslice, -⟩ :=
    respects_parserAt (hmiddle.trans hleft) (hmiddle.length_le.trans hdepth) level.operand
  · exact hreads.extends_rejects hrejects
  · exact absurd hslice (hnone operator gap slice late operand hoperator hgap rfl)

theorem noPair_operand_operand : NoPair spaced level.operand.operand rest := by
  cases level <;> exact noPair_factor

/-! ## Factors -/

theorem head?_ne_of_isRun {accepts : Char → Bool} {run : List Char} (hrun : IsRun accepts run)
    {symbol : Char} (hsymbol : accepts symbol = false) : (run ++ rest).head? ≠ some symbol := by
  intro hhead
  rw [hrun.head_accepted symbol hhead] at hsymbol
  cases hsymbol

section Factors

variable {rules : Unit → Matcher Expression} {digits letters gap' : List Char}

theorem rejects_parentheses (hleft : left <:+ text.toList) (hhead : left.head? ≠ some '(') :
    (Parser.between (token spaced (.skipChar '(')) (.forwarding ())
      (token spaced (.skipChar ')'))).Rejects text rules left :=
  (rejects_symbol rules hleft hhead).between

theorem reads_parentheses (hleft : '(' :: (gap ++ (slice ++ ')' :: (gap' ++ rest))) <:+ text.toList)
    (hgap : IsGap spaced gap) (hslice : Spells spaced .expression slice tree)
    (hgap' : IsGap spaced gap') (hstop : spaced = true → ∀ c ∈ rest.head?, isBlank c = false)
    (hinner : (forwarding ()).Reads text rules (slice ++ ')' :: (gap' ++ rest)) tree
      (')' :: (gap' ++ rest))) :
    (factor spaced).Reads text rules ('(' :: (gap ++ (slice ++ ')' :: (gap' ++ rest)))) tree
      rest := by
  have hclosing : ')' :: (gap' ++ rest) <:+ text.toList :=
    ((List.suffix_append slice _).trans (List.suffix_append gap _)).trans
      ((List.suffix_cons '(' _).trans hleft)
  exact ((reads_symbol rules hleft hgap fun _ ↦ hslice.head_not_blank).between hinner
    (reads_symbol rules hclosing hgap' hstop)).firstOf

theorem reads_constant (hdigits : IsRun isDigit digits) (hgap : IsGap spaced gap)
    (hleft : digits ++ (gap ++ rest) <:+ text.toList)
    (hdetached : Detached spaced (digits ++ gap) rest) :
    (factor spaced).Reads text rules (digits ++ (gap ++ rest)) (.constant (decimalValue digits))
      rest := by
  have hopening : (digits ++ (gap ++ rest)).head? ≠ some '(' :=
    head?_ne_of_isRun hdigits (by decide)
  have hstop : ∀ c ∈ (gap ++ rest).head?, isDigit c = false :=
    head_not_accepted (fun a b ha hb ↦ by simp [joins, ha, hb])
      (fun c hc ↦ isBlank_eq_false_of_isDigit hc) hdigits hgap hdetached
  have hinteger : (token spaced .integer).Reads text rules (digits ++ (gap ++ rest))
      (decimalValue digits) rest :=
    reads_token (reads_integer hleft hdigits hstop) ((List.suffix_append ..).trans hleft) hgap
      hdetached.gap
  exact (rejects_parentheses hleft hopening).firstOf_reads hinteger.map.firstOf

theorem reads_variable (hletters : IsRun isLetter letters) (hgap : IsGap spaced gap)
    (hleft : letters ++ (gap ++ rest) <:+ text.toList)
    (hdetached : Detached spaced (letters ++ gap) rest) :
    (factor spaced).Reads text rules (letters ++ (gap ++ rest))
      (.identifier (String.ofList letters)) rest := by
  have hopening : (letters ++ (gap ++ rest)).head? ≠ some '(' :=
    head?_ne_of_isRun hletters (by decide)
  have hnumber : ∀ c ∈ (letters ++ (gap ++ rest)).head?, isDigit c = false :=
    fun c hc ↦ isDigit_eq_false_of_isLetter (hletters.head_accepted c hc)
  have hinteger : (token spaced Parser.integer).Rejects text rules (letters ++ (gap ++ rest)) :=
    rejects_token (rejects_many1_satisfy hleft hnumber).map
  have hstop : ∀ c ∈ (gap ++ rest).head?, isLetter c = false :=
    head_not_accepted (fun a b ha hb ↦ by simp [joins, ha, hb])
      (fun c hc ↦ isBlank_eq_false_of_isLetter hc) hletters hgap hdetached
  have hidentifier : (token spaced .identifier).Reads text rules (letters ++ (gap ++ rest))
      (String.ofList letters) rest :=
    reads_token (reads_identifier hleft hletters hstop) ((List.suffix_append ..).trans hleft) hgap
      hdetached.gap
  exact (rejects_parentheses hleft hopening).firstOf_reads
    (hinteger.map.firstOf_reads hidentifier.map.firstOf)

end Factors

theorem reads_of_spells (hspells : Spells spaced level slice tree)
    (hleft : slice ++ rest <:+ text.toList) (hdepth : (slice ++ rest).length ≤ depth)
    (hdetached : Detached spaced slice rest) (hnone : NoPair spaced level.operand rest)
    (hresumes : Resumes text ((rule spaced).nested text depth) spaced level tree rest value final) :
    (parserAt spaced level).Reads text ((rule spaced).nested text depth) (slice ++ rest) value
      final := by
  induction hspells generalizing depth rest value final with
  | @constant digits gap hdigits hgap =>
    obtain ⟨rfl, rfl⟩ := hresumes
    rw [List.append_assoc] at hleft ⊢
    exact reads_constant hdigits hgap hleft hdetached
  | @identifier letters gap hletters hgap =>
    obtain ⟨rfl, rfl⟩ := hresumes
    rw [List.append_assoc] at hleft ⊢
    exact reads_variable hletters hgap hleft hdetached
  | @parentheses gap slice gap' tree hgap hslice hgap' ih =>
    obtain ⟨rfl, rfl⟩ := hresumes
    simp only [List.cons_append, List.append_assoc] at hleft hdepth ⊢
    have hbody : slice ++ ')' :: (gap' ++ final) <:+ text.toList :=
      (List.suffix_append gap _).trans ((List.suffix_cons '(' _).trans hleft)
    -- The inner expression is read at one depth less, and has fewer characters left.
    obtain ⟨inner, rfl⟩ : ∃ inner, depth = inner + 1 :=
      ⟨depth - 1, by simp only [List.length_cons] at hdepth; omega⟩
    have hbodyDepth : (slice ++ ')' :: (gap' ++ final)).length ≤ inner := by
      simp only [List.length_cons, List.length_append] at hdepth ⊢
      omega
    have hclosing : ')' :: (gap' ++ final) <:+ slice ++ ')' :: (gap' ++ final) :=
      List.suffix_append ..
    have hread := ih hbody hbodyDepth detached_closing noPair_closing
      (resumes_self (hclosing.trans hbody) (hclosing.length_le.trans hbodyDepth) noPair_closing)
    exact reads_parentheses hleft hgap hslice hgap' hdetached.gap (reads_forwarding_succ.2 hread)
  | @operand level slice tree hlevel hoperand ih =>
    have hrest : rest <:+ text.toList := (List.suffix_append slice rest).trans hleft
    have hrestDepth : rest.length ≤ depth := (List.suffix_append slice rest).length_le.trans hdepth
    have hread := ih hleft hdepth hdetached noPair_operand_operand
      (resumes_self hrest hrestDepth hnone)
    rw [parserAt_eq_chainLeft hlevel]
    exact hread.chainLeft ((resumes_iff_extends hlevel).1 hresumes)
  | @operation operator slice gap slice' left right _ hgap hrightSlice ihLeft ihRight =>
    have hsplit : slice ++ operator.symbol :: (gap ++ slice') =
      (slice ++ operator.symbol :: gap) ++ slice' := by simp
    rw [hsplit] at hdetached
    simp only [List.append_assoc, List.cons_append] at hleft hdepth ⊢
    have hpair : operator.symbol :: (gap ++ (slice' ++ rest)) <:+ text.toList :=
      (List.suffix_append slice _).trans hleft
    have hright : slice' ++ rest <:+ text.toList :=
      (List.suffix_append gap _).trans ((List.suffix_cons ..).trans hpair)
    have hrest : rest <:+ text.toList := (List.suffix_append slice' _).trans hright
    have hshorter :
        (slice' ++ rest).length < (operator.symbol :: (gap ++ (slice' ++ rest))).length := by
      simp only [List.length_cons, List.length_append]
      omega
    have hpairDepth := (List.suffix_append slice _).length_le.trans hdepth
    have hrightDepth := hshorter.le.trans hpairDepth
    have hrestDepth := (List.suffix_append slice' rest).length_le.trans hrightDepth
    have hoperand := ihRight hright hrightDepth hdetached.of_append
      noPair_operand_operand (resumes_self hrest hrestDepth hnone)
    have hoperator := reads_operatorsAt ((rule spaced).nested text depth) operator hpair hgap
      fun _ ↦ hrightSlice.head_not_blank
    have hpairs := hoperator.extends hoperand rfl
      ((List.suffix_append slice' rest).length_le.trans_lt hshorter)
      ((resumes_iff_extends (level_ne_factor operator)).1 hresumes)
    exact ihLeft hleft hdepth (detached_symbol operator) (noPair_symbol (level_ne_operand operator))
      ((resumes_iff_extends (level_ne_factor operator)).2 hpairs)

end ParserCombinators.Expression
