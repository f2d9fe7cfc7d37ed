import ParserCombinators.Expression.Rendering
import ParserCombinators.Proofs.Expression.Longest

/-!
# Reading back what was written out

A rendering is a factor of the grammar, so it is read back wherever nothing that follows joins it.
A negative constant starts with a symbol that starts no factor. Inside of parentheses it stops the
reading before the parenthesis is closed, so that the parentheses around it are rejected as well, up
to the outermost ones.
-/

namespace ParserCombinators.Expression

open Character
open ParserCombinators.Parser

/-- The constants from left to right, with repetitions. -/
def constants : Expression → List Int
  | constant value => [value]
  | identifier _ => []
  | operation left _ right => left.constants ++ right.constants
  | foreign _ => []

/-- Names that the grammar can read, and constants that are short enough to write out. -/
def IsWritable : Expression → Prop
  | constant value => (Nat.toDigits 10 value.natAbs).length ≤ 4300
  | identifier name => IsRun isLetter name.toList
  | operation left _ right => left.IsWritable ∧ right.IsWritable
  | foreign _ => False

/-- Whether the reading of a tree ends before the character. -/
def StopsBefore (tree : Expression) (c : Char) : Prop :=
  (∀ operator : Operator, c ≠ operator.symbol) ∧
  match tree with
  | constant _ => isDigit c = false
  | identifier _ => isLetter c = false
  | _ => True

variable {κ ρ : Type} {text : Text} {tree left right : Expression} {operator : Operator}
  {source : String} {rest : List Char} {depth : Nat}

/-! ## Renderings -/

theorem render_constant {value : Int} (hwritable : (constant value).IsWritable) :
    (constant value).render = .ok (toString value) := by
  have hlimit : 0 < Fault.digitLimit := by decide
  rw [render, integerText, if_pos ((lt_tenTo_iff hlimit).2 hwritable)]

theorem render_operation :
    (operation left operator right).render = .ok source ↔ ∃ leftText rightText,
      left.render = .ok leftText ∧ right.render = .ok rightText ∧
      source.toList =
        '(' :: (leftText.toList ++ operator.symbol :: (rightText.toList ++ [')'])) := by
  have hwritten (leftText rightText : String) :
      ("(" ++ leftText ++ operator.symbol.toString ++ rightText ++ ")").toList =
        '(' :: (leftText.toList ++ operator.symbol :: (rightText.toList ++ [')'])) := by
    simp [String.toList_append, Char.toString]
  rw [render]
  cases left.render with
  | error fault => simp [Bind.bind, Except.bind]
  | ok leftText =>
    cases right.render with
    | error fault => simp [Bind.bind, Except.bind]
    | ok rightText =>
      simp only [Bind.bind, Except.bind, pure, Except.pure, Except.ok.injEq, ← hwritten,
        String.toList_inj]
      constructor
      · intro hsource
        exact ⟨leftText, rightText, rfl, rfl, hsource.symm⟩
      · rintro ⟨_, _, rfl, rfl, rfl⟩
        rfl

theorem exists_render (hwritable : tree.IsWritable) : ∃ source, tree.render = .ok source := by
  induction tree with
  | constant value => exact ⟨_, render_constant hwritable⟩
  | identifier name => exact ⟨name, rfl⟩
  | operation left operator right ihLeft ihRight =>
    obtain ⟨leftText, hleft⟩ := ihLeft hwritable.1
    obtain ⟨rightText, hright⟩ := ihRight hwritable.2
    exact ⟨_, render_operation.2 ⟨leftText, rightText, hleft, hright, String.toList_ofList⟩⟩
  | foreign text => cases hwritable

/-! ## Trees without a negative constant -/

theorem Derives.of_factor {level : Level} {slice : List Char}
    (hderives : Derives .factor slice tree) : Derives level slice tree := by
  cases level with
  | expression => exact .term (.factor hderives)
  | term => exact .factor hderives
  | factor => exact hderives

theorem Derives.expression_of_operation {slice : List Char}
    (hderives : Derives operator.level slice tree) : Derives .expression slice tree := by
  cases operator with
  | add => exact hderives
  | subtract => exact hderives
  | multiply => exact .term hderives
  | divide => exact .term hderives

theorem derives_of_render (hwritable : tree.IsWritable)
    (hconstants : ∀ value ∈ tree.constants, 0 ≤ value) (hrender : tree.render = .ok source) :
    Derives .factor source.toList tree := by
  induction tree generalizing source with
  | constant value =>
    obtain ⟨n, rfl⟩ := Int.eq_ofNat_of_zero_le (hconstants value (by simp [constants]))
    rw [render_constant hwritable] at hrender
    have hconstant := Derives.constant (isRun_toDigits n)
    rwa [decimalValue_toDigits, ← toList_toString_natCast, Except.ok.inj hrender] at hconstant
  | identifier name =>
    obtain rfl : name = source := Except.ok.inj hrender
    have hidentifier := Derives.identifier hwritable
    rwa [String.ofList_toList] at hidentifier
  | operation left operator right ihLeft ihRight =>
    obtain ⟨leftText, rightText, hleft, hright, hsource⟩ := render_operation.1 hrender
    obtain ⟨hleftConstants, hrightConstants⟩ := List.forall_mem_append.1 hconstants
    have hoperation : Derives operator.level
        (leftText.toList ++ operator.symbol :: rightText.toList) (operation left operator right) :=
      (ihLeft hwritable.1 hleftConstants hleft).of_factor.operation
        (ihRight hwritable.2 hrightConstants hright).of_factor
    have hparentheses := Derives.parentheses hoperation.expression_of_operation
    rw [hsource]
    simpa using hparentheses
  | foreign text => cases hwritable

/-! ## Trees with a negative constant -/

theorem rejects_factor {rules : Unit → Matcher Expression} {left : List Char}
    (hleft : left <:+ text.toList)
    (hparentheses : (Parser.between (token false (.skipChar '(')) (.forwarding ())
      (token false (.skipChar ')'))).Rejects text rules left)
    (hdigit : ∀ c ∈ left.head?, isDigit c = false)
    (hletter : ∀ c ∈ left.head?, isLetter c = false) :
    (factor false).Rejects text rules left := by
  have hinteger : (token false Parser.integer).Rejects text rules left :=
    rejects_token (rejects_many1_satisfy hleft hdigit).map
  have hidentifier : (token false Parser.identifier).Rejects text rules left :=
    rejects_token (rejects_many1_satisfy hleft hletter).map
  exact hparentheses.firstOf_rejects (hinteger.map.firstOf_rejects hidentifier.map.firstOf_nil)

theorem rejects_parserAt {rules : Unit → Matcher Expression} {left : List Char}
    (hfactor : (factor false).Rejects text rules left) (level : Level) :
    (parserAt false level).Rejects text rules left := by
  cases level with
  | expression => exact hfactor.chainLeft.chainLeft
  | term => exact hfactor.chainLeft
  | factor => exact hfactor

theorem rejects_operatorsAt {rules : Unit → Matcher Expression} {level : Level} {left : List Char}
    (hlevel : operator.level ≠ level) (hleft : operator.symbol :: left <:+ text.toList) :
    (operatorsAt false level).Rejects text rules (operator.symbol :: left) := by
  have hother (other : Operator) (hother : other.level = level) :
      (operatorToken false other).Rejects text rules (operator.symbol :: left) := by
    refine (rejects_symbol rules hleft fun hhead ↦ ?_).map
    rw [symbol_injective (Option.some.inj hhead)] at hlevel
    exact hlevel hother
  cases level with
  | expression => exact (hother .add rfl).orElse_rejects (hother .subtract rfl)
  | term => exact (hother .multiply rfl).orElse_rejects (hother .divide rfl)
  | factor => rfl

/-- An operator that no factor follows ends a chain. -/
theorem extends_operator {rules : Unit → Matcher Expression} {left : List Char} (level : Level)
    (hlevel : level ≠ .factor) (hleft : operator.symbol :: left <:+ text.toList)
    (hfactor : (factor false).Rejects text rules left) :
    Extends text rules (parserAt false level.operand) (operatorsAt false level) tree
      (operator.symbol :: left) tree (operator.symbol :: left) := by
  by_cases hoperator : operator.level = level
  · subst hoperator
    have hread : (operatorsAt false operator.level).Reads text rules
        (operator.symbol :: ([] ++ left)) _ left :=
      reads_operatorsAt rules operator hleft (isGap_nil false) fun hspaced ↦ by cases hspaced
    exact hread.extends_rejects (rejects_parserAt hfactor _)
  · exact (rejects_operatorsAt hoperator hleft).extends

theorem reads_before_operator {slice left : List Char} {inner : Expression}
    (hslice : Derives .factor slice inner)
    (hleft : slice ++ operator.symbol :: left <:+ text.toList)
    (hdepth : (slice ++ operator.symbol :: left).length ≤ depth)
    (hfactor : (factor false).Rejects text ((rule false).nested text depth) left) :
    (rule false).Reads text ((rule false).nested text depth) (slice ++ operator.symbol :: left)
      inner (operator.symbol :: left) := by
  have hsymbol : operator.symbol :: left <:+ text.toList := (List.suffix_append slice _).trans hleft
  have hread : (factor false).Reads text ((rule false).nested text depth) _ inner _ :=
    reads_of_spells (hslice.spells false) hleft hdepth (detached_symbol operator) noPair_factor
      ⟨rfl, rfl⟩
  have hterm := hread.chainLeft (extends_operator .term (by decide) hsymbol hfactor)
  exact hterm.chainLeft (extends_operator .expression (by decide) hsymbol hfactor)

theorem reads_opening (rules : κ → Matcher ρ) {left : List Char}
    (hleft : '(' :: left <:+ text.toList) :
    (token false (.skipChar '(')).Reads text rules ('(' :: left) () left := by
  have hsplit : '(' :: ([] ++ left) <:+ text.toList := hleft
  exact reads_symbol rules hsplit (isGap_nil false) fun hspaced ↦ by cases hspaced

theorem rejects_closing (rules : κ → Matcher ρ) {left : List Char}
    (hleft : operator.symbol :: left <:+ text.toList) :
    (token false (.skipChar ')')).Rejects text rules (operator.symbol :: left) := by
  have hsymbol : operator.symbol ≠ ')' := by cases operator <;> decide
  exact rejects_symbol rules hleft (by simpa using hsymbol)

/-- Where a factor is rejected, the parentheses that start there are not closed in time. -/
theorem rejects_render (hwritable : tree.IsWritable)
    (hnegative : ∃ value ∈ tree.constants, value < 0) (hrender : tree.render = .ok source)
    (hleft : source.toList ++ rest <:+ text.toList)
    (hdepth : (source.toList ++ rest).length ≤ depth) :
    (factor false).Rejects text ((rule false).nested text depth) (source.toList ++ rest) := by
  induction tree generalizing source rest depth with
  | constant value =>
    have hvalue : value < 0 := by simpa [constants] using hnegative
    obtain ⟨n, rfl⟩ := Int.eq_negSucc_of_lt_zero hvalue
    rw [render_constant hwritable] at hrender
    have hsource : source.toList = '-' :: Nat.toDigits 10 (n + 1) := by
      rw [← Except.ok.inj hrender]
      exact toList_toString_negSucc n
    rw [hsource] at hleft ⊢
    refine rejects_factor hleft (rejects_parentheses hleft (by simp)) ?_ ?_
    · rintro _ ⟨⟩
      decide
    · rintro _ ⟨⟩
      decide
  | identifier name => simp [constants] at hnegative
  | operation left operator right ihLeft ihRight =>
    obtain ⟨leftText, rightText, hleftText, hrightText, hsource⟩ := render_operation.1 hrender
    simp only [hsource, List.cons_append, List.append_assoc, List.nil_append] at hleft hdepth ⊢
    obtain ⟨inner, rfl⟩ : ∃ inner, depth = inner + 1 :=
      ⟨depth - 1, by simp only [List.length_cons] at hdepth; omega⟩
    have hbody := (List.suffix_cons '(' _).trans hleft
    have hbodyDepth := Nat.le_of_succ_le_succ hdepth
    have hpair := List.suffix_append leftText.toList
      (operator.symbol :: (rightText.toList ++ ')' :: rest))
    refine rejects_factor hleft ?_ (by rintro _ ⟨⟩; decide) (by rintro _ ⟨⟩; decide)
    have hopening := reads_opening ((rule false).nested text (inner + 1)) hleft
    by_cases hleftNegative : ∃ value ∈ left.constants, value < 0
    · have hrejects := ihLeft hwritable.1 hleftNegative hleftText hbody hbodyDepth
      exact hopening.between_rejects
        (rejects_forwarding_succ.2 (rejects_parserAt hrejects .expression))
    · have hrightNegative : ∃ value ∈ right.constants, value < 0 := by
        obtain ⟨value, hmem, hvalue⟩ := hnegative
        obtain hmem | hmem := List.mem_append.1 hmem
        · exact absurd ⟨value, hmem, hvalue⟩ hleftNegative
        · exact ⟨value, hmem, hvalue⟩
      have hleftConstants : ∀ value ∈ left.constants, 0 ≤ value := by
        intro value hmem
        exact Int.not_lt.1 fun hvalue ↦ hleftNegative ⟨value, hmem, hvalue⟩
      have hright := (List.suffix_cons operator.symbol _).trans hpair
      have hrejects := ihRight hwritable.2 hrightNegative hrightText (hright.trans hbody)
        (hright.length_le.trans hbodyDepth)
      have hread := reads_before_operator (derives_of_render hwritable.1 hleftConstants hleftText)
        hbody hbodyDepth hrejects
      have hclosing := rejects_closing ((rule false).nested text (inner + 1)) (hpair.trans hbody)
      exact hopening.between_unclosed (reads_forwarding_succ.2 hread) hclosing
  | foreign text => cases hwritable

/-! ## Round trips -/

theorem toList_ofString_append (source rest : String) :
    (Text.ofString (source ++ rest)).toList = source.toList ++ rest.toList := by
  rw [Text.ofString, String.toList_append]

theorem joins_eq_false {a b : Char} (hdigit : isDigit a = false ∨ isDigit b = false)
    (hletter : isLetter a = false ∨ isLetter b = false) : joins a b = false := by
  unfold joins
  obtain hdigit | hdigit := hdigit <;> obtain hletter | hletter := hletter <;>
    simp [hdigit, hletter]

theorem detached_of_render {left : List Char} (hwritable : tree.IsWritable)
    (hconstants : ∀ value ∈ tree.constants, 0 ≤ value) (hrender : tree.render = .ok source)
    (hstops : ∀ c ∈ left.head?, tree.StopsBefore c) : Detached false source.toList left where
  token a ha b hb := by
    have hb := (hstops b hb).2
    cases tree with
    | constant value =>
      obtain ⟨n, rfl⟩ := Int.eq_ofNat_of_zero_le (hconstants value (by simp [constants]))
      rw [render_constant hwritable] at hrender
      rw [← Except.ok.inj hrender] at ha
      have hmem : a ∈ Nat.toDigits 10 n := toList_toString_natCast n ▸ List.mem_of_mem_getLast? ha
      have hdigit := (isRun_toDigits n).accepted a hmem
      exact joins_eq_false (.inr hb) (.inl (isLetter_eq_false_of_isDigit hdigit))
    | identifier name =>
      obtain rfl : name = source := Except.ok.inj hrender
      have hletter := hwritable.accepted a (List.mem_of_mem_getLast? ha)
      exact joins_eq_false (.inl (isDigit_eq_false_of_isLetter hletter)) (.inr hb)
    | operation left operator right =>
      obtain ⟨leftText, rightText, -, -, hsource⟩ := render_operation.1 hrender
      have hsplit : source.toList =
          ('(' :: (leftText.toList ++ operator.symbol :: rightText.toList)) ++ [')'] := by
        rw [hsource]
        simp
      have hlast : source.toList.getLast? = some ')' := hsplit ▸ List.getLast?_concat
      obtain rfl : ')' = a := Option.some.inj (hlast.symm.trans ha)
      exact joins_eq_false (.inl (by decide)) (.inl (by decide))
    | foreign text => cases hwritable
  gap hspaced := by cases hspaced

theorem noPair_of_stops {level : Level} {left : List Char}
    (hstops : ∀ c ∈ left.head?, tree.StopsBefore c) : NoPair false level left := by
  rintro operator gap slice rest' other - - rfl -
  exact (hstops operator.symbol rfl).1 operator rfl

theorem parse_render_append (hwritable : tree.IsWritable)
    (hconstants : ∀ value ∈ tree.constants, 0 ≤ value) (hrender : tree.render = .ok source)
    {rest : String} (hstops : ∀ c ∈ rest.toList.head?, tree.StopsBefore c) :
    (parse false (Text.ofString (source ++ rest))).outcome = .success tree source.length := by
  have htext := toList_ofString_append source rest
  have hleft : [] ++ (source.toList ++ rest.toList) <:+
      (Text.ofString (source ++ rest)).toList := htext ▸ List.suffix_rfl
  have hspells : Spells false .expression source.toList tree :=
    (derives_of_render hwritable hconstants hrender).of_factor.spells false
  have hread : (grammar false : Parser Empty Empty Expression).Reads
      (Text.ofString (source ++ rest)) Empty.elim _ tree _ :=
    reads_grammar (isGap_nil false) hspells hleft
      (detached_of_render hwritable hconstants hrender hstops) fun _ ↦ noPair_of_stops hstops
  have houtcome := hread.outcome_run htext
  rwa [String.length_toList] at houtcome

theorem parse_render_negative (hwritable : tree.IsWritable)
    (hnegative : ∃ value ∈ tree.constants, value < 0) (hrender : tree.render = .ok source)
    (rest : String) : (parse false (Text.ofString (source ++ rest))).outcome = .failure := by
  have htext := toList_ofString_append source rest
  have hleft : source.toList ++ rest.toList <:+ (Text.ofString (source ++ rest)).toList :=
    htext ▸ List.suffix_rfl
  have hfactor := rejects_render hwritable hnegative hrender hleft le_rfl
  have hrule : (recursive (rule false) : Parser Empty Empty Expression).Rejects
      (Text.ofString (source ++ rest)) Empty.elim (source.toList ++ rest.toList) :=
    rejects_recursive.2 (rejects_parserAt hfactor .expression)
  rw [← htext, Rejects, Text.positionOf_toList] at hrule
  exact hrule

/-- A tree is read back as it was written out, or, if it has a negative constant, not at all. -/
theorem parse_render (hwritable : tree.IsWritable) : ∃ source, tree.render = .ok source ∧
    ((∀ value ∈ tree.constants, 0 ≤ value) →
      ∀ rest : String, (∀ c ∈ rest.toList.head?, tree.StopsBefore c) →
        (parse false (Text.ofString (source ++ rest))).outcome = .success tree source.length) ∧
    ((∃ value ∈ tree.constants, value < 0) →
      ∀ rest : String, (parse false (Text.ofString (source ++ rest))).outcome = .failure) := by
  obtain ⟨source, hrender⟩ := exists_render hwritable
  refine ⟨source, hrender, ?_, ?_⟩
  · intro hconstants rest hstops
    exact parse_render_append hwritable hconstants hrender hstops
  · intro hnegative rest
    exact parse_render_negative hwritable hnegative hrender rest

/-- A product is read up to a parenthesis, and a negative factor of it is not read. -/
theorem parse_render_product :
    (∃ source, (operation (constant 12) .multiply (identifier "x")).render = .ok source ∧
      (parse false (Text.ofString (source ++ ")"))).outcome =
        .success (operation (constant 12) .multiply (identifier "x")) source.length) ∧
    ∃ source, (operation (identifier "x") .multiply (constant (-1))).render = .ok source ∧
      (parse false (Text.ofString (source ++ ")"))).outcome = .failure := by
  have hx : IsRun isLetter ['x'] :=
    ⟨List.cons_ne_nil _ _, List.forall_mem_singleton.2 (by decide)⟩
  constructor
  · have hwritable : (operation (constant 12) .multiply (identifier "x")).IsWritable :=
      ⟨show (Nat.toDigits 10 12).length ≤ 4300 by decide, hx⟩
    obtain ⟨source, hrender, hread, -⟩ := parse_render hwritable
    refine ⟨source, hrender, hread (by decide) ")" ?_⟩
    rintro _ ⟨⟩
    exact ⟨fun operator ↦ by cases operator <;> decide, trivial⟩
  · have hwritable : (operation (identifier "x") .multiply (constant (-1))).IsWritable :=
      ⟨hx, show (Nat.toDigits 10 1).length ≤ 4300 by decide⟩
    obtain ⟨source, hrender, -, hrejects⟩ := parse_render hwritable
    exact ⟨source, hrender, hrejects ⟨-1, by decide, by decide⟩ ")"⟩

end ParserCombinators.Expression
