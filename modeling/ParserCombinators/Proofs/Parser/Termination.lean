import Mathlib.Data.List.Chain
import ParserCombinators.Parser.Lexical
import ParserCombinators.Proofs.Parser.Behaviour

/-!
# Recursive rules that end

A rule is guarded if, wherever it enters itself, it has read an opening bracket before. Then every
entry is further on than the one around it, so the rule ends from every position, and the entries
around each other are no more than the opening brackets and one.
-/

namespace ParserCombinators

variable {κ ρ τ α β γ : Type}

/-! ## Counting brackets -/

namespace Text

variable {text : Text} {marks : Char → Bool} {start stop : Int}

/-- How many characters of the kind come after a position. -/
def countFrom (text : Text) (marks : Char → Bool) (position : Int) : Nat :=
  (text.suffixFrom position).countP marks

theorem countFrom_le (text : Text) (marks : Char → Bool) (position : Int) :
    text.countFrom marks position ≤ text.toList.countP marks :=
  (List.drop_sublist _ _).countP_le

theorem HasBetween.countFrom_lt (hbetween : text.HasBetween marks start stop) :
    text.countFrom marks stop < text.countFrom marks start := by
  obtain ⟨place, c, hc, hmarks, hstart, hstop⟩ := hbetween
  obtain ⟨hnonneg, hfound⟩ := charAt?_eq_some.1 hc
  obtain ⟨hsize, rfl⟩ := Array.getElem?_eq_some_iff.1 hfound
  have hsplit : text.suffixFrom place =
      text[place.toNat] :: text.toList.drop (place.toNat + 1) :=
    List.drop_eq_getElem_cons hsize
  have hbefore : (text.suffixFrom place).Sublist (text.suffixFrom start) :=
    List.drop_sublist_drop_left _ (by omega)
  have hbehind : (text.suffixFrom stop).Sublist (text.toList.drop (place.toNat + 1)) :=
    List.drop_sublist_drop_left _ (by omega)
  calc (text.suffixFrom stop).countP marks
      ≤ (text.toList.drop (place.toNat + 1)).countP marks := hbehind.countP_le
    _ < (text.suffixFrom place).countP marks := by
      rw [hsplit, List.countP_cons_of_pos hmarks]
      exact Nat.lt_succ_self _
    _ ≤ (text.suffixFrom start).countP marks := hbefore.countP_le

/-- Of positions with a character between any two neighbours there is one more than characters. -/
theorem length_le_of_isChain {positions : List Int}
    (hchain : positions.IsChain (text.HasBetween marks)) :
    positions.length ≤ 1 + text.toList.countP marks := by
  have hcount (first : Int) (rest : List Int)
      (hchain : (first :: rest).IsChain (text.HasBetween marks)) :
      (first :: rest).length ≤ 1 + text.countFrom marks first := by
    induction rest generalizing first with
    | nil => simp
    | cons second rest ih =>
      obtain ⟨hbetween, hrest⟩ := List.isChain_cons_cons.1 hchain
      have hlength := ih second hrest
      have hfewer := hbetween.countFrom_lt
      simp only [List.length_cons] at hlength ⊢
      omega
  cases positions with
  | nil => exact Nat.zero_le _
  | cons first rest =>
    exact (hcount first rest hchain).trans (Nat.add_le_add_left (text.countFrom_le marks first) 1)

end Text

namespace Parser

variable {s : Surroundings κ ρ} {first : Parser κ ρ α} {second : Parser κ ρ β}
  {third : Parser κ ρ γ} {strictly : Bool} {low : Int}

/-! ## Characters and tokens -/

theorem passes_blanks (s : Surroundings κ ρ) (low : Int) :
    (blanks : Parser κ ρ (List Char)).Passes s false low :=
  (passes_satisfy s low _).many

theorem passes_skipChar (s : Surroundings κ ρ) (low : Int) (c : Char) :
    (skipChar c : Parser κ ρ Unit).Passes s true low :=
  (passes_satisfy s low _).map _

theorem Passes.lexeme (hfirst : first.Passes s strictly low) :
    first.lexeme.Passes s strictly low := by
  have hboth := hfirst.keepLeft (passes_blanks s low)
  rw [Bool.or_false] at hboth
  exact hboth

theorem passes_integer (s : Surroundings κ ρ) (low : Int) :
    (integer : Parser κ ρ Nat).Passes s true low :=
  (passes_satisfy s low _).many1.map _

theorem passes_stringOf {character : Parser κ ρ Char} (hcharacter : character.Passes s true low) :
    (stringOf character).Passes s true low :=
  hcharacter.many1.map _

theorem passes_identifier (s : Surroundings κ ρ) (low : Int) :
    (identifier : Parser κ ρ String).Passes s true low :=
  passes_stringOf (passes_satisfy s low _)

theorem passes_spelling (s : Surroundings κ ρ) (low : Int) (value : α) (expected : List Char) :
    (sequence none (spelling value expected) : Parser κ ρ α).Passes s false low := by
  induction expected with
  | nil => exact passes_finish s low _
  | cons c expected ih => exact ((passes_satisfy s low _).step fun _ ↦ ih).weaken

theorem passes_literal (s : Surroundings κ ρ) (low : Int) (expected : String) :
    (literal expected : Parser κ ρ String).Passes s false low :=
  passes_spelling s low expected expected.toList

/-! ## Brackets -/

/-- The parser reads an opening bracket, and perhaps something behind it. -/
def ReadsOpening (s : Surroundings κ ρ) (parser : Parser κ ρ α) : Prop :=
  ∀ start, parser.Behaves s start fun stop ↦ s.text.Passes true start stop ∧
    ∃ c, s.text.charAt? start = some c ∧ s.opens c = true

theorem readsOpening_skipChar {c : Char} (hc : s.opens c = true) :
    (skipChar c : Parser κ ρ Unit).ReadsOpening s := by
  intro start
  refine ((behaves_satisfy s (· == c) start).map _).imp fun stop ⟨hstop, d, hd, heq⟩ ↦ ?_
  obtain rfl : d = c := by simpa using heq
  exact ⟨hstop, d, hd, hc⟩

theorem ReadsOpening.lexeme (hfirst : first.ReadsOpening s) : first.lexeme.ReadsOpening s := by
  intro start
  refine (hfirst start).keepLeft fun middle ⟨hmiddle, hopens⟩ ↦ ?_
  refine (passes_blanks s middle middle (Int.le_refl _)).imp fun stop hstop ↦ ?_
  exact ⟨hmiddle.trans hstop, hopens⟩

/-- What stands in brackets is behind the opening one, wherever it is run. -/
theorem ReadsOpening.between (hopening : first.ReadsOpening s) (hlow : s.origin ≤ low)
    (hinner : ∀ inside, s.text.HasBetween s.opens s.origin inside → second.Passes s false inside)
    (hclosing : third.Passes s false low) :
    (Parser.between first second third).Passes s true low := by
  intro start hstart
  refine (hopening start).between (fun middle ⟨hmiddle, c, hc, hopens⟩ ↦ ?_)
    fun stop (hstop : s.text.Passes true start stop) ↦ hclosing.after hstart hstop
  have hinside : s.text.HasBetween s.opens s.origin middle :=
    ⟨start, c, hc, hopens, Int.le_trans hlow hstart, hmiddle.lt⟩
  exact (hinner middle hinside middle (Int.le_refl _)).imp fun stop hstop ↦ hmiddle.trans hstop

/-- Behind an opening bracket the rules end. -/
def EndsInside (s : Surroundings κ ρ) : Prop :=
  ∀ name position, s.text.HasBetween s.opens s.origin position →
    (s.rules name position).Ends (s.text.Passes false position)

theorem passes_forwarding (hrules : EndsInside s) (name : κ) {inside : Int}
    (hinside : s.text.HasBetween s.opens s.origin inside) :
    (forwarding name : Parser κ ρ ρ).Passes s false inside := by
  intro start hstart
  have hbehind := hinside.mono (Int.le_refl _) hstart
  refine ⟨hrules name start hbehind, ?_⟩
  rintro _ rfl
  exact hbehind

/-! ## Guarded rules -/

/-- Provided that the rule ends behind an opening bracket, it ends, and enters itself only there. -/
def IsGuarded (opens : Char → Bool) (rule : Parser Unit τ τ) : Prop :=
  ∀ s : Surroundings Unit τ, s.opens = opens → EndsInside s → rule.Passes s false s.origin

variable {opens : Char → Bool} {rule : Parser Unit τ τ} {text : Text}

theorem IsGuarded.ends_nested (hrule : rule.IsGuarded opens) {depth : Nat} {position : Int}
    (hdepth : text.remaining position < depth) :
    (rule.nested text depth () position).Ends (text.Passes false position) := by
  induction depth generalizing position with
  | zero => exact absurd hdepth (Nat.not_lt_zero _)
  | succ depth ih =>
    have hinside : EndsInside ⟨text, rule.nested text depth, opens, position⟩ := by
      intro name inner hinner
      have hfewer : text.remaining inner < text.remaining position := hinner.remaining_lt
      exact ih (by omega)
    exact (hrule _ rfl hinside position (Int.le_refl _)).ends

theorem IsGuarded.ends_entered (hrule : rule.IsGuarded opens) (position : Int) :
    (rule.entered text () position).Ends (text.Passes false position) :=
  hrule.ends_nested (Nat.lt_succ_self _)

theorem IsGuarded.behaves_entered (hrule : rule.IsGuarded opens) (position : Int) :
    rule.Behaves ⟨text, rule.entered text, opens, position⟩ position
      (text.Passes false position) :=
  hrule _ rfl (fun _ inner _ ↦ hrule.ends_entered inner) position (Int.le_refl _)

theorem IsGuarded.passes_recursive (hrule : rule.IsGuarded opens) {s : Surroundings κ ρ}
    (hopens : s.opens = opens) (low : Int) :
    (recursive rule : Parser κ ρ τ).Passes s false low := by
  intro start _
  refine ⟨hrule.ends_entered start, ?_⟩
  rintro visit ⟨outer, -, within, hwithin, rfl⟩
  have hguarded := (hrule.behaves_entered outer).guarded within hwithin
  rw [hopens]
  cases within with
  | entry name inner => exact hguarded
  | reentry outer inner => exact hguarded
  | round start stop => exact hguarded

/-! ## Levels of entries -/

theorem IsGuarded.matcher_eq (hrule : rule.IsGuarded opens) {rules : Unit → Matcher τ}
    {position : Int} (hrules : ∀ inner, text.HasBetween opens position inner →
      rules () inner = rule.entered text () inner) :
    rule.matcher text rules position = rule.matcher text (rule.entered text) position :=
  rule.matcher_congr text fun _ inner hentry ↦
    hrules inner ((hrule.behaves_entered position).guarded _ hentry)

theorem IsGuarded.nested_eq_of_remaining (hrule : rule.IsGuarded opens) {depth : Nat}
    {position : Int} (hdepth : text.remaining position < depth) :
    rule.nested text depth () position = rule.entered text () position := by
  induction depth using Nat.strongRecOn generalizing position with
  | ind depth ih =>
    have hlevel (level : Nat) (hlevel : level < depth)
        (hremaining : text.remaining position ≤ level) :
        rule.nested text (level + 1) () position =
          rule.matcher text (rule.entered text) position :=
      hrule.matcher_eq fun inner hinner ↦
        ih level hlevel (Nat.lt_of_lt_of_le hinner.remaining_lt hremaining)
    obtain ⟨level, rfl⟩ : ∃ level, depth = level + 1 := ⟨depth - 1, by omega⟩
    rw [hlevel level (Nat.lt_succ_self _) (Nat.le_of_lt_succ hdepth)]
    exact (hlevel (text.remaining position) hdepth (Nat.le_refl _)).symm

/-- The rule is what its references stand for. -/
theorem IsGuarded.entered_eq (hrule : rule.IsGuarded opens) (position : Int) :
    rule.entered text () position = rule.matcher text (rule.entered text) position := by
  rw [← hrule.nested_eq_of_remaining (Nat.lt_succ_of_lt (Nat.lt_succ_self _))]
  exact hrule.matcher_eq fun inner hinner ↦
    hrule.nested_eq_of_remaining (Nat.lt_succ_of_lt hinner.remaining_lt)

/-- As many levels of entries are enough as there are opening brackets, and one. -/
theorem IsGuarded.nested_eq_of_count (hrule : rule.IsGuarded opens) {depth : Nat} {position : Int}
    (hdepth : text.countFrom opens position < depth) :
    rule.nested text depth () position = rule.entered text () position := by
  induction depth generalizing position with
  | zero => exact absurd hdepth (Nat.not_lt_zero _)
  | succ depth ih =>
    rw [hrule.entered_eq]
    exact hrule.matcher_eq fun inner hinner ↦
      ih (Nat.lt_of_lt_of_le hinner.countFrom_lt (Nat.le_of_lt_succ hdepth))

end Parser

end ParserCombinators
