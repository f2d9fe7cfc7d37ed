import ParserCombinators.Json.Grammar
import ParserCombinators.Proofs.Parser.Termination

/-!
# Reading JSON ends

A value refers to itself only inside of an array or an object, that is behind a bracket or a brace.
What repeats consumes something every time: digits, pieces of strings, and what follows a comma.
-/

namespace ParserCombinators.Json

variable {κ ρ α β : Type} {s : Surroundings κ ρ} {low : Int}

/-! ## Tokens -/

theorem passes_punctuation (s : Surroundings κ ρ) (low : Int) (c : Char) :
    (punctuation c : Parser κ ρ Unit).Passes s true low :=
  (Parser.passes_skipChar s low c).lexeme

theorem readsOpening_punctuation {c : Char} (hc : s.opens c = true) :
    (punctuation c : Parser κ ρ Unit).ReadsOpening s :=
  (Parser.readsOpening_skipChar hc).lexeme

theorem passes_reserved (s : Surroundings κ ρ) (low : Int) (word : String) :
    (reserved word : Parser κ ρ Value).Passes s false low :=
  (Parser.passes_literal s low word).lexeme.convert _

theorem passes_optional {strictly : Bool} {inner : Parser κ ρ (List Char)}
    (hinner : inner.Passes s strictly low) : (optional inner).Passes s false low :=
  hinner.weaken.orElse (Parser.passes_succeed s low [])

theorem passes_digits (s : Surroundings κ ρ) (low : Int) :
    (digits : Parser κ ρ (List Char)).Passes s true low :=
  (Parser.passes_satisfy s low _).many1

theorem passes_fraction (s : Surroundings κ ρ) (low : Int) :
    (fraction : Parser κ ρ (List Char)).Passes s true low :=
  ((Parser.passes_satisfy s low _).pair (passes_digits s low)).map _

theorem passes_exponent (s : Surroundings κ ρ) (low : Int) :
    (exponent : Parser κ ρ (List Char)).Passes s true low := by
  have hsign := passes_optional ((Parser.passes_satisfy s low isSign).map fun c ↦ [c])
  exact (((Parser.passes_satisfy s low _).pair hsign).pair (passes_digits s low)).map _

theorem passes_numberText (s : Surroundings κ ρ) (low : Int) :
    (numberText : Parser κ ρ (List Char)).Passes s true low := by
  have hsign := passes_optional ((Parser.passes_satisfy s low (· == '-')).map fun c ↦ [c])
  exact hsign.step fun _ ↦ (passes_digits s low).step fun _ ↦
    (passes_optional (passes_fraction s low)).step fun _ ↦
      (passes_optional (passes_exponent s low)).step fun _ ↦ Parser.passes_finish s low _

theorem passes_number (s : Surroundings κ ρ) (low : Int) :
    (number : Parser κ ρ Number).Passes s true low :=
  ((passes_numberText s low).convert _).lexeme

/-! ## Strings -/

theorem passes_plain (s : Surroundings κ ρ) (low : Int) :
    (plain : Parser κ ρ CodePoints).Passes s true low :=
  (Parser.passes_satisfy s low _).many1.map _

theorem passes_simpleEscape (s : Surroundings κ ρ) (low : Int) :
    (simpleEscape : Parser κ ρ CodePoints).Passes s true low :=
  ((Parser.passes_skipChar s low _).keepRight (Parser.passes_satisfy s low _)).convert _

theorem passes_hexDigits (s : Surroundings κ ρ) (low : Int) (read : List Char) (wanted : Nat) :
    (Parser.sequence none (hexDigits read wanted) : Parser κ ρ CodePoints).Passes s false low := by
  induction wanted generalizing read with
  | zero => exact Parser.passes_finish s low _
  | succ wanted ih =>
    exact ((Parser.passes_satisfy s low _).step fun c ↦ ih (read ++ [c])).weaken

/-- The backslash is consumed whatever follows. -/
theorem passes_unicodeEscape (s : Surroundings κ ρ) (low : Int) :
    (unicodeEscape : Parser κ ρ CodePoints).Passes s true low := by
  have hliteral : (Parser.literal "\\u" : Parser κ ρ String).Passes s true low :=
    (Parser.passes_satisfy s low _).step fun _ ↦ Parser.passes_spelling s low "\\u" ['u']
  exact hliteral.step fun _ ↦ passes_hexDigits s low [] 4

theorem passes_string (s : Surroundings κ ρ) (low : Int) :
    (string : Parser κ ρ CodePoints).Passes s true low := by
  have hpiece : (Parser.firstOf plain [unicodeEscape, simpleEscape]).Passes s true low :=
    Parser.passes_firstOf (by
      simpa using ⟨passes_plain s low, passes_unicodeEscape s low, passes_simpleEscape s low⟩)
  have hquote := Parser.passes_skipChar s low '\x22'
  exact ((hquote.between hpiece.many hquote).map _).lexeme

/-! ## Values -/

theorem passes_separatedBy {item : Parser κ ρ α} {separator : Parser κ ρ β} {strictly : Bool}
    (hitem : item.Passes s strictly low) (hseparator : separator.Passes s true low) :
    (separatedBy item separator).Passes s false low := by
  have hitems := hitem.step fun first ↦ (hseparator.keepRight hitem).many.step fun rest ↦
    Parser.passes_finish s low (.ok (first :: rest))
  exact hitems.weaken.orElse (Parser.passes_succeed s low [])

def isOpening (c : Char) : Bool := c == '[' || c == '\x7b'

theorem isGuarded_valueRule : valueRule.IsGuarded isOpening := by
  intro s hopens hinside
  have hmark (c : Char) (low : Int) := passes_punctuation s low c
  have hvalue {inside : Int} (hbehind : s.text.HasBetween s.opens s.origin inside) :=
    Parser.passes_forwarding hinside () hbehind
  have harray : (array (.forwarding ())).Passes s true s.origin := by
    have hopening : (punctuation '[').ReadsOpening s :=
      readsOpening_punctuation (by rw [hopens]; rfl)
    exact hopening.between (Int.le_refl _)
      (fun inside hbehind ↦ passes_separatedBy (hvalue hbehind) (hmark ',' inside))
      (hmark ']' _).weaken
  have hobject : (object (.forwarding ())).Passes s true s.origin := by
    have hopening : (punctuation '\x7b').ReadsOpening s :=
      readsOpening_punctuation (by rw [hopens]; rfl)
    refine (hopening.between (Int.le_refl _) (fun inside hbehind ↦ ?_) (hmark '\x7d' _).weaken).map _
    have hname := (passes_string s inside).keepLeft (hmark ':' inside)
    exact passes_separatedBy (hname.pair (hvalue hbehind)) (hmark ',' inside)
  have hword (word : String) := passes_reserved s s.origin word
  refine Parser.passes_firstOf ?_
  simp only [List.forall_mem_cons]
  exact ⟨((passes_string s _).map _).weaken, ((passes_number s _).map _).weaken,
    (hobject.map _).weaken, (harray.map _).weaken, hword "true", hword "false", hword "null", nofun⟩

theorem passes_value (hopens : s.opens = isOpening) (low : Int) :
    (value : Parser κ ρ Value).Passes s false low :=
  isGuarded_valueRule.passes_recursive hopens low

theorem passes_document (hopens : s.opens = isOpening) (low : Int) :
    (document : Parser κ ρ Value).Passes s false low :=
  (Parser.passes_blanks s low).keepRight (passes_value hopens low)

end ParserCombinators.Json
