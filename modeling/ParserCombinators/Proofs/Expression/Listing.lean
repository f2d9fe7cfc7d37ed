import ParserCombinators.Proofs.Expression.Spacing

/-!
# No token is lost

The leaves and operators of a tree that was parsed, listed from left to right, are the tokens of the
text that was read, in the same order: the longest runs of digits and of letters, and the symbols of
the operators. Only parentheses and blanks leave no trace in the tree.
-/

namespace ParserCombinators

open Character

/-- What can be listed of a tree. -/
inductive Token
  | constant (value : Int)
  | identifier (name : String)
  | operator (operator : Operator)
  | foreign (text : String)
  deriving DecidableEq, Repr

namespace Token

/-- A run of digits stands for its value, a run of letters for itself, and a symbol for its
operator. -/
def ofRun? (run : List Char) : Option Token :=
  if run.all isDigit then some (.constant (decimalValue run))
  else if run.all isLetter then some (.identifier (String.ofList run))
  else (Operator.ofSymbol (String.ofList run)).toOption.map .operator

def name? : Token → Option String
  | identifier name => some name
  | _ => none

end Token

namespace Expression

variable {tree : Expression} {spaced : Bool} {level : Level} {slice gap run : List Char} {c : Char}

/-- The leaves and operators from left to right. -/
def listing : Expression → List Token
  | constant value => [.constant value]
  | identifier name => [.identifier name]
  | operation left operator right => left.listing ++ .operator operator :: right.listing
  | foreign text => [.foreign text]

theorem names_eq_filterMap_listing (tree : Expression) :
    tree.names = tree.listing.filterMap Token.name? := by
  induction tree with
  | constant => rfl
  | identifier => rfl
  | operation left operator right ihLeft ihRight =>
    rw [names, listing, List.filterMap_append, List.filterMap_cons_none rfl, ihLeft, ihRight]
  | foreign => rfl

/-- Parentheses and blanks are not listed. -/
def isUnlisted (c : Char) : Bool := c == '(' || c == ')' || isBlank c

/-- What the runs of a slice stand for. A run that is listed but is no token shows as `none`. -/
def readTokens (slice : List Char) : List (Option Token) :=
  ((tokensOf slice).filter fun run ↦ !run.all isUnlisted).map Token.ofRun?

/-! ## Single tokens -/

theorem isUnlisted_eq_false_of_isDigit (hc : isDigit c = true) : isUnlisted c = false := by
  have hopening : c ≠ '(' := ne_of_apply_ne isDigit (by rw [hc]; decide)
  have hclosing : c ≠ ')' := ne_of_apply_ne isDigit (by rw [hc]; decide)
  simp [isUnlisted, hopening, hclosing, isBlank_eq_false_of_isDigit hc]

theorem isUnlisted_eq_false_of_isLetter (hc : isLetter c = true) : isUnlisted c = false := by
  have hopening : c ≠ '(' := ne_of_apply_ne isLetter (by rw [hc]; decide)
  have hclosing : c ≠ ')' := ne_of_apply_ne isLetter (by rw [hc]; decide)
  simp [isUnlisted, hopening, hclosing, isBlank_eq_false_of_isLetter hc]

theorem isUnlisted_of_isBlank (hc : isBlank c = true) : isUnlisted c = true := by
  simp [isUnlisted, hc]

/-- No character is in both classes, so a run of the one is no run of the other. -/
theorem all_eq_false_of_isRun {accepts other : Char → Bool} (hrun : IsRun accepts run)
    (hapart : ∀ c, accepts c = true → other c = false) : run.all other = false := by
  obtain ⟨hnonempty, haccepted⟩ := hrun
  obtain ⟨c, rest, rfl⟩ := List.exists_cons_of_ne_nil hnonempty
  rw [List.all_cons, hapart c (haccepted c List.mem_cons_self), Bool.false_and]

theorem readTokens_of_listed (htokens : tokensOf slice = [run])
    (hlisted : run.all isUnlisted = false) : readTokens slice = [Token.ofRun? run] := by
  rw [readTokens, htokens, List.filter_cons_of_pos (by rw [hlisted]; rfl)]
  rfl

theorem readTokens_digits (hrun : IsRun isDigit run) :
    readTokens run = [some (.constant (decimalValue run))] := by
  have htokens := tokensOf_run (fun a b ha hb ↦ by simp [joins, ha, hb]) hrun
  have hlisted := all_eq_false_of_isRun hrun fun _ ↦ isUnlisted_eq_false_of_isDigit
  have hdigits : run.all isDigit = true := List.all_eq_true.2 hrun.accepted
  rw [readTokens_of_listed htokens hlisted, Token.ofRun?, if_pos hdigits]

theorem readTokens_letters (hrun : IsRun isLetter run) :
    readTokens run = [some (.identifier (String.ofList run))] := by
  have htokens := tokensOf_run (fun a b ha hb ↦ by simp [joins, ha, hb]) hrun
  have hlisted := all_eq_false_of_isRun hrun fun _ ↦ isUnlisted_eq_false_of_isLetter
  have hdigits := all_eq_false_of_isRun hrun fun _ ↦ isDigit_eq_false_of_isLetter
  have hletters : run.all isLetter = true := List.all_eq_true.2 hrun.accepted
  rw [readTokens_of_listed htokens hlisted, Token.ofRun?, if_neg (by rw [hdigits]; decide),
    if_pos hletters]

theorem readTokens_symbol (operator : Operator) :
    readTokens [operator.symbol] = [some (.operator operator)] := by
  cases operator <;> rfl

theorem readTokens_unlisted (hc : isUnlisted c = true) : readTokens [c] = [] := by
  have htokens : tokensOf [c] = [[c]] := rfl
  simp [readTokens, htokens, hc]

/-! ## Tokens one after another -/

theorem readTokens_append_cons (hc : ∀ d, joins c d = false ∧ joins d c = false)
    (slice slice' : List Char) :
    readTokens (slice ++ c :: slice') =
      readTokens slice ++ (readTokens [c] ++ readTokens slice') := by
  have hrest : [c] :: tokensOf slice' = tokensOf [c] ++ tokensOf slice' := rfl
  simp only [readTokens, tokensOf_append_cons hc, hrest, List.filter_append, List.map_append]

theorem readTokens_append_unlisted (hc : isUnlisted c = true) (slice slice' : List Char) :
    readTokens (slice ++ c :: slice') = readTokens slice ++ readTokens slice' := by
  have hdigit : isDigit c = false := Bool.eq_false_iff.2 fun hdigit ↦ by
    rw [isUnlisted_eq_false_of_isDigit hdigit] at hc
    cases hc
  have hletter : isLetter c = false := Bool.eq_false_iff.2 fun hletter ↦ by
    rw [isUnlisted_eq_false_of_isLetter hletter] at hc
    cases hc
  rw [readTokens_append_cons (joins_of_neither hdigit hletter), readTokens_unlisted hc,
    List.nil_append]

theorem readTokens_gap_append (hgap : IsGap spaced gap) (slice : List Char) :
    readTokens (gap ++ slice) = readTokens slice := by
  induction gap with
  | nil => rfl
  | cons c gap ih =>
    obtain ⟨hc, hgap⟩ := List.forall_mem_cons.1 hgap
    have hcons := readTokens_append_unlisted (isUnlisted_of_isBlank hc.2) [] (gap ++ slice)
    exact hcons.trans (ih hgap)

theorem readTokens_gap (hgap : IsGap spaced gap) : readTokens gap = [] := by
  have hempty := readTokens_gap_append hgap []
  rwa [List.append_nil] at hempty

theorem readTokens_append_gap (hgap : IsGap spaced gap) (slice : List Char) :
    readTokens (slice ++ gap) = readTokens slice := by
  cases gap with
  | nil => rw [List.append_nil]
  | cons c gap =>
    obtain ⟨hc, hgap⟩ := List.forall_mem_cons.1 hgap
    rw [readTokens_append_unlisted (isUnlisted_of_isBlank hc.2), readTokens_gap hgap,
      List.append_nil]

/-- In every rule, the tokens of the parts stand in the order in which the tree lists them. -/
theorem Spells.readTokens_eq (hspells : Spells spaced level slice tree) :
    readTokens slice = tree.listing.map some := by
  induction hspells with
  | constant hdigits hgap =>
    rw [readTokens_append_gap hgap, readTokens_digits hdigits]
    rfl
  | identifier hletters hgap =>
    rw [readTokens_append_gap hgap, readTokens_letters hletters]
    rfl
  | @parentheses gap slice gap' tree hgap _ hgap' ih =>
    calc readTokens ([] ++ '(' :: (gap ++ (slice ++ ')' :: gap')))
        = readTokens (gap ++ (slice ++ ')' :: gap')) := readTokens_append_unlisted (by decide) ..
      _ = readTokens (slice ++ ')' :: gap') := readTokens_gap_append hgap _
      _ = readTokens slice ++ readTokens gap' := readTokens_append_unlisted (by decide) ..
      _ = tree.listing.map some := by rw [readTokens_gap hgap', List.append_nil, ih]
  | operand _ _ ih => exact ih
  | operation operator _ hgap _ ihLeft ihRight =>
    rw [readTokens_append_cons (joins_symbol operator), readTokens_symbol,
      readTokens_gap_append hgap, ihLeft, ihRight, listing, List.map_append]
    rfl

/-! ## Names -/

theorem bind_name?_ofRun? (hrun : run ≠ []) :
    (Token.ofRun? run).bind Token.name? =
      if run.all isLetter then some (String.ofList run) else none := by
  unfold Token.ofRun?
  split
  · next hdigits =>
    have hrun : IsRun isDigit run := ⟨hrun, List.all_eq_true.1 hdigits⟩
    rw [all_eq_false_of_isRun hrun fun _ ↦ isLetter_eq_false_of_isDigit]
    rfl
  · split
    · rfl
    · cases Operator.ofSymbol (String.ofList run) <;> rfl

theorem filterMap_name?_readTokens (slice : List Char) :
    (readTokens slice).filterMap (·.bind Token.name?) =
      ((tokensOf slice).filter (·.all isLetter)).map String.ofList := by
  rw [readTokens, List.filterMap_map, List.filterMap_filter, ← List.filterMap_eq_map,
    List.filterMap_filter]
  refine List.filterMap_congr fun run hmem ↦ ?_
  have hrun := List.ne_nil_of_mem_splitBy hmem
  rw [Function.comp_apply, bind_name?_ofRun? hrun]
  cases hletters : run.all isLetter with
  | false => simp
  | true =>
    have hrun : IsRun isLetter run := ⟨hrun, List.all_eq_true.1 hletters⟩
    have hlisted := all_eq_false_of_isRun hrun fun _ ↦ isUnlisted_eq_false_of_isLetter
    simp [hlisted]

/-- The tokens of what was read are those of the tree, without any other character between them than
parentheses and blanks, and the names of the tree are the longest runs of letters. -/
theorem listing_of_parse (spaced : Bool) (text : Text) (tree : Expression) (position : Int)
    (hparse : (parse spaced text).outcome = .success tree position) :
    readTokens (text.toList.take position.toNat) = tree.listing.map some ∧
    tree.names = ((tokensOf (text.toList.take position.toNat)).filter (·.all isLetter)).map
      String.ofList := by
  obtain ⟨gap, body, hslice, hgap, hbody⟩ := (parse_eq_success_iff.1 hparse).derives
  have hlisting : readTokens (text.toList.take position.toNat) = tree.listing.map some := by
    rw [hslice, readTokens_gap_append hgap, hbody.readTokens_eq]
  refine ⟨hlisting, ?_⟩
  rw [← filterMap_name?_readTokens, hlisting, List.filterMap_map, names_eq_filterMap_listing]
  rfl

/-- Parentheses are left out, and so is an operator that nothing follows. -/
theorem listing_of_parse_difference :
    (parse true #['(', 'x', ' ', '-', 'y', ')', '+']).outcome =
      .success (operation (identifier "x") .subtract (identifier "y")) 6 ∧
    readTokens ['(', 'x', ' ', '-', 'y', ')'] =
      [some (.identifier "x"), some (.operator .subtract), some (.identifier "y")] := by
  have hparse : (parse true #['(', 'x', ' ', '-', 'y', ')', '+']).outcome =
      .success (operation (identifier "x") .subtract (identifier "y")) 6 := by decide +kernel
  exact ⟨hparse, (listing_of_parse true #['(', 'x', ' ', '-', 'y', ')', '+'] _ 6 hparse).1⟩

end Expression

end ParserCombinators
