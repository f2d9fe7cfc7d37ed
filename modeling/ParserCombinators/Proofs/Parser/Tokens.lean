import Mathlib.Data.List.TakeWhile
import ParserCombinators.Parser.Lexical
import ParserCombinators.Proofs.Number.Decimal
import ParserCombinators.Proofs.Parser.Choosing
import ParserCombinators.Proofs.Parser.Repetition

/-!
# What the parsers for tokens read

A repetition of one character class reads the longest run of that class. Digits, letters and blanks
are such runs, and a token takes the run of blanks that follows it.
-/

namespace ParserCombinators

namespace Parser

theorem valueOfDigits_eq_decimalValue (digits : List Char) :
    valueOfDigits digits = decimalValue digits := by
  rw [decimalValue, Nat.ofDigits_eq_foldr, List.foldr_reverse, List.foldl_map,
    valueOfDigits]
  congr 1
  funext total c
  simp only [Nat.cast_id]
  omega

variable {κ ρ α : Type} {text : Text} {rules : κ → Matcher ρ} {accepts : Char → Bool}
  {left slice rest : List Char}

/-! ## Runs of one class -/

theorem reads_many_satisfy (hleft : slice ++ rest <:+ text.toList)
    (hslice : ∀ c ∈ slice, accepts c = true) (hrest : ∀ c ∈ rest.head?, accepts c = false) :
    (satisfy accepts : Parser κ ρ Char).many.Reads text rules (slice ++ rest) slice rest := by
  induction slice with
  | nil => exact (rejects_satisfy hleft hrest).many
  | cons c slice ih =>
    have htail : slice ++ rest <:+ text.toList := (List.suffix_cons c _).trans hleft
    have hread : (satisfy accepts : Parser κ ρ Char).Reads text rules _ c (slice ++ rest) :=
      reads_satisfy hleft (hslice c List.mem_cons_self)
    exact hread.many (by simp) (ih htail fun d hd ↦ hslice d (List.mem_cons_of_mem c hd))

theorem reads_many1_satisfy (hleft : slice ++ rest <:+ text.toList) (hslice : IsRun accepts slice)
    (hrest : ∀ c ∈ rest.head?, accepts c = false) :
    (satisfy accepts : Parser κ ρ Char).many1.Reads text rules (slice ++ rest) slice rest := by
  obtain ⟨hnonempty, haccepted⟩ := hslice
  cases slice with
  | nil => exact absurd rfl hnonempty
  | cons c slice =>
    have htail : slice ++ rest <:+ text.toList := (List.suffix_cons c _).trans hleft
    have hhead : (satisfy accepts : Parser κ ρ Char).Reads text rules _ c (slice ++ rest) :=
      reads_satisfy hleft (haccepted c List.mem_cons_self)
    exact hhead.many1
      (reads_many_satisfy htail (fun d hd ↦ haccepted d (List.mem_cons_of_mem c hd)) hrest)

/-- The longest run of a class at the start of a list. -/
theorem exists_longest_run (accepts : Char → Bool) (left : List Char) :
    ∃ slice rest, left = slice ++ rest ∧ (∀ c ∈ slice, accepts c = true) ∧
      ∀ c ∈ rest.head?, accepts c = false := by
  refine ⟨left.takeWhile accepts, left.dropWhile accepts, List.takeWhile_append_dropWhile.symm,
    fun c hc ↦ List.mem_takeWhile_imp hc, fun c hc ↦ ?_⟩
  have := List.head?_dropWhile_not accepts left
  simpa [Option.mem_def.1 hc] using this

theorem exists_reads_many_satisfy (rules : κ → Matcher ρ) (accepts : Char → Bool)
    (hleft : left <:+ text.toList) :
    ∃ slice rest, left = slice ++ rest ∧ (∀ c ∈ slice, accepts c = true) ∧
      (satisfy accepts : Parser κ ρ Char).many.Reads text rules left slice rest := by
  obtain ⟨slice, rest, rfl, hslice, hrest⟩ := exists_longest_run accepts left
  exact ⟨slice, rest, rfl, hslice, reads_many_satisfy hleft hslice hrest⟩

theorem respects_many1_satisfy (hleft : left <:+ text.toList) :
    (satisfy accepts : Parser κ ρ Char).many1.Respects text rules
      (fun slice values ↦ values = slice ∧ IsRun accepts slice) left := by
  cases left with
  | nil => exact .inl (rejects_satisfy hleft (by simp)).many1
  | cons c left =>
    cases hc : accepts c with
    | false => exact .inl (rejects_satisfy hleft (by simpa using hc)).many1
    | true =>
      obtain ⟨slice, rest, rfl, hslice, hreads⟩ :=
        exists_reads_many_satisfy rules accepts ((List.suffix_cons c left).trans hleft)
      refine .inr ⟨c :: slice, c :: slice, rest, rfl, ⟨rfl, by simp, ?_⟩,
        (reads_satisfy hleft hc).many1 hreads⟩
      exact List.forall_mem_cons.2 ⟨hc, hslice⟩

theorem rejects_many1_satisfy (hleft : left <:+ text.toList)
    (haccepts : ∀ c ∈ left.head?, accepts c = false) :
    (satisfy accepts : Parser κ ρ Char).many1.Rejects text rules left :=
  (rejects_satisfy hleft haccepts).many1

/-! ## Single characters, integers and identifiers -/

theorem reads_char {expected : Char} (hleft : expected :: rest <:+ text.toList) :
    (char expected : Parser κ ρ Char).Reads text rules (expected :: rest) expected rest :=
  reads_satisfy hleft (beq_self_eq_true expected)

theorem rejects_char {expected : Char} (hleft : left <:+ text.toList)
    (hhead : left.head? ≠ some expected) :
    (char expected : Parser κ ρ Char).Rejects text rules left := by
  apply rejects_satisfy hleft
  intro c hc
  rw [beq_eq_false_iff_ne]
  rintro rfl
  exact hhead hc

theorem respects_char {expected : Char} (hleft : left <:+ text.toList) :
    (char expected : Parser κ ρ Char).Respects text rules
      (fun slice c ↦ slice = [expected] ∧ c = expected) left := by
  refine (respects_satisfy hleft).mono fun slice c _ ⟨hslice, hc⟩ ↦ ?_
  rw [eq_of_beq hc] at hslice ⊢
  exact ⟨hslice, rfl⟩

theorem reads_skipChar {expected : Char} (hleft : expected :: rest <:+ text.toList) :
    (skipChar expected : Parser κ ρ Unit).Reads text rules (expected :: rest) () rest :=
  (reads_char hleft).map

theorem rejects_skipChar {expected : Char} (hleft : left <:+ text.toList)
    (hhead : left.head? ≠ some expected) :
    (skipChar expected : Parser κ ρ Unit).Rejects text rules left :=
  (rejects_char hleft hhead).map

theorem respects_skipChar {expected : Char} (hleft : left <:+ text.toList) :
    (skipChar expected : Parser κ ρ Unit).Respects text rules
      (fun slice _ ↦ slice = [expected]) left :=
  (respects_char hleft).map fun _ _ ⟨hslice, _⟩ ↦ hslice

theorem reads_integer (hleft : slice ++ rest <:+ text.toList)
    (hslice : IsRun Character.isDigit slice)
    (hrest : ∀ c ∈ rest.head?, Character.isDigit c = false) :
    (integer : Parser κ ρ Nat).Reads text rules (slice ++ rest) (decimalValue slice) rest := by
  rw [← valueOfDigits_eq_decimalValue]
  exact (reads_many1_satisfy hleft hslice hrest).map

theorem respects_integer (hleft : left <:+ text.toList) :
    (integer : Parser κ ρ Nat).Respects text rules
      (fun slice n ↦ IsRun Character.isDigit slice ∧ n = decimalValue slice) left := by
  refine (respects_many1_satisfy hleft).map fun slice digits ⟨hdigits, hrun⟩ ↦ ⟨hrun, ?_⟩
  rw [hdigits, valueOfDigits_eq_decimalValue]

theorem reads_identifier (hleft : slice ++ rest <:+ text.toList)
    (hslice : IsRun Character.isLetter slice)
    (hrest : ∀ c ∈ rest.head?, Character.isLetter c = false) :
    (identifier : Parser κ ρ String).Reads text rules (slice ++ rest) (String.ofList slice) rest :=
  (reads_many1_satisfy hleft hslice hrest).map

theorem respects_identifier (hleft : left <:+ text.toList) :
    (identifier : Parser κ ρ String).Respects text rules
      (fun slice name ↦ IsRun Character.isLetter slice ∧ name = String.ofList slice) left := by
  refine (respects_many1_satisfy hleft).map fun slice letters ⟨hletters, hrun⟩ ↦ ⟨hrun, ?_⟩
  rw [hletters]

/-! ## Fixed texts -/

theorem reads_spelling {value : α} (hleft : slice ++ rest <:+ text.toList) :
    (sequence none (spelling value slice) : Parser κ ρ α).Reads text rules (slice ++ rest) value
      rest := by
  induction slice with
  | nil => rfl
  | cons c slice ih => exact (reads_char hleft).step (ih ((List.suffix_cons c _).trans hleft))

theorem respects_spelling {value : α} {expected : List Char} (hleft : left <:+ text.toList) :
    (sequence none (spelling value expected) : Parser κ ρ α).Respects text rules
      (fun slice other ↦ slice = expected ∧ other = value) left := by
  induction expected generalizing left with
  | nil => exact respects_finish ⟨rfl, rfl⟩
  | cons c expected ih =>
    refine (respects_char hleft).step fun slice other rest hsplit ⟨hslice, _⟩ ↦ ?_
    have hrest := Text.suffix_of_append hleft hsplit
    refine (ih hrest).mono fun slice' other _ ⟨hslice', hother⟩ ↦ ⟨?_, hother⟩
    rw [hslice, hslice', List.singleton_append]

theorem reads_literal {expected : String} (hleft : expected.toList ++ rest <:+ text.toList) :
    (literal expected : Parser κ ρ String).Reads text rules (expected.toList ++ rest) expected
      rest :=
  reads_spelling hleft

theorem respects_literal {expected : String} (hleft : left <:+ text.toList) :
    (literal expected : Parser κ ρ String).Respects text rules
      (fun slice other ↦ slice = expected.toList ∧ other = expected) left :=
  respects_spelling hleft

theorem rejects_literal {expected : String} {c : Char} {tail : List Char}
    (hexpected : expected.toList = c :: tail) (hleft : left <:+ text.toList)
    (hhead : left.head? ≠ some c) :
    (literal expected : Parser κ ρ String).Rejects text rules left := by
  rw [literal, hexpected]
  exact (rejects_char hleft hhead).step

/-! ## Blanks around tokens -/

theorem Reads.lexeme {inner : Parser κ ρ α} {value : α} {gap : List Char}
    (hinner : inner.Reads text rules left value (gap ++ rest)) (hrest : gap ++ rest <:+ text.toList)
    (hgap : ∀ c ∈ gap, Character.isBlank c = true)
    (hstop : ∀ c ∈ rest.head?, Character.isBlank c = false) :
    inner.lexeme.Reads text rules left value rest :=
  hinner.keepLeft (reads_many_satisfy hrest hgap hstop)

theorem respects_blanks (hleft : left <:+ text.toList) :
    (blanks : Parser κ ρ (List Char)).Respects text rules
      (fun gap _ ↦ ∀ c ∈ gap, Character.isBlank c = true) left := by
  obtain ⟨gap, rest, hsplit, hgap, hreads⟩ :=
    exists_reads_many_satisfy rules Character.isBlank hleft
  exact .inr ⟨gap, gap, rest, hsplit, hgap, hreads⟩

theorem Respects.lexeme {inner : Parser κ ρ α} {language : Language α}
    (hleft : left <:+ text.toList) (hinner : inner.Respects text rules language left) :
    inner.lexeme.Respects text rules (fun slice value ↦ ∃ token gap, slice = token ++ gap ∧
      language token value ∧ ∀ c ∈ gap, Character.isBlank c = true) left := by
  refine hinner.keepLeft (fun slice value rest hsplit _ ↦ respects_blanks ?_)
    fun token value gap _ htoken hgap ↦ ⟨token, gap, rfl, htoken, hgap⟩
  exact Text.suffix_of_append hleft hsplit

end Parser

end ParserCombinators
