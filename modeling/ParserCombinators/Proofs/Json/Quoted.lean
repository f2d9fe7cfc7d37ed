import ParserCombinators.Proofs.Json.Hexadecimal
import ParserCombinators.Proofs.Parser.Tokens

/-!
# Quoted strings of JSON

Between its quotes a string is a row of written points, and each of them can be written in up to
three ways. The parser takes a run of plain characters at once, so a chunk that it reads is a row of
written points as well, and no written point starts with a quote.
-/

namespace ParserCombinators.Json

open Character
open ParserCombinators.Parser

variable {κ ρ : Type} {text : Text} {rules : κ → Matcher ρ} {left rest slice body : List Char}
  {point : CodePoint} {points : CodePoints}

/-! ## The ways to write a string -/

/-- The mark of the characters that can be written as a backslash with a mark. -/
def escapeMark? : Char → Option Char
  | '\x08' => some 'b'
  | '\t' => some 't'
  | '\n' => some 'n'
  | '\x0c' => some 'f'
  | '\r' => some 'r'
  | '\x22' => some '\x22'
  | '/' => some '/'
  | '\\' => some '\\'
  | _ => none

/-- A code point as it can stand in a string. -/
inductive WrittenPoint : Language CodePoint
  | plain {c : Char} : c ≠ '\\' → c ≠ '\x22' → WrittenPoint [c] (.ofChar c)
  | escape {c mark : Char} : escapeMark? c = some mark → WrittenPoint ['\\', mark] (.ofChar c)
  /-- Four hexadecimal digits, each of either case. -/
  | hexadecimal {point : CodePoint} {digits : List Char} :
      point.val ≤ 0xFFFF → digits.map Char.toLower = Quoted.hexadecimal 4 point.val →
      WrittenPoint ('\\' :: 'u' :: digits) point

def WrittenString : Language CodePoints := fun slice points ↦
  ∃ body, slice = '\x22' :: (body ++ ['\x22']) ∧ WrittenPoint.Repeated body points

/-! ## Rows of written points -/

/-- What one round of the parser reads. -/
def Chunk : Language CodePoints := fun slice points ↦
  slice ≠ [] ∧ WrittenPoint.Repeated slice points

/-- One round of the parser. -/
abbrev chunk : Parser κ ρ CodePoints := .firstOf plain [unicodeEscape, simpleEscape]

theorem WrittenPoint.repeated (hpoint : WrittenPoint slice point) :
    WrittenPoint.Repeated slice [point] := by
  have hrepeated := Language.Repeated.cons hpoint .nil
  rwa [List.append_nil] at hrepeated

theorem WrittenPoint.nonempty (hpoint : WrittenPoint slice point) : slice ≠ [] := by
  cases hpoint <;> exact List.cons_ne_nil _ _

theorem isPlain_iff {c : Char} : isPlain c = true ↔ c ≠ '\\' ∧ c ≠ '\x22' := by
  simp [isPlain]

theorem repeated_plain (hslice : ∀ c ∈ slice, isPlain c = true) :
    WrittenPoint.Repeated slice (CodePoints.ofChars slice) := by
  induction slice with
  | nil => exact .nil
  | cons c slice ih =>
    obtain ⟨hescape, hquote⟩ := isPlain_iff.1 (hslice c List.mem_cons_self)
    exact .cons (.plain hescape hquote) (ih fun d hd ↦ hslice d (List.mem_cons_of_mem c hd))

/-! ## Escapes -/

/-- The marks that the parser looks up are those that are written. -/
theorem lookup_escapes {mark c : Char} :
    escapes.lookup mark = some c ↔ escapeMark? c = some mark := by
  constructor
  · intro hlookup
    have hall : ∀ pair ∈ escapes, escapeMark? pair.2 = some pair.1 := by decide
    obtain ⟨before, after, hsplit, -⟩ := List.lookup_eq_some_iff.1 hlookup
    apply hall (mark, c)
    rw [hsplit]
    exact List.mem_append_right before List.mem_cons_self
  · intro hmark
    unfold escapeMark? at hmark
    split at hmark <;> cases hmark
    all_goals rfl

/-- Four digits always name a code point. -/
theorem hexPoint_of_length {digits : List Char} (hlength : digits.length = 4)
    (hdigits : ∀ c ∈ digits, (hexValue? c).isSome = true) :
    hexPoint digits = .ok (CodePoint.ofNat (hexNumber digits)) := by
  have hnonempty : digits ≠ [] := by
    rintro rfl
    cases hlength
  have hbound : hexNumber digits < 0x110000 := by
    have := hexNumber_lt digits
    rw [hlength] at this
    omega
  rw [hexPoint, dif_pos ⟨⟨hnonempty, List.all_eq_true.2 hdigits⟩, hbound⟩]
  congr 1
  exact Fin.ext (Nat.mod_eq_of_lt hbound).symm

theorem writtenPoint_of_digits {digits : List Char} (hlength : digits.length = 4)
    (hdigits : ∀ c ∈ digits, (hexValue? c).isSome = true) :
    WrittenPoint ('\\' :: 'u' :: digits) (CodePoint.ofNat (hexNumber digits)) := by
  have hbound : hexNumber digits < 16 ^ 4 := hlength ▸ hexNumber_lt digits
  have hpoint : (CodePoint.ofNat (hexNumber digits)).val = hexNumber digits :=
    Nat.mod_eq_of_lt (by omega)
  apply WrittenPoint.hexadecimal
  · rw [hpoint]
    exact Nat.le_of_lt_succ hbound
  · rw [hpoint]
    exact (map_toLower_eq_hexadecimal_iff (by decide) hbound).2 ⟨hlength, hdigits, rfl⟩

theorem hexDigits_zero {read : List Char} (hlength : read.length = 4)
    (hread : ∀ c ∈ read, (hexValue? c).isSome = true) :
    (hexDigits read 0 : Script κ ρ CodePoints) =
      .finish (.ok [CodePoint.ofNat (hexNumber read)]) := by
  rw [hexDigits, hexPoint_of_length hlength hread]
  rfl

/-! ## Chunks that are read -/

theorem respects_plain (hleft : left <:+ text.toList) :
    (plain : Parser κ ρ CodePoints).Respects text rules Chunk left := by
  refine (respects_many1_satisfy hleft).map fun slice _ ⟨hvalues, hrun⟩ ↦ ?_
  rw [hvalues]
  exact ⟨hrun.nonempty, repeated_plain hrun.accepted⟩

theorem respects_hexDigits {read : List Char} {wanted : Nat} (hleft : left <:+ text.toList)
    (hread : ∀ c ∈ read, (hexValue? c).isSome = true) (hwanted : read.length + wanted = 4) :
    (Parser.sequence none (hexDigits read wanted) : Parser κ ρ CodePoints).Respects text rules
      (fun slice points ↦ slice.length = wanted ∧ (∀ c ∈ slice, (hexValue? c).isSome = true) ∧
        points = [CodePoint.ofNat (hexNumber (read ++ slice))]) left := by
  induction wanted generalizing read left with
  | zero =>
    rw [hexDigits_zero hwanted hread]
    exact respects_finish ⟨rfl, List.forall_mem_nil _, by rw [List.append_nil]⟩
  | succ wanted ih =>
    refine (respects_satisfy hleft).step fun slice c rest hsplit ⟨hslice, hc⟩ ↦ ?_
    have hlonger : ∀ d ∈ read ++ [c], (hexValue? d).isSome = true :=
      List.forall_mem_append.2 ⟨hread, List.forall_mem_singleton.2 hc⟩
    have hfewer : (read ++ [c]).length + wanted = 4 := by
      rw [List.length_append, List.length_singleton]
      omega
    apply (ih (Text.suffix_of_append hleft hsplit) hlonger hfewer).mono
    rintro slice' points - ⟨hlength, hdigits, hpoints⟩
    rw [hslice, List.singleton_append]
    refine ⟨by rw [List.length_cons, hlength], List.forall_mem_cons.2 ⟨hc, hdigits⟩, ?_⟩
    rw [hpoints, List.append_assoc, List.singleton_append]

theorem respects_unicodeEscape (hleft : left <:+ text.toList) :
    (unicodeEscape : Parser κ ρ CodePoints).Respects text rules Chunk left := by
  refine (respects_literal hleft).step fun slice _ rest hsplit ⟨hslice, _⟩ ↦ ?_
  have hrest := Text.suffix_of_append hleft hsplit
  apply (respects_hexDigits hrest (List.forall_mem_nil _) (Nat.zero_add 4)).mono
  rintro digits points - ⟨hlength, hdigits, rfl⟩
  have hpoint : WrittenPoint (slice ++ digits) (CodePoint.ofNat (hexNumber digits)) :=
    hslice ▸ writtenPoint_of_digits hlength hdigits
  exact ⟨hpoint.nonempty, hpoint.repeated⟩

theorem respects_simpleEscape (hleft : left <:+ text.toList) :
    (simpleEscape : Parser κ ρ CodePoints).Respects text rules Chunk left := by
  have hescape : (Parser.keepRight (.skipChar '\\')
      (.satisfy fun c ↦ (escapes.lookup c).isSome) : Parser κ ρ Char).Respects text rules
      (fun slice mark ↦ slice = ['\\', mark] ∧ (escapes.lookup mark).isSome = true) left := by
    refine (respects_skipChar hleft).keepRight
      (fun slice _ rest hsplit _ ↦ respects_satisfy (Text.suffix_of_append hleft hsplit)) ?_
    rintro _ _ _ mark rfl ⟨rfl, hmark⟩
    exact ⟨rfl, hmark⟩
  refine hescape.convert fun slice mark _ ⟨hslice, hmark⟩ ↦ ?_
  obtain ⟨c, hc⟩ := Option.isSome_iff_exists.1 hmark
  have hpoint : WrittenPoint slice (CodePoint.ofChar c) := hslice ▸ .escape (lookup_escapes.1 hc)
  exact ⟨[CodePoint.ofChar c], by rw [escapedChar, hc]; rfl, hpoint.nonempty, hpoint.repeated⟩

theorem repeated_flatten {chunks : List CodePoints}
    (hchunks : Language.Repeated Chunk slice chunks) :
    WrittenPoint.Repeated slice chunks.flatten := by
  induction hchunks with
  | nil => exact .nil
  | cons hchunk _ ih => exact hchunk.2.append ih

theorem respects_chunk (rules : κ → Matcher ρ) (hleft : left <:+ text.toList) :
    (chunk : Parser κ ρ CodePoints).Respects text rules Chunk left := by
  apply respects_firstOf
  intro parser hparser
  simp only [List.mem_cons, List.not_mem_nil, or_false] at hparser
  obtain rfl | rfl | rfl := hparser
  · exact respects_plain hleft
  · exact respects_unicodeEscape hleft
  · exact respects_simpleEscape hleft

theorem respects_chunks (hleft : left <:+ text.toList) :
    (Parser.many chunk : Parser κ ρ (List CodePoints)).Respects text rules
      (fun slice chunks ↦ WrittenPoint.Repeated slice chunks.flatten) left := by
  obtain ⟨slice, chunks, rest, hsplit, hchunks, hreads⟩ :=
    reads_many (fun rest hrest ↦ respects_chunk rules (hrest.trans hleft))
      fun slice points hchunk ↦ hchunk.1
  exact .inr ⟨slice, chunks, rest, hsplit, repeated_flatten hchunks, hreads⟩

theorem respects_string (hleft : left <:+ text.toList) :
    (string : Parser κ ρ CodePoints).Respects text rules (fun slice points ↦ ∃ quoted gap,
      slice = quoted ++ gap ∧ WrittenString quoted points ∧ ∀ c ∈ gap, isBlank c = true) left := by
  have hbetween : (Parser.between (.skipChar '\x22') (.many chunk) (.skipChar '\x22') :
      Parser κ ρ (List CodePoints)).Respects text rules
      (fun slice chunks ↦ WrittenString slice chunks.flatten) left := by
    refine (respects_skipChar hleft).between
      (fun slice _ rest hsplit _ ↦ respects_chunks (Text.suffix_of_append hleft hsplit))
      (fun slice _ rest hsplit _ ↦ respects_skipChar (Text.suffix_of_append hleft hsplit)) ?_
    rintro _ _ body chunks _ _ rfl hbody rfl
    exact ⟨body, rfl, hbody⟩
  exact (hbetween.map fun _ _ hstring ↦ hstring).lexeme hleft

/-! ## Chunks that stand there -/

theorem reads_plain {run : List Char} (hleft : run ++ rest <:+ text.toList)
    (hrun : IsRun isPlain run) (hrest : ∀ c ∈ rest.head?, isPlain c = false) :
    (plain : Parser κ ρ CodePoints).Reads text rules (run ++ rest) (CodePoints.ofChars run) rest :=
  (reads_many1_satisfy hleft hrun hrest).map

theorem rejects_plain (hleft : left <:+ text.toList)
    (hhead : ∀ c ∈ left.head?, isPlain c = false) :
    (plain : Parser κ ρ CodePoints).Rejects text rules left :=
  (rejects_many1_satisfy hleft hhead).map

theorem reads_hexDigits {read digits : List Char} (hleft : digits ++ rest <:+ text.toList)
    (hread : ∀ c ∈ read, (hexValue? c).isSome = true)
    (hdigits : ∀ c ∈ digits, (hexValue? c).isSome = true)
    (hlength : read.length + digits.length = 4) :
    (Parser.sequence none (hexDigits read digits.length) : Parser κ ρ CodePoints).Reads text rules
      (digits ++ rest) [CodePoint.ofNat (hexNumber (read ++ digits))] rest := by
  induction digits generalizing read with
  | nil =>
    rw [List.append_nil, List.length_nil, hexDigits_zero hlength hread]
    exact reads_finish
  | cons c digits ih =>
    obtain ⟨hc, hdigits⟩ := List.forall_mem_cons.1 hdigits
    have htail : digits ++ rest <:+ text.toList := (List.suffix_cons c _).trans hleft
    have hlonger : ∀ d ∈ read ++ [c], (hexValue? d).isSome = true :=
      List.forall_mem_append.2 ⟨hread, List.forall_mem_singleton.2 hc⟩
    have hfewer : (read ++ [c]).length + digits.length = 4 := by
      rw [List.length_cons] at hlength
      rw [List.length_append, List.length_singleton]
      omega
    have hrest : (Parser.sequence none (hexDigits (read ++ [c]) digits.length) :
        Parser κ ρ CodePoints).Reads text rules _ _ rest := ih htail hlonger hdigits hfewer
    rw [List.append_assoc, List.singleton_append] at hrest
    exact (reads_satisfy hleft hc).step hrest

theorem reads_unicodeEscape {digits : List Char}
    (hleft : '\\' :: 'u' :: (digits ++ rest) <:+ text.toList) (hlength : digits.length = 4)
    (hdigits : ∀ c ∈ digits, (hexValue? c).isSome = true) :
    (unicodeEscape : Parser κ ρ CodePoints).Reads text rules ('\\' :: 'u' :: (digits ++ rest))
      [CodePoint.ofNat (hexNumber digits)] rest := by
  have hliteral : (Parser.literal "\\u" : Parser κ ρ String).Reads text rules
      ('\\' :: 'u' :: (digits ++ rest)) "\\u" (digits ++ rest) := reads_literal hleft
  have hdigitsLeft : digits ++ rest <:+ text.toList :=
    (List.suffix_append ['\\', 'u'] _).trans hleft
  have hread : (Parser.sequence none (hexDigits [] digits.length) :
      Parser κ ρ CodePoints).Reads text rules _ _ rest :=
    reads_hexDigits hdigitsLeft (List.forall_mem_nil _) hdigits (by rw [hlength]; rfl)
  rw [hlength] at hread
  exact hliteral.step hread

theorem rejects_unicodeEscape {mark : Char} (hleft : '\\' :: mark :: rest <:+ text.toList)
    (hmark : mark ≠ 'u') :
    (unicodeEscape : Parser κ ρ CodePoints).Rejects text rules ('\\' :: mark :: rest) := by
  have hliteral : (Parser.literal "\\u" : Parser κ ρ String).Rejects text rules
      ('\\' :: mark :: rest) := by
    apply (respects_literal hleft).rejects
    rintro _ _ tail hsplit ⟨rfl, -⟩
    exact hmark (List.cons.inj (List.cons.inj hsplit).2).1
  exact hliteral.step

theorem reads_simpleEscape {mark c : Char} (hleft : '\\' :: mark :: rest <:+ text.toList)
    (hmark : escapeMark? c = some mark) :
    (simpleEscape : Parser κ ρ CodePoints).Reads text rules ('\\' :: mark :: rest)
      [CodePoint.ofChar c] rest := by
  have hlookup := lookup_escapes.2 hmark
  have hsome : (escapes.lookup mark).isSome = true := by rw [hlookup, Option.isSome_some]
  have hvalue : escapedChar mark = .ok [CodePoint.ofChar c] := by
    rw [escapedChar, hlookup]
    rfl
  have htail : mark :: rest <:+ text.toList := (List.suffix_cons _ _).trans hleft
  have hsatisfy : (Parser.satisfy fun c ↦ (escapes.lookup c).isSome : Parser κ ρ Char).Reads text
      rules (mark :: rest) mark rest := reads_satisfy htail hsome
  exact ((reads_skipChar hleft).keepRight hsatisfy).convert hvalue

theorem reads_chunk_of_escape (hpoint : WrittenPoint slice point)
    (hleft : slice ++ rest <:+ text.toList) (hhead : slice.head? = some '\\') :
    (chunk : Parser κ ρ CodePoints).Reads text rules (slice ++ rest) [point] rest := by
  have hplain {tail : List Char} (hleft : '\\' :: tail <:+ text.toList) :
      (plain : Parser κ ρ CodePoints).Rejects text rules ('\\' :: tail) :=
    rejects_plain hleft (forall_mem_head?_cons (by decide) tail)
  cases hpoint with
  | plain hescape => exact absurd (Option.some.inj hhead) hescape
  | @escape c mark hmark =>
    have hne : mark ≠ 'u' := by
      rintro rfl
      have hlookup := lookup_escapes.2 hmark
      have hnone : escapes.lookup 'u' = none := by decide
      rw [hnone] at hlookup
      cases hlookup
    exact (hplain hleft).firstOf_reads ((rejects_unicodeEscape hleft hne).firstOf_reads
      (reads_simpleEscape hleft hmark).firstOf)
  | @hexadecimal _ digits hbound hdigits =>
    obtain ⟨hlength, hdigits, hnumber⟩ :=
      (map_toLower_eq_hexadecimal_iff (by decide) (Nat.lt_succ_of_le hbound)).1 hdigits
    have hpoint : CodePoint.ofNat (hexNumber digits) = point := by
      rw [hnumber, CodePoint.ofNat, Fin.ofNat_val_eq_self]
    rw [← hpoint]
    exact (hplain hleft).firstOf_reads (reads_unicodeEscape hleft hlength hdigits).firstOf

theorem rejects_chunk (hleft : '\x22' :: rest <:+ text.toList) :
    (chunk : Parser κ ρ CodePoints).Rejects text rules ('\x22' :: rest) := by
  have hplain : (plain : Parser κ ρ CodePoints).Rejects text rules ('\x22' :: rest) :=
    rejects_plain hleft (forall_mem_head?_cons (by decide) rest)
  have hescape : ('\x22' :: rest).head? ≠ some '\\' := by simp
  have hunicode : (unicodeEscape : Parser κ ρ CodePoints).Rejects text rules ('\x22' :: rest) :=
    (rejects_literal rfl hleft hescape).step
  have hsimple : (simpleEscape : Parser κ ρ CodePoints).Rejects text rules ('\x22' :: rest) :=
    (rejects_skipChar hleft hescape).keepRight.convert
  exact hplain.firstOf_rejects (hunicode.firstOf_rejects hsimple.firstOf_nil)

/-- A run of plain characters is one chunk, if there is any. -/
theorem exists_reads_run {run : List Char} {chunks : List CodePoints}
    (hrun : ∀ c ∈ run, isPlain c = true) (hleft : run ++ left <:+ text.toList)
    (hstop : ∀ c ∈ left.head?, isPlain c = false)
    (hreads : (Parser.many chunk : Parser κ ρ (List CodePoints)).Reads text rules left chunks
      rest) :
    ∃ chunks', chunks'.flatten = CodePoints.ofChars run ++ chunks.flatten ∧
      (Parser.many chunk : Parser κ ρ (List CodePoints)).Reads text rules (run ++ left) chunks'
        rest := by
  by_cases hnonempty : run = []
  · subst hnonempty
    exact ⟨chunks, rfl, hreads⟩
  · have hchunk : (chunk : Parser κ ρ CodePoints).Reads text rules (run ++ left)
        (CodePoints.ofChars run) left := (reads_plain hleft ⟨hnonempty, hrun⟩ hstop).firstOf
    exact ⟨CodePoints.ofChars run :: chunks, rfl,
      hchunk.many (length_lt_append hnonempty left) hreads⟩

/-- Written points are read up to the closing quote. The induction goes over the points, with the
plain characters in front of them that belong to one chunk. -/
theorem reads_chunks (rules : κ → Matcher ρ) (hbody : WrittenPoint.Repeated body points)
    {run : List Char}
    (hrun : ∀ c ∈ run, isPlain c = true) (hleft : run ++ (body ++ '\x22' :: rest) <:+ text.toList) :
    ∃ chunks, chunks.flatten = CodePoints.ofChars run ++ points ∧
      (Parser.many chunk : Parser κ ρ (List CodePoints)).Reads text rules
        (run ++ (body ++ '\x22' :: rest)) chunks ('\x22' :: rest) := by
  induction hbody generalizing run with
  | nil =>
    have hclosing : '\x22' :: rest <:+ text.toList := (List.suffix_append run _).trans hleft
    have hstop : ∀ c ∈ ('\x22' :: rest).head?, isPlain c = false :=
      forall_mem_head?_cons (by decide) rest
    exact exists_reads_run hrun hleft hstop (rejects_chunk hclosing).many
  | @cons slice body point points hpoint hbody ih =>
    have hescaped (hhead : slice.head? = some '\\') : ∃ chunks,
        chunks.flatten = CodePoints.ofChars run ++ point :: points ∧
        (Parser.many chunk : Parser κ ρ (List CodePoints)).Reads text rules
          (run ++ (slice ++ body ++ '\x22' :: rest)) chunks ('\x22' :: rest) := by
      rw [List.append_assoc] at hleft ⊢
      have hslice := (List.suffix_append run _).trans hleft
      have htail := (List.suffix_append slice _).trans hslice
      obtain ⟨chunks, hchunks, hreads⟩ := ih (List.forall_mem_nil _) htail
      have hchunk : (chunk : Parser κ ρ CodePoints).Reads text rules _ [point] _ :=
        reads_chunk_of_escape hpoint hslice hhead
      have hshorter := length_lt_append hpoint.nonempty (body ++ '\x22' :: rest)
      have hstop : ∀ c ∈ (slice ++ (body ++ '\x22' :: rest)).head?, isPlain c = false := by
        obtain ⟨tail, rfl⟩ := List.head?_eq_some_iff.1 hhead
        exact forall_mem_head?_cons (by decide) _
      obtain ⟨chunks', hchunks', hreads'⟩ :=
        exists_reads_run hrun hleft hstop (hchunk.many hshorter hreads)
      refine ⟨chunks', ?_, hreads'⟩
      rw [hchunks', List.flatten_cons, hchunks]
      rfl
    cases hpoint with
    | @plain c hescape hquote =>
      have hlonger : ∀ d ∈ run ++ [c], isPlain d = true :=
        List.forall_mem_append.2
          ⟨hrun, List.forall_mem_singleton.2 (isPlain_iff.2 ⟨hescape, hquote⟩)⟩
      have hsplit : run ++ ([c] ++ body ++ '\x22' :: rest) =
          (run ++ [c]) ++ (body ++ '\x22' :: rest) := by simp
      rw [hsplit] at hleft ⊢
      obtain ⟨chunks, hchunks, hreads⟩ := ih hlonger hleft
      refine ⟨chunks, ?_, hreads⟩
      rw [hchunks]
      simp [CodePoints.ofChars]
    | escape => exact hescaped rfl
    | hexadecimal => exact hescaped rfl

theorem reads_string (rules : κ → Matcher ρ) {gap : List Char}
    (hstring : WrittenString slice points) (hleft : slice ++ (gap ++ rest) <:+ text.toList)
    (hgap : ∀ c ∈ gap, isBlank c = true) (hrest : ∀ c ∈ rest.head?, isBlank c = false) :
    (string : Parser κ ρ CodePoints).Reads text rules (slice ++ (gap ++ rest)) points rest := by
  obtain ⟨body, rfl, hbody⟩ := hstring
  simp only [List.cons_append, List.append_assoc, List.nil_append] at hleft ⊢
  have hinner : body ++ '\x22' :: (gap ++ rest) <:+ text.toList :=
    (List.suffix_cons _ _).trans hleft
  have hclosing : '\x22' :: (gap ++ rest) <:+ text.toList :=
    (List.suffix_append body _).trans hinner
  obtain ⟨chunks, hchunks, hreads⟩ := reads_chunks rules hbody (List.forall_mem_nil _) hinner
  have hpoints : chunks.flatten = points := hchunks
  subst hpoints
  have hread : (Parser.map List.flatten (.between (.skipChar '\x22') (.many chunk)
      (.skipChar '\x22')) : Parser κ ρ CodePoints).Reads text rules _ _ (gap ++ rest) :=
    ((reads_skipChar hleft).between hreads (reads_skipChar hclosing)).map
  exact hread.lexeme ((List.suffix_cons _ _).trans hclosing) hgap hrest

theorem rejects_string (hleft : left <:+ text.toList) (hhead : left.head? ≠ some '\x22') :
    (string : Parser κ ρ CodePoints).Rejects text rules left :=
  (rejects_skipChar hleft hhead).between.map.keepLeft

end ParserCombinators.Json
