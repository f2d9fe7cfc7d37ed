import ParserCombinators.Proofs.Json.Grammar
import ParserCombinators.Proofs.Json.Soundness

/-!
# What the rules derive is read

A slice is read as a whole wherever neither a blank nor a part of its numeral follows. That is so
inside of brackets, where a comma or a bracket follows. The alternatives for a value are told apart
by its first character.
-/

namespace ParserCombinators.Json

open Character
open ParserCombinators.Parser

variable {κ ρ α β : Type} {text : Text} {rules : κ → Matcher ρ} {left slice gap rest : List Char}

/-- The slice does not go on in the rest. -/
structure Follows (slice rest : List Char) : Prop where
  blank : ∀ c ∈ rest.head?, isBlank c = false
  numeral : ∀ numeral : Numeral, slice = numeral.text → numeral.Stops rest

/-- What follows an entry between brackets. -/
def IsMark (c : Char) : Prop := c = ',' ∨ c = ']' ∨ c = '\x7d'

theorem follows_mark {c : Char} (hc : IsMark c) : Follows slice (c :: rest) where
  blank d hd := by
    obtain rfl : c = d := Option.some.inj hd
    obtain rfl | rfl | rfl := hc <;> decide
  numeral numeral _ := by
    apply Numeral.stops_of_head
    intro d hd
    obtain rfl : c = d := Option.some.inj hd
    obtain rfl | rfl | rfl := hc <;> decide

/-! ## Tokens -/

theorem reads_punctuation (rules : κ → Matcher ρ) {c : Char}
    (hleft : c :: (gap ++ rest) <:+ text.toList) (hgap : AllBlank gap)
    (hrest : ∀ d ∈ rest.head?, isBlank d = false) :
    (punctuation c : Parser κ ρ Unit).Reads text rules (c :: (gap ++ rest)) () rest :=
  (reads_skipChar hleft).lexeme ((List.suffix_cons c _).trans hleft) hgap hrest

theorem rejects_punctuation {c : Char} (hleft : left <:+ text.toList)
    (hhead : left.head? ≠ some c) : (punctuation c : Parser κ ρ Unit).Rejects text rules left :=
  (rejects_skipChar hleft hhead).keepLeft

theorem reads_reserved {word : String} {value : Value} (hword : Word word value)
    (hleft : word.toList ++ (gap ++ rest) <:+ text.toList) (hgap : AllBlank gap)
    (hrest : ∀ c ∈ rest.head?, isBlank c = false) :
    (reserved word : Parser κ ρ Value).Reads text rules (word.toList ++ (gap ++ rest)) value rest :=
  ((reads_literal hleft).lexeme ((List.suffix_append _ _).trans hleft) hgap hrest).convert
    hword.reservedValue

theorem rejects_reserved {word : String} {c : Char} {tail : List Char}
    (hword : word.toList = c :: tail) (hleft : left <:+ text.toList)
    (hhead : left.head? ≠ some c) : (reserved word : Parser κ ρ Value).Rejects text rules left :=
  (rejects_literal hword hleft hhead).keepLeft.convert

/-! ## Lists of entries -/

section Entries

variable {entry : Parser κ ρ α} {entryText : β → List Char} {entryValue : β → α}
  {bound : List Char} {opening closing : Char} {first : β} {others : List β}

/-- The parser reads what comes after the blanks of an entry, as far as the next mark. -/
def ReadsEntry (text : Text) (rules : κ → Matcher ρ) (parser : Parser κ ρ α)
    (bound entryText : List Char) (value : α) : Prop :=
  ∃ gap slice, entryText = gap ++ slice ∧ AllBlank gap ∧
    (∀ rest, ∀ c ∈ (slice ++ rest).head?, isBlank c = false) ∧
    ∀ mark rest, IsMark mark → slice ++ mark :: rest <:+ bound →
      parser.Reads text rules (slice ++ mark :: rest) value (mark :: rest)

theorem reads_separatedBy {separator : Parser κ ρ β} {middle : List Char} {value : α}
    {values : List α} (hfirst : entry.Reads text rules left value middle)
    (hothers : (Parser.many (.keepRight separator entry)).Reads text rules middle values rest) :
    (separatedBy entry separator).Reads text rules left (value :: values) rest := by
  have hseveral : (Parser.sequence none <| .step entry fun first ↦
      .step (.many (.keepRight separator entry)) fun rest ↦ .finish (.ok (first :: rest))).Reads
      text rules left (value :: values) rest :=
    hfirst.step (hothers.step reads_finish)
  exact hseveral.orElse

theorem reads_separatedBy_of_rejects {separator : Parser κ ρ β}
    (hfirst : entry.Rejects text rules left) :
    (separatedBy entry separator).Reads text rules left [] left :=
  hfirst.step.orElse_reads reads_succeed

theorem exists_mark (hclosing : IsMark closing) (entryText : β → List Char) (others : List β)
    (rest : List Char) : ∃ mark tail, IsMark mark ∧
      furtherText entryText others ++ closing :: rest = mark :: tail := by
  cases others with
  | nil => exact ⟨closing, rest, hclosing, rfl⟩
  | cons entry others =>
    rw [furtherText_cons]
    exact ⟨',', _, .inl rfl, rfl⟩

theorem reads_further (hclosing : IsMark closing) (hcomma : closing ≠ ',')
    (hbound : bound <:+ text.toList)
    (hothers : ∀ other ∈ others,
      ReadsEntry text rules entry bound (entryText other) (entryValue other))
    (hleft : furtherText entryText others ++ closing :: rest <:+ bound) :
    (Parser.many (.keepRight (punctuation ',') entry)).Reads text rules
      (furtherText entryText others ++ closing :: rest) (others.map entryValue)
      (closing :: rest) := by
  induction others with
  | nil =>
    have hhead : (closing :: rest).head? ≠ some ',' := fun hc ↦ hcomma (Option.some.inj hc)
    exact (rejects_punctuation (hleft.trans hbound) hhead).keepRight.many
  | cons other others ih =>
    obtain ⟨hother, hothers⟩ := List.forall_mem_cons.1 hothers
    obtain ⟨gap, slice, htext, hgap, hhead, hreads⟩ := hother
    simp only [furtherText_cons, htext, List.cons_append, List.append_assoc] at hleft ⊢
    have hslice := (List.suffix_append gap _).trans ((List.suffix_cons ',' _).trans hleft)
    have htail := (List.suffix_append slice _).trans hslice
    have hcomma := reads_punctuation rules (hleft.trans hbound) hgap (hhead _)
    have hmany := ih hothers htail
    obtain ⟨mark, tail, hmark, hsplit⟩ := exists_mark hclosing entryText others rest
    have hentry := hreads mark tail hmark (hsplit ▸ hslice)
    rw [← hsplit] at hentry
    refine (hcomma.keepRight hentry).many ?_ hmany
    simp only [List.length_cons, List.length_append]
    omega

theorem reads_brackets (hclosing : IsMark closing) (hcomma : closing ≠ ',')
    (hleft : opening :: (entryText first ++ (furtherText entryText others ++
      closing :: (gap ++ rest))) <:+ text.toList)
    (hentries : ∀ other ∈ first :: others, ReadsEntry text rules entry
      (entryText first ++ (furtherText entryText others ++ closing :: (gap ++ rest)))
      (entryText other) (entryValue other))
    (hgap : AllBlank gap) (hrest : ∀ c ∈ rest.head?, isBlank c = false) :
    (Parser.between (punctuation opening) (separatedBy entry (punctuation ','))
      (punctuation closing)).Reads text rules (opening :: (entryText first ++
        (furtherText entryText others ++ closing :: (gap ++ rest))))
      ((first :: others).map entryValue) rest := by
  have hbound := (List.suffix_cons opening _).trans hleft
  have htail := List.suffix_append (entryText first)
    (furtherText entryText others ++ closing :: (gap ++ rest))
  obtain ⟨hfirst, hothers⟩ := List.forall_mem_cons.1 hentries
  have hmany := reads_further hclosing hcomma hbound hothers htail
  have hend := (List.suffix_append _ _).trans (htail.trans hbound)
  obtain ⟨firstGap, slice, htext, hfirstGap, hhead, hreads⟩ := hfirst
  obtain ⟨mark, tail, hmark, hsplit⟩ := exists_mark hclosing entryText others (gap ++ rest)
  rw [htext, List.append_assoc] at hleft hreads ⊢
  have hentry := hreads mark tail hmark (hsplit ▸ List.suffix_append firstGap _)
  rw [← hsplit] at hentry
  have hopening := reads_punctuation rules hleft hfirstGap (hhead _)
  exact hopening.between (reads_separatedBy hentry hmany) (reads_punctuation rules hend hgap hrest)

theorem reads_empty_brackets {gap' : List Char}
    (hleft : opening :: (gap ++ closing :: (gap' ++ rest)) <:+ text.toList) (hgap : AllBlank gap)
    (hclosing : isBlank closing = false)
    (hentry : entry.Rejects text rules (closing :: (gap' ++ rest))) (hgap' : AllBlank gap')
    (hrest : ∀ c ∈ rest.head?, isBlank c = false) :
    (Parser.between (punctuation opening) (separatedBy entry (punctuation ','))
      (punctuation closing)).Reads text rules (opening :: (gap ++ closing :: (gap' ++ rest))) []
      rest := by
  have hend := (List.suffix_append gap _).trans ((List.suffix_cons opening _).trans hleft)
  have hopening := reads_punctuation rules hleft hgap (forall_mem_head?_cons hclosing _)
  exact hopening.between (reads_separatedBy_of_rejects hentry)
    (reads_punctuation rules hend hgap' hrest)

theorem rejects_brackets (hleft : left <:+ text.toList) (hhead : left.head? ≠ some opening) :
    (Parser.between (punctuation opening) (separatedBy entry (punctuation ','))
      (punctuation closing)).Rejects text rules left :=
  (rejects_punctuation hleft hhead).between

end Entries

/-! ## Alternatives for a value -/

theorem Numeral.text_head (numeral : Numeral) :
    ∀ c ∈ (numeral.text ++ rest).head?, isDigit c = true ∨ c = '-' := by
  unfold Numeral.text Numeral.signText
  cases numeral.negative with
  | true =>
    intro c hc
    exact .inr (Option.some.inj hc).symm
  | false =>
    intro c hc
    rw [if_neg (by decide), List.nil_append, List.append_assoc] at hc
    exact .inl (numeral.whole_isRun.head_accepted c hc)

section Alternatives

variable {rules : Unit → Matcher Value} {value : Value} {c : Char}

theorem rejects_tokens (rules : Unit → Matcher Value) (hleft : c :: left <:+ text.toList)
    (hquote : c ≠ '\x22') (hminus : c ≠ '-') (hdigit : isDigit c = false) :
    (string.map Value.string).Rejects text rules (c :: left) ∧
      (number.map Value.number).Rejects text rules (c :: left) := by
  constructor
  · exact (rejects_string hleft (by simpa using hquote)).map
  · refine (rejects_number hleft fun d hd ↦ ?_).map
    obtain rfl : c = d := Option.some.inj hd
    exact ⟨hdigit, hminus⟩

theorem rejects_object (rules : Unit → Matcher Value) (hleft : c :: left <:+ text.toList)
    (hbrace : c ≠ '\x7b') :
    ((object (.forwarding ())).map Value.object).Rejects text rules (c :: left) :=
  (rejects_brackets hleft (by simpa using hbrace)).map.map

theorem rejects_array (rules : Unit → Matcher Value) (hleft : c :: left <:+ text.toList)
    (hbracket : c ≠ '[') :
    ((array (.forwarding ())).map Value.array).Rejects text rules (c :: left) :=
  (rejects_brackets hleft (by simpa using hbracket)).map

theorem reads_valueRule_of_object (hleft : '\x7b' :: left <:+ text.toList)
    (hobject : ((object (.forwarding ())).map Value.object).Reads text rules ('\x7b' :: left) value
      rest) : valueRule.Reads text rules ('\x7b' :: left) value rest := by
  obtain ⟨hstring, hnumber⟩ := rejects_tokens rules hleft (by decide) (by decide) (by decide)
  exact hstring.firstOf_reads (hnumber.firstOf_reads hobject.firstOf)

theorem reads_valueRule_of_array (hleft : '[' :: left <:+ text.toList)
    (harray : ((array (.forwarding ())).map Value.array).Reads text rules ('[' :: left) value
      rest) : valueRule.Reads text rules ('[' :: left) value rest := by
  obtain ⟨hstring, hnumber⟩ := rejects_tokens rules hleft (by decide) (by decide) (by decide)
  have hobject := rejects_object rules hleft (by decide)
  exact hstring.firstOf_reads (hnumber.firstOf_reads (hobject.firstOf_reads harray.firstOf))

theorem reads_valueRule_of_words (hleft : c :: left <:+ text.toList)
    (hc : c = 't' ∨ c = 'f' ∨ c = 'n')
    (hwords : (Parser.firstOf (reserved "true") [reserved "false", reserved "null"] :
      Parser Unit Value Value).Reads text rules (c :: left) value rest) :
    valueRule.Reads text rules (c :: left) value rest := by
  have hquote : c ≠ '\x22' := by obtain rfl | rfl | rfl := hc <;> decide
  have hminus : c ≠ '-' := by obtain rfl | rfl | rfl := hc <;> decide
  have hdigit : isDigit c = false := by obtain rfl | rfl | rfl := hc <;> decide
  have hbrace : c ≠ '\x7b' := by obtain rfl | rfl | rfl := hc <;> decide
  have hbracket : c ≠ '[' := by obtain rfl | rfl | rfl := hc <;> decide
  obtain ⟨hstring, hnumber⟩ := rejects_tokens rules hleft hquote hminus hdigit
  have hobject := rejects_object rules hleft hbrace
  have harray := rejects_array rules hleft hbracket
  exact hstring.firstOf_reads (hnumber.firstOf_reads (hobject.firstOf_reads
    (harray.firstOf_reads hwords)))

theorem reads_valueRule_of_word {word : String} (hword : Word word value)
    (hleft : word.toList ++ left <:+ text.toList)
    (hreserved : (reserved word : Parser Unit Value Value).Reads text rules (word.toList ++ left)
      value rest) : valueRule.Reads text rules (word.toList ++ left) value rest := by
  have hother (other : String) {c d : Char} {tail left : List Char}
      (hother : other.toList = c :: tail) (hleft : d :: left <:+ text.toList) (hne : d ≠ c) :
      (reserved other : Parser Unit Value Value).Rejects text rules (d :: left) :=
    rejects_reserved hother hleft (by simpa using hne)
  cases hword with
  | true => exact reads_valueRule_of_words hleft (.inl rfl) hreserved.firstOf
  | false =>
    have htrue := hother "true" (c := 't') (d := 'f') rfl hleft (by decide)
    exact reads_valueRule_of_words hleft (.inr (.inl rfl)) (htrue.firstOf_reads hreserved.firstOf)
  | null =>
    have htrue := hother "true" (c := 't') (d := 'n') rfl hleft (by decide)
    have hfalse := hother "false" (c := 'f') (d := 'n') rfl hleft (by decide)
    exact reads_valueRule_of_words hleft (.inr (.inr rfl))
      (htrue.firstOf_reads (hfalse.firstOf_reads hreserved.firstOf))

/-- No value starts with a closing bracket. -/
theorem rejects_valueRule_of_closing (rules : Unit → Matcher Value)
    (hleft : ']' :: left <:+ text.toList) :
    valueRule.Rejects text rules (']' :: left) := by
  obtain ⟨hstring, hnumber⟩ := rejects_tokens rules hleft (by decide) (by decide) (by decide)
  have hobject := rejects_object rules hleft (by decide)
  have harray := rejects_array rules hleft (by decide)
  have hword {word : String} {c : Char} {tail : List Char} (hword : word.toList = c :: tail)
      (hne : ']' ≠ c) :
      (reserved word : Parser Unit Value Value).Rejects text rules (']' :: left) :=
    rejects_reserved hword hleft (by simpa using hne)
  have hwords : (Parser.firstOf (reserved "true") [reserved "false", reserved "null"] :
      Parser Unit Value Value).Rejects text rules (']' :: left) :=
    (hword rfl (by decide)).firstOf_rejects ((hword rfl (by decide)).firstOf_rejects
      (hword rfl (by decide)).firstOf_nil)
  exact hstring.firstOf_rejects (hnumber.firstOf_rejects (hobject.firstOf_rejects
    (harray.firstOf_rejects hwords)))

end Alternatives

/-! ## Values -/

theorem reads_member {inner : Parser κ ρ Value} {member : Member}
    (hleft : member.slice ++ left <:+ text.toList)
    (hitem : ∀ rest, ∀ c ∈ (member.item.slice ++ rest).head?, isBlank c = false)
    (hinner : inner.Reads text rules (member.item.slice ++ left) member.item.value rest) :
    (Json.member inner).Reads text rules (member.slice ++ left) member.value rest := by
  simp only [Member.slice, Item.text, List.cons_append, List.append_assoc] at hleft ⊢
  have hcolon := (List.suffix_append member.colonGap _).trans
    ((List.suffix_append member.key _).trans hleft)
  have hkey := reads_string rules member.key_written hleft member.colonGap_blank
    (forall_mem_head?_cons (by decide) _)
  have hpunctuation := reads_punctuation rules hcolon member.item.gap_blank (hitem left)
  exact (hkey.keepLeft hpunctuation).pair hinner

/-- Wherever the slice stands and does not go on, it is read as the value, at any depth that is
enough for what is left of the text. -/
structure IsRead (text : Text) (slice : List Char) (value : Value) : Prop where
  /-- It starts with a token, so no blank in front of it is a part of it. -/
  head : ∃ c tail, slice = c :: tail ∧ isBlank c = false
  reads : ∀ {depth rest}, slice ++ rest <:+ text.toList → (slice ++ rest).length ≤ depth →
    Follows slice rest →
    valueRule.Reads text (valueRule.nested text depth) (slice ++ rest) value rest

variable {value : Value}

theorem IsRead.head_not_blank (hread : IsRead text slice value) (rest : List Char) :
    ∀ c ∈ (slice ++ rest).head?, isBlank c = false := by
  obtain ⟨c, tail, rfl, hc⟩ := hread.head
  intro d hd
  obtain rfl : c = d := Option.some.inj hd
  exact hc

theorem isRead_string {points : CodePoints} (hstring : WrittenString slice points)
    (hgap : AllBlank gap) : IsRead text (slice ++ gap) (.string points) where
  head := by
    obtain ⟨body, rfl, -⟩ := hstring
    exact ⟨'\x22', _, rfl, by decide⟩
  reads hleft _ hfollows := by
    rw [List.append_assoc] at hleft ⊢
    exact (reads_string _ hstring hleft hgap hfollows.blank).map.firstOf

theorem isRead_numeral (numeral : Numeral)
    (hshort : numeral.text <:+: text.toList → numeral.IsShort) (hgap : AllBlank gap) :
    IsRead text (numeral.text ++ gap) (.number numeral.value) where
  head := by
    obtain ⟨c, tail, htext⟩ := List.exists_cons_of_ne_nil numeral.text_ne_nil
    have hc := numeral.not_blank_of_mem c (by rw [htext]; exact List.mem_cons_self)
    exact ⟨c, tail ++ gap, by rw [htext]; rfl, hc⟩
  reads {depth rest} hleft _ hfollows := by
    rw [List.append_assoc] at hleft ⊢
    have hshort := hshort ((List.prefix_append _ _).isInfix.trans hleft.isInfix)
    have hstops : gap = [] → numeral.Stops rest := fun hnil ↦
      hfollows.numeral numeral (by rw [hnil, List.append_nil])
    have hquote : (numeral.text ++ (gap ++ rest)).head? ≠ some '\x22' := by
      intro hhead
      obtain hdigit | hminus := numeral.text_head '\x22' hhead
      · exact absurd hdigit (by decide)
      · exact absurd hminus (by decide)
    have hstring : (string.map Value.string).Rejects text (valueRule.nested text depth)
        (numeral.text ++ (gap ++ rest)) := (rejects_string hleft hquote).map
    have hnumber : (number.map Value.number).Reads text (valueRule.nested text depth) _ _ rest :=
      (reads_number hleft hshort hgap hfollows.blank hstops).map
    exact hstring.firstOf_reads hnumber.firstOf

theorem isRead_word {word : String} (hword : Word word value) (hgap : AllBlank gap) :
    IsRead text (word.toList ++ gap) value where
  head := by
    cases hword with
    | true => exact ⟨'t', _, rfl, by decide⟩
    | false => exact ⟨'f', _, rfl, by decide⟩
    | null => exact ⟨'n', _, rfl, by decide⟩
  reads hleft _ hfollows := by
    rw [List.append_assoc] at hleft ⊢
    exact reads_valueRule_of_word hword hleft
      (reads_reserved hword hleft hgap hfollows.blank)

/-- An entry is read at one depth less, since a bracket was read before it. -/
theorem IsRead.readsEntry {depth : Nat} {bound : List Char} (hread : IsRead text slice value)
    (hgap : AllBlank gap) (hbound : bound <:+ text.toList) (hdepth : bound.length ≤ depth) :
    ReadsEntry text (valueRule.nested text (depth + 1)) (.forwarding ()) bound (gap ++ slice)
      value := by
  refine ⟨gap, slice, rfl, hgap, hread.head_not_blank, fun mark rest hmark hleft ↦ ?_⟩
  exact reads_forwarding_succ.2
    (hread.reads (hleft.trans hbound) (hleft.length_le.trans hdepth) (follows_mark hmark))

theorem readsEntry_of_member {depth : Nat} {bound : List Char} (member : Member)
    (hread : IsRead text member.item.slice member.item.value) (hbound : bound <:+ text.toList)
    (hdepth : bound.length ≤ depth) :
    ReadsEntry text (valueRule.nested text (depth + 1)) (Json.member (.forwarding ())) bound
      member.text member.value := by
  have hhead : ∀ rest, ∀ c ∈ (member.slice ++ rest).head?, isBlank c = false := by
    obtain ⟨body, hkey, -⟩ := member.key_written
    intro rest
    rw [Member.slice, hkey]
    exact forall_mem_head?_cons (by decide) _
  refine ⟨member.gap, member.slice, rfl, member.gap_blank, hhead, fun mark rest hmark hleft ↦ ?_⟩
  have hitem : member.item.slice ++ mark :: rest <:+ member.slice ++ mark :: rest := by
    simp only [Member.slice, Item.text, List.append_assoc, List.cons_append]
    exact (List.suffix_append _ _).trans ((List.suffix_cons _ _).trans
      ((List.suffix_append _ _).trans (List.suffix_append _ _)))
  have hbounded := hitem.trans hleft
  exact reads_member (hleft.trans hbound) hread.head_not_blank
    (reads_forwarding_succ.2 (hread.reads (hbounded.trans hbound)
      (hbounded.length_le.trans hdepth) (follows_mark hmark)))

theorem isRead_emptyArray {gap' : List Char} (hgap : AllBlank gap) (hgap' : AllBlank gap') :
    IsRead text ('[' :: (gap ++ ']' :: gap')) (.array []) where
  head := ⟨'[', _, rfl, by decide⟩
  reads {depth rest} hleft hdepth hfollows := by
    simp only [List.cons_append, List.append_assoc] at hleft hdepth ⊢
    obtain ⟨inner, rfl⟩ : ∃ inner, depth = inner + 1 :=
      ⟨depth - 1, by simp only [List.length_cons] at hdepth; omega⟩
    have hclosing := (List.suffix_append gap _).trans ((List.suffix_cons '[' _).trans hleft)
    have hentry := rejects_forwarding_succ.2
      (rejects_valueRule_of_closing (valueRule.nested text inner) hclosing)
    exact reads_valueRule_of_array hleft
      (reads_empty_brackets hleft hgap (by decide) hentry hgap' hfollows.blank).map

theorem isRead_array {first : Item} {others : List Item}
    (hitems : ∀ item ∈ first :: others, IsRead text item.slice item.value) (hgap : AllBlank gap) :
    IsRead text ('[' :: (first.text ++ (furtherText Item.text others ++ ']' :: gap)))
      (.array ((first :: others).map Item.value)) where
  head := ⟨'[', _, rfl, by decide⟩
  reads {depth rest} hleft hdepth hfollows := by
    simp only [List.cons_append, List.append_assoc] at hleft hdepth ⊢
    obtain ⟨inner, rfl⟩ : ∃ inner, depth = inner + 1 :=
      ⟨depth - 1, by simp only [List.length_cons] at hdepth; omega⟩
    have hbound := (List.suffix_cons '[' _).trans hleft
    have hentries := fun (item : Item) hitem ↦ (hitems item hitem).readsEntry item.gap_blank
      hbound (Nat.le_of_succ_le_succ hdepth)
    exact reads_valueRule_of_array hleft
      (reads_brackets (.inr (.inl rfl)) (by decide) hleft hentries hgap hfollows.blank).map

theorem isRead_emptyObject {gap' : List Char} (hgap : AllBlank gap) (hgap' : AllBlank gap') :
    IsRead text ('\x7b' :: (gap ++ '\x7d' :: gap')) (.object []) where
  head := ⟨'\x7b', _, rfl, by decide⟩
  reads {depth rest} hleft _ hfollows := by
    simp only [List.cons_append, List.append_assoc] at hleft ⊢
    have hclosing := (List.suffix_append gap _).trans ((List.suffix_cons '\x7b' _).trans hleft)
    have hentry : (Json.member (.forwarding ())).Rejects text (valueRule.nested text depth) _ :=
      (rejects_string hclosing (by simp)).keepLeft.pair
    exact reads_valueRule_of_object hleft
      (reads_empty_brackets hleft hgap (by decide) hentry hgap' hfollows.blank).map.map

theorem isRead_object {first : Member} {others : List Member} {merged : List (CodePoints × Value)}
    (hmembers : ∀ member ∈ first :: others, IsRead text member.item.slice member.item.value)
    (hmerged : IsMerged ((first :: others).map Member.value) merged) (hgap : AllBlank gap) :
    IsRead text ('\x7b' :: (first.text ++ (furtherText Member.text others ++ '\x7d' :: gap)))
      (.object merged) where
  head := ⟨'\x7b', _, rfl, by decide⟩
  reads {depth rest} hleft hdepth hfollows := by
    rw [hmerged.eq_membersOf]
    simp only [List.cons_append, List.append_assoc] at hleft hdepth ⊢
    obtain ⟨inner, rfl⟩ : ∃ inner, depth = inner + 1 :=
      ⟨depth - 1, by simp only [List.length_cons] at hdepth; omega⟩
    have hbound := (List.suffix_cons '\x7b' _).trans hleft
    have hentries := fun (member : Member) hmember ↦ readsEntry_of_member member
      (hmembers member hmember) hbound (Nat.le_of_succ_le_succ hdepth)
    exact reads_valueRule_of_object hleft
      (reads_brackets (.inr (.inr rfl)) (by decide) hleft hentries hgap hfollows.blank).map.map

theorem isRead_of_derives (hderives : Derives slice value) (hruns : HasShortRuns text.toList) :
    IsRead text slice value := by
  induction hderives with
  | string hstring hgap => exact isRead_string hstring hgap
  | number numeral hgap =>
    refine isRead_numeral numeral (fun hinfix _ _ ↦ ?_) hgap
    exact hruns _ (numeral.whole_infix.trans hinfix) numeral.whole_isRun.accepted
  | word hword hgap => exact isRead_word hword hgap
  | emptyArray hgap hgap' => exact isRead_emptyArray hgap hgap'
  | array _ hgap ih => exact isRead_array ih hgap
  | emptyObject hgap hgap' => exact isRead_emptyObject hgap hgap'
  | object _ hmerged hgap ih => exact isRead_object ih hmerged hgap

/-- A document that does not go on is read as a whole. -/
theorem IsRead.document {rules : κ → Matcher ρ} (hread : IsRead text slice value)
    (hleft : gap ++ (slice ++ rest) <:+ text.toList) (hgap : AllBlank gap)
    (hfollows : Follows slice rest) :
    (document : Parser κ ρ Value).Reads text rules (gap ++ (slice ++ rest)) value rest := by
  have hvalue : (Json.value : Parser κ ρ Value).Reads text rules (slice ++ rest) value rest :=
    reads_recursive.2 (hread.reads ((List.suffix_append gap _).trans hleft) le_rfl hfollows)
  exact (reads_many_satisfy hleft hgap (hread.head_not_blank rest)).keepRight hvalue

theorem follows_nil : Follows slice [] where
  blank := nofun
  numeral _ _ := Numeral.stops_of_head nofun

/-- A text that is a value after blanks is parsed as that value. -/
theorem IsRead.parse (hread : IsRead text slice value) (htext : text.toList = gap ++ slice)
    (hgap : AllBlank gap) : parse text = .ok value := by
  rw [← List.append_nil slice] at htext
  have hleft : gap ++ (slice ++ []) <:+ text.toList := htext ▸ List.suffix_rfl
  have hreads : (Json.document : Parser Empty Empty Value).Reads text Empty.elim _ value [] :=
    hread.document hleft hgap follows_nil
  have houtcome : (Json.document.run text).outcome = .success value (text.positionOf []) := by
    rwa [← htext, Parser.Reads, Text.positionOf_toList] at hreads
  rw [Json.parse, houtcome]

end ParserCombinators.Json
