import ParserCombinators.Proofs.Json.Grammar
import ParserCombinators.Proofs.Parser.Choosing

/-!
# What the JSON parsers read is derived by the rules

By induction on the depth of brackets: an item or a member is read only after a bracket, so on fewer
characters. Arrays and objects have one proof for their lists of entries.
-/

namespace ParserCombinators.Json

open Character
open ParserCombinators.Parser

variable {κ ρ α β : Type} {text : Text} {rules : κ → Matcher ρ} {left slice : List Char}
  {language : Language α}

/-! ## Tokens -/

theorem respects_punctuation (hleft : left <:+ text.toList) (c : Char) :
    (punctuation c : Parser κ ρ Unit).Respects text rules
      (fun slice _ ↦ ∃ gap, slice = c :: gap ∧ AllBlank gap) left := by
  apply ((respects_skipChar hleft).lexeme hleft).mono
  rintro _ _ - ⟨_, gap, rfl, rfl, hgap⟩
  exact ⟨gap, rfl, hgap⟩

theorem Word.reservedValue {word : String} {value : Value} (hword : Word word value) :
    reservedValue word = .ok value := by
  cases hword <;> rfl

theorem respects_reserved (hleft : left <:+ text.toList) {word : String} {value : Value}
    (hword : Word word value) :
    (reserved word : Parser κ ρ Value).Respects text rules Derives left := by
  apply ((respects_literal hleft).lexeme hleft).convert
  rintro _ _ - ⟨_, gap, rfl, ⟨rfl, -⟩, hgap⟩
  exact ⟨value, hword.reservedValue, .word hword hgap⟩

/-! ## Lists of entries -/

/-- An entry after a comma and blanks. -/
def AfterComma (language : Language α) : Language α := fun slice value ↦
  ∃ gap body, slice = ',' :: (gap ++ body) ∧ AllBlank gap ∧ language body value

/-- No entries, or one and further ones. -/
def Listed (language : Language α) : Language (List α) := fun slice values ↦
  slice = [] ∧ values = [] ∨ ∃ body further value others, slice = body ++ further ∧
    values = value :: others ∧ language body value ∧ (AfterComma language).Repeated further others

theorem respects_separatedBy {entry : Parser κ ρ α} (hleft : left <:+ text.toList)
    (hentry : ∀ rest, rest <:+ left → entry.Respects text rules language rest) :
    (separatedBy entry (punctuation ',')).Respects text rules (Listed language) left := by
  have hfurther : ∀ rest, rest <:+ left → (Parser.keepRight (punctuation ',') entry).Respects text
      rules (AfterComma language) rest := by
    intro rest hrest
    refine (respects_punctuation (hrest.trans hleft) ',').keepRight
      (fun slice _ middle hsplit _ ↦ hentry middle ?_) ?_
    · exact (hsplit ▸ List.suffix_append slice middle).trans hrest
    · rintro _ _ body value ⟨gap, rfl, hgap⟩ hbody
      exact ⟨gap, body, rfl, hgap, hbody⟩
  have hseveral : (Parser.sequence none <| .step entry fun first ↦
      .step (.many (.keepRight (punctuation ',') entry)) fun rest ↦
      .finish (.ok (first :: rest))).Respects text rules (Listed language) left := by
    apply (hentry left List.suffix_rfl).step
    intro body value middle hsplit hbody
    have hmiddle : middle <:+ left := hsplit ▸ List.suffix_append body middle
    obtain ⟨further, others, rest, rfl, hothers, hreads⟩ :=
      reads_many (fun rest hrest ↦ hfurther rest (hrest.trans hmiddle)) (by
        rintro _ _ ⟨gap, body, rfl, -⟩
        exact List.cons_ne_nil _ _)
    exact .inr ⟨further, value :: others, rest, rfl,
      .inr ⟨body, further, value, others, rfl, rfl, hbody, hothers⟩, hreads.step reads_finish⟩
  apply respects_firstOf
  intro parser hparser
  obtain rfl | rfl : parser = _ ∨ parser = _ := by simpa using hparser
  · exact hseveral
  · exact .inr ⟨[], [], left, rfl, .inl ⟨rfl, rfl⟩, reads_succeed⟩

/-- Slices after commas are the text of entries. -/
theorem exists_entries {entryText : β → List Char} {entryValue : β → α} {good : β → Prop}
    {further : List Char} {others : List α}
    (hentry : ∀ gap body value, AllBlank gap → language body value →
      ∃ entry, entryText entry = gap ++ body ∧ entryValue entry = value ∧ good entry)
    (hothers : (AfterComma language).Repeated further others) :
    ∃ entries : List β, further = furtherText entryText entries ∧ others = entries.map entryValue ∧
      ∀ entry ∈ entries, good entry := by
  induction hothers with
  | nil => exact ⟨[], rfl, rfl, List.forall_mem_nil _⟩
  | cons hslice _ ih =>
    obtain ⟨gap, body, rfl, hgap, hbody⟩ := hslice
    obtain ⟨entry, htext, rfl, hgood⟩ := hentry gap body _ hgap hbody
    obtain ⟨entries, rfl, rfl, hentries⟩ := ih
    refine ⟨entry :: entries, ?_, rfl, List.forall_mem_cons.2 ⟨hgood, hentries⟩⟩
    rw [furtherText_cons, htext]
    simp

/-! ## Arrays and objects -/

/-- A member without the blanks in front of it. -/
def Labelled : Language (CodePoints × Value) := fun slice labelled ↦
  ∃ key colonGap gap body, slice = key ++ (colonGap ++ ':' :: (gap ++ body)) ∧
    WrittenString key labelled.1 ∧ AllBlank colonGap ∧ AllBlank gap ∧ Derives body labelled.2

section Brackets

variable {inner : Parser κ ρ Value}

theorem respects_member (hleft : left <:+ text.toList)
    (hinner : ∀ rest, rest <:+ left → inner.Respects text rules Derives rest) :
    (member inner).Respects text rules Labelled left := by
  have hkey : (Parser.keepLeft string (punctuation ':') : Parser κ ρ CodePoints).Respects text rules
      (fun slice points ↦ ∃ key colonGap gap, slice = key ++ (colonGap ++ ':' :: gap) ∧
        WrittenString key points ∧ AllBlank colonGap ∧ AllBlank gap) left := by
    refine (respects_string hleft).keepLeft
      (fun _ _ rest hsplit _ ↦ respects_punctuation (Text.suffix_of_append hleft hsplit) ':') ?_
    rintro _ points _ _ ⟨key, colonGap, rfl, hkey, hcolonGap⟩ ⟨gap, rfl, hgap⟩
    exact ⟨key, colonGap, gap, List.append_assoc .., hkey, hcolonGap, hgap⟩
  apply hkey.pair (fun slice _ rest hsplit _ ↦ hinner rest (hsplit ▸ List.suffix_append _ _))
  rintro _ points body value ⟨key, colonGap, gap, rfl, hkey, hcolonGap, hgap⟩ hbody
  exact ⟨key, colonGap, gap, body, by simp, hkey, hcolonGap, hgap, hbody⟩

/-- A list of entries between brackets, with the blanks after each bracket. -/
theorem respects_brackets {entry : Parser κ ρ α} (hleft : left <:+ text.toList)
    (opening closing : Char)
    (hentry : ∀ rest, rest <:+ left → rest.length < left.length →
      entry.Respects text rules language rest) :
    (Parser.between (punctuation opening) (separatedBy entry (punctuation ','))
      (punctuation closing)).Respects text rules (fun slice values ↦ ∃ gap body gap',
        slice = opening :: (gap ++ (body ++ closing :: gap')) ∧ AllBlank gap ∧
        Listed language body values ∧ AllBlank gap') left := by
  have hlist : ∀ slice (_ : Unit) rest, left = slice ++ rest →
      (∃ gap, slice = opening :: gap ∧ AllBlank gap) →
      (separatedBy entry (punctuation ',')).Respects text rules (Listed language) rest := by
    rintro _ _ rest hsplit ⟨gap, rfl, -⟩
    have hrest : rest <:+ left := hsplit ▸ List.suffix_append _ _
    have hshorter : rest.length < left.length :=
      hsplit ▸ length_lt_append (List.cons_ne_nil _ _) rest
    exact respects_separatedBy (hrest.trans hleft) fun rest' hrest' ↦
      hentry rest' (hrest'.trans hrest) (hrest'.length_le.trans_lt hshorter)
  refine (respects_punctuation hleft opening).between hlist
    (fun _ _ rest hsplit _ ↦ respects_punctuation (Text.suffix_of_append hleft hsplit) closing) ?_
  rintro _ _ body values _ _ ⟨gap, rfl, hgap⟩ hbody ⟨gap', rfl, hgap'⟩
  exact ⟨gap, body, gap', rfl, hgap, hbody, hgap'⟩

theorem respects_array (hleft : left <:+ text.toList)
    (hinner : ∀ rest, rest <:+ left → rest.length < left.length →
      inner.Respects text rules Derives rest) :
    ((array inner).map .array).Respects text rules Derives left := by
  apply (respects_brackets hleft '[' ']' hinner).map
  rintro _ values ⟨gap, _, gap', rfl, hgap, ⟨rfl, rfl⟩ | hbody, hgap'⟩
  · exact .emptyArray hgap hgap'
  obtain ⟨body, further, value, others, rfl, rfl, hvalue, hothers⟩ := hbody
  obtain ⟨items, rfl, rfl, hitems⟩ : ∃ items : List Item, further = furtherText Item.text items ∧
      others = items.map Item.value ∧ ∀ item ∈ items, Derives item.slice item.value :=
    exists_entries (fun gap body value hgap hbody ↦ ⟨⟨gap, body, value, hgap⟩, rfl, rfl, hbody⟩)
      hothers
  have hall : ∀ item ∈ ⟨gap, body, value, hgap⟩ :: items, Derives item.slice item.value :=
    List.forall_mem_cons.2 ⟨hvalue, hitems⟩
  simpa [Item.text] using Derives.array hall hgap'

theorem respects_object (hleft : left <:+ text.toList)
    (hinner : ∀ rest, rest <:+ left → rest.length < left.length →
      inner.Respects text rules Derives rest) :
    ((object inner).map .object).Respects text rules Derives left := by
  have hmember : ∀ rest, rest <:+ left → rest.length < left.length →
      (member inner).Respects text rules Labelled rest := by
    intro rest hrest hshorter
    exact respects_member (hrest.trans hleft) fun rest' hrest' ↦
      hinner rest' (hrest'.trans hrest) (hrest'.length_le.trans_lt hshorter)
  have hentry (gap slice : List Char) (labelled : CodePoints × Value) (hgap : AllBlank gap)
      (hslice : Labelled slice labelled) : ∃ member : Member, member.text = gap ++ slice ∧
        member.value = labelled ∧ Derives member.item.slice member.item.value := by
    obtain ⟨key, colonGap, itemGap, body, rfl, hkey, hcolonGap, hitemGap, hbody⟩ := hslice
    exact ⟨⟨gap, key, colonGap, labelled.1, ⟨itemGap, body, labelled.2, hitemGap⟩, hgap, hkey,
      hcolonGap⟩, rfl, rfl, hbody⟩
  have hobject : (object inner).Respects text rules
      (fun slice members ↦ Derives slice (.object members)) left := by
    apply (respects_brackets hleft '\x7b' '\x7d' hmember).map
    rintro _ values ⟨gap, _, gap', rfl, hgap, ⟨rfl, rfl⟩ | hbody, hgap'⟩
    · exact .emptyObject hgap hgap'
    obtain ⟨body, further, value, others, rfl, rfl, hvalue, hothers⟩ := hbody
    obtain ⟨first, hfirstText, rfl, hfirst⟩ := hentry gap body value hgap hvalue
    obtain ⟨members, rfl, rfl, hmembers⟩ := exists_entries hentry hothers
    have hall : ∀ member ∈ first :: members, Derives member.item.slice member.item.value :=
      List.forall_mem_cons.2 ⟨hfirst, hmembers⟩
    simpa [hfirstText] using Derives.object hall (isMerged_membersOf _) hgap'
  exact hobject.map fun _ _ hslice ↦ hslice

end Brackets

/-! ## Values -/

theorem respects_valueRule {rules : Unit → Matcher Value} (hleft : left <:+ text.toList)
    (hruns : HasShortRuns left)
    (hinner : ∀ rest, rest <:+ left → rest.length < left.length →
      (forwarding ()).Respects text rules Derives rest) :
    valueRule.Respects text rules Derives left := by
  have hstring : (string.map Value.string).Respects text rules Derives left := by
    apply (respects_string hleft).map
    rintro _ points ⟨slice, gap, rfl, hslice, hgap⟩
    exact .string hslice hgap
  have hnumber : (number.map Value.number).Respects text rules Derives left := by
    apply (respects_number hleft hruns).map
    rintro _ _ ⟨numeral, gap, rfl, hgap, rfl⟩
    exact .number numeral hgap
  apply respects_firstOf
  intro parser hparser
  simp only [List.mem_cons, List.not_mem_nil, or_false] at hparser
  obtain rfl | rfl | rfl | rfl | rfl | rfl | rfl := hparser
  · exact hstring
  · exact hnumber
  · exact respects_object hleft hinner
  · exact respects_array hleft hinner
  · exact respects_reserved hleft .true
  · exact respects_reserved hleft .false
  · exact respects_reserved hleft .null

theorem respects_nested {depth : Nat} (hleft : left <:+ text.toList) (hruns : HasShortRuns left)
    (hdepth : left.length ≤ depth) :
    valueRule.Respects text (valueRule.nested text depth) Derives left := by
  induction depth generalizing left with
  | zero =>
    apply respects_valueRule hleft hruns
    intro rest _ hshorter
    omega
  | succ depth ih =>
    apply respects_valueRule hleft hruns
    intro rest hrest hshorter
    exact respects_forwarding_succ.2 (ih (hrest.trans hleft) (hruns.of_suffix hrest) (by omega))

theorem respects_document (hleft : left <:+ text.toList) (hruns : HasShortRuns left) :
    (document : Parser κ ρ Value).Respects text rules Document left := by
  refine (respects_blanks hleft).keepRight (fun slice _ rest hsplit _ ↦ ?_)
    fun gap _ body value hgap hbody ↦ ⟨gap, body, rfl, hgap, hbody⟩
  have hrest : rest <:+ left := hsplit ▸ List.suffix_append slice rest
  exact respects_recursive.2 (respects_nested (hrest.trans hleft) (hruns.of_suffix hrest) le_rfl)

end ParserCombinators.Json
