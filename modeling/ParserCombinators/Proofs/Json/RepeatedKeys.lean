import ParserCombinators.Proofs.Json.Completeness

/-!
# Objects with repeated keys

A key may be written more than once in an object, each time with other escapes. Keys that stand for
the same code points are the same, and the object has its pairs merged.
-/

namespace ParserCombinators.Json

open Character

/-! ## The ways to spell a value -/

/-- A value with the blanks after it. An object may repeat its keys at any depth, and only integers
are limited in their digits. -/
inductive Spelled : Language Value
  | string {slice gap : List Char} {points : CodePoints} :
      WrittenString slice points → AllBlank gap → Spelled (slice ++ gap) (.string points)
  | number (numeral : Numeral) {gap : List Char} :
      numeral.IsShort → AllBlank gap → Spelled (numeral.text ++ gap) (.number numeral.value)
  | word {word : String} {value : Value} {gap : List Char} :
      Word word value → AllBlank gap → Spelled (word.toList ++ gap) value
  | array {items : List Item} {gap gap' : List Char} :
      (∀ item ∈ items, Spelled item.slice item.value) → AllBlank gap → AllBlank gap' →
      Spelled ('[' :: (gap ++ ([','].intercalate (items.map Item.text) ++ ']' :: gap')))
        (.array (items.map Item.value))
  | object {members : List Member} {merged : List (CodePoints × Value)} {gap gap' : List Char} :
      (∀ member ∈ members, Spelled member.item.slice member.item.value) →
      IsMerged (members.map Member.value) merged → AllBlank gap → AllBlank gap' →
      Spelled ('\x7b' :: (gap ++ ([','].intercalate (members.map Member.text) ++ '\x7d' :: gap')))
        (.object merged)

theorem intercalate_cons {β : Type} (text : β → List Char) (first : β) (others : List β) :
    [','].intercalate ((first :: others).map text) = text first ++ furtherText text others := by
  induction others generalizing first with
  | nil => simp [furtherText]
  | cons other others ih =>
    rw [List.map_cons, List.map_cons, List.intercalate_cons_cons, ← List.map_cons, ih,
      furtherText_cons]
    simp

/-! ## Reading -/

variable {text : Text}

theorem isRead_spelledArray {items : List Item} {gap gap' : List Char}
    (hitems : ∀ item ∈ items, IsRead text item.slice item.value) (hgap : AllBlank gap)
    (hgap' : AllBlank gap') :
    IsRead text ('[' :: (gap ++ ([','].intercalate (items.map Item.text) ++ ']' :: gap')))
      (.array (items.map Item.value)) := by
  cases items with
  | nil => exact isRead_emptyArray hgap hgap'
  | cons first others =>
    -- The blanks behind the bracket are taken for those in front of the first item.
    let moved : Item := { first with
      gap := gap ++ first.gap
      gap_blank := List.forall_mem_append.2 ⟨hgap, first.gap_blank⟩ }
    have hmoved : moved.text = gap ++ first.text := List.append_assoc ..
    have hall : ∀ item ∈ moved :: others, IsRead text item.slice item.value :=
      List.forall_mem_cons.2 (List.forall_mem_cons.1 hitems)
    have harray := isRead_array hall hgap'
    rwa [hmoved, List.append_assoc, ← List.append_assoc first.text, ← intercalate_cons] at harray

theorem isRead_spelledObject {members : List Member} {merged : List (CodePoints × Value)}
    {gap gap' : List Char}
    (hmembers : ∀ member ∈ members, IsRead text member.item.slice member.item.value)
    (hmerged : IsMerged (members.map Member.value) merged) (hgap : AllBlank gap)
    (hgap' : AllBlank gap') :
    IsRead text
      ('\x7b' :: (gap ++ ([','].intercalate (members.map Member.text) ++ '\x7d' :: gap')))
      (.object merged) := by
  cases members with
  | nil =>
    obtain rfl := hmerged.eq_membersOf
    exact isRead_emptyObject hgap hgap'
  | cons first others =>
    let moved : Member := { first with
      gap := gap ++ first.gap
      gap_blank := List.forall_mem_append.2 ⟨hgap, first.gap_blank⟩ }
    have hmoved : moved.text = gap ++ first.text := List.append_assoc ..
    have hall : ∀ member ∈ moved :: others, IsRead text member.item.slice member.item.value :=
      List.forall_mem_cons.2 (List.forall_mem_cons.1 hmembers)
    have hobject := isRead_object hall hmerged hgap'
    rwa [hmoved, List.append_assoc, ← List.append_assoc first.text, ← intercalate_cons] at hobject

theorem Spelled.isRead {slice : List Char} {value : Value} (hspelled : Spelled slice value) :
    IsRead text slice value := by
  induction hspelled with
  | string hstring hgap => exact isRead_string hstring hgap
  | number numeral hshort hgap => exact isRead_numeral numeral (fun _ ↦ hshort) hgap
  | word hword hgap => exact isRead_word hword hgap
  | array _ hgap hgap' ih => exact isRead_spelledArray ih hgap hgap'
  | object _ hmerged hgap hgap' ih => exact isRead_spelledObject ih hmerged hgap hgap'

/-- A whole text that spells an object with these pairs, in this order. -/
def SpelledObject : Language (List (CodePoints × Value)) := fun source pairs ↦
  ∃ (before gap gap' : List Char) (members : List Member),
    source = before ++
      '\x7b' :: (gap ++ ([','].intercalate (members.map Member.text) ++ '\x7d' :: gap')) ∧
    AllBlank before ∧ AllBlank gap ∧ AllBlank gap' ∧
    (∀ member ∈ members, Spelled member.item.slice member.item.value) ∧
    pairs = members.map Member.value

/-- An object has its distinct keys in the order of their first occurrences, each with the value of
its last one. -/
theorem parse_of_spelledObject (text : Text) (pairs : List (CodePoints × Value))
    (hspelled : SpelledObject text.toList pairs) :
    ∃ merged, parse text = .ok (.object merged) ∧
      merged.map Prod.fst = (pairs.map Prod.fst).eraseDups ∧ (merged.map Prod.fst).Nodup ∧
      ∀ key, merged.lookup key = pairs.reverse.lookup key := by
  obtain ⟨before, gap, gap', members, htext, hbefore, hgap, hgap', hvalues, rfl⟩ := hspelled
  have hmerged := isMerged_membersOf (members.map Member.value)
  have hread : IsRead text _ (.object (membersOf (members.map Member.value))) :=
    (Spelled.object hvalues hmerged hgap hgap').isRead
  exact ⟨_, hread.parse htext hbefore, hmerged.keys, hmerged.nodup, hmerged.lookup⟩

/-- The first key comes again in an escape, with an object that has a repeated key of its own. -/
theorem parse_of_repeated_keys :
    ∃ merged, parse (Text.ofString
        "\x7b\"a\":1,\"b\":null,\"\\u0061\":\x7b\"x\":true,\"x\":null\x7d\x7d") =
        .ok (.object merged) ∧
      merged.map Prod.fst = [.ofString "a", .ofString "b"] ∧ (merged.map Prod.fst).Nodup ∧
      merged.lookup (.ofString "a") = some (.object [(.ofString "x", .null)]) := by
  have hnone : AllBlank [] := List.forall_mem_nil _
  have hletter (c : Char) (hc : isPlain c = true) :
      WrittenString ['\x22', c, '\x22'] [.ofChar c] :=
    ⟨[c], rfl, repeated_plain (List.forall_mem_singleton.2 hc)⟩
  have hpoint : WrittenPoint ['\\', 'u', '0', '0', '6', '1'] (.ofChar 'a') :=
    .hexadecimal (by decide) (by decide)
  have hescaped : WrittenString ['\x22', '\\', 'u', '0', '0', '6', '1', '\x22']
      (.ofString "a") := ⟨_, rfl, hpoint.repeated⟩
  have hdigit : IsRun isDigit ['1'] :=
    ⟨List.cons_ne_nil _ _, List.forall_mem_singleton.2 (show isDigit '1' = true by decide)⟩
  have hshort : ['1'].length ≤ 4300 := by decide
  have hone : Spelled ['1'] (.number (.integer 1)) :=
    .number ⟨false, ['1'], none, none, hdigit, nofun⟩ (fun _ _ ↦ hshort) hnone
  have htrue : Spelled ['t', 'r', 'u', 'e'] (.boolean true) := .word .true hnone
  have hnull : Spelled ['n', 'u', 'l', 'l'] .null := .word .null hnone
  let member {key slice : List Char} {name : CodePoints} {value : Value}
      (hname : WrittenString key name) (_ : Spelled slice value) : Member :=
    ⟨[], key, [], name, ⟨[], slice, value, hnone⟩, hnone, hname, hnone⟩
  let inner : List Member := [member (hletter 'x' rfl) htrue, member (hletter 'x' rfl) hnull]
  have hinner : ∀ other ∈ inner, Spelled other.item.slice other.item.value :=
    List.forall_mem_cons.2 ⟨htrue, List.forall_mem_singleton.2 hnull⟩
  have hobject : Spelled _ (.object [(.ofString "x", .null)]) :=
    .object hinner (isMerged_membersOf (inner.map Member.value)) hnone hnone
  let outer : List Member :=
    [member (hletter 'a' rfl) hone, member (hletter 'b' rfl) hnull, member hescaped hobject]
  have houter : ∀ other ∈ outer, Spelled other.item.slice other.item.value :=
    List.forall_mem_cons.2 ⟨hone, List.forall_mem_cons.2 ⟨hnull,
      List.forall_mem_singleton.2 hobject⟩⟩
  obtain ⟨merged, hparse, hkeys, hnodup, hlookup⟩ := parse_of_spelledObject _ _
    ⟨[], [], [], outer, by rfl, hnone, hnone, hnone, houter, rfl⟩
  exact ⟨merged, hparse, hkeys, hnodup, (hlookup _).trans rfl⟩

end ParserCombinators.Json
