import ParserCombinators.Proofs.Json.Completeness
import ParserCombinators.Proofs.Number.Decimal

/-!
# Written JSON is read back

A value can be written in many ways: every code point of a string in up to three, and blanks stand
where they like before the first token and after every token. Whichever way is taken, the reader
gives the value back, with the items of arrays and the members of objects in the written order.
-/

namespace ParserCombinators.Json

open Character

variable {text : Text} {gap : List Char}

/-! ## The ways to write a value -/

mutual

/-- A value with the blanks after its last token. -/
inductive Written : Language Value
  | null {gap : List Char} : AllBlank gap → Written ("null".toList ++ gap) .null
  | boolean (value : Bool) {gap : List Char} :
      AllBlank gap → Written ((toString value).toList ++ gap) (.boolean value)
  | integer {n : Int} {gap : List Char} :
      (Nat.toDigits 10 n.natAbs).length ≤ 4300 → AllBlank gap →
      Written ((toString n).toList ++ gap) (.number (.integer n))
  | string {slice gap : List Char} {points : CodePoints} :
      WrittenString slice points → AllBlank gap → Written (slice ++ gap) (.string points)
  | array {gap body gap' : List Char} {items : List Value} :
      AllBlank gap → WrittenItems body items → AllBlank gap' →
      Written ('[' :: (gap ++ (body ++ ']' :: gap'))) (.array items)
  | object {gap body gap' : List Char} {members : List (CodePoints × Value)} :
      (members.map Prod.fst).Nodup → AllBlank gap → WrittenMembers body members →
      AllBlank gap' → Written ('\x7b' :: (gap ++ (body ++ '\x7d' :: gap'))) (.object members)

inductive WrittenItems : Language (List Value)
  | nil : WrittenItems [] []
  | single {slice : List Char} {value : Value} :
      Written slice value → WrittenItems slice [value]
  | cons {slice gap body : List Char} {value next : Value} {items : List Value} :
      Written slice value → AllBlank gap → WrittenItems body (next :: items) →
      WrittenItems (slice ++ ',' :: (gap ++ body)) (value :: next :: items)

inductive WrittenMembers : Language (List (CodePoints × Value))
  | nil : WrittenMembers [] []
  | single {key gap gap' slice : List Char} {name : CodePoints} {value : Value} :
      WrittenString key name → AllBlank gap → AllBlank gap' → Written slice value →
      WrittenMembers (key ++ (gap ++ ':' :: (gap' ++ slice))) [(name, value)]
  | cons {key gap gap' slice gap'' body : List Char} {name : CodePoints} {value : Value}
      {next : CodePoints × Value} {members : List (CodePoints × Value)} :
      WrittenString key name → AllBlank gap → AllBlank gap' → Written slice value →
      AllBlank gap'' → WrittenMembers body (next :: members) →
      WrittenMembers (key ++ (gap ++ ':' :: (gap' ++ (slice ++ ',' :: (gap'' ++ body)))))
        ((name, value) :: next :: members)

end

/-- A whole text, which may start with blanks. -/
def WrittenDocument : Language Value := fun source value ↦
  ∃ gap slice, source = gap ++ slice ∧ AllBlank gap ∧ Written slice value

/-! ## Reading -/

theorem isRead_integer {n : Int} (hlimit : (Nat.toDigits 10 n.natAbs).length ≤ 4300)
    (hgap : AllBlank gap) :
    IsRead text ((toString n).toList ++ gap) (.number (.integer n)) := by
  have hrun := isRun_toDigits n.natAbs
  let numeral : Numeral := ⟨decide (n < 0), Nat.toDigits 10 n.natAbs, none, none, hrun, nofun⟩
  have htext : numeral.text = (toString n).toList := by
    rw [toList_toString_int]
    simp [numeral, Numeral.text, Numeral.signText, Numeral.fractionText, Numeral.powerText]
  have hvalue : numeral.value = .integer n := by
    simp only [numeral, Numeral.value, decimalValue_toDigits, Option.isNone_none, and_self, if_true,
      decide_eq_true_eq]
    congr 1
    split <;> omega
  have hread : IsRead text (numeral.text ++ gap) (.number numeral.value) :=
    isRead_numeral numeral (fun _ _ _ ↦ hlimit) hgap
  rwa [htext, hvalue] at hread

mutual

theorem Written.isRead : {slice : List Char} → {value : Value} → Written slice value →
    IsRead text slice value
  | _, _, .null hgap => isRead_word .null hgap
  | _, _, .boolean true hgap => isRead_word .true hgap
  | _, _, .boolean false hgap => isRead_word .false hgap
  | _, _, .integer hlimit hgap => isRead_integer hlimit hgap
  | _, _, .string hstring hgap => isRead_string hstring hgap
  | _, _, @Written.array gap body gap' items hgap hitems hgap' => by
    by_cases hempty : items = []
    · subst hempty
      cases hitems
      exact isRead_emptyArray hgap hgap'
    · obtain ⟨first, others, hbody, rfl, hread⟩ := hitems.exists_items hgap hempty
      have harray := isRead_array hread hgap'
      rwa [← List.append_assoc, ← hbody, List.append_assoc] at harray
  | _, _, @Written.object gap body gap' members hkeys hgap hmembers hgap' => by
    by_cases hempty : members = []
    · subst hempty
      cases hmembers
      exact isRead_emptyObject hgap hgap'
    · obtain ⟨first, others, hbody, rfl, hread⟩ := hmembers.exists_members hgap hempty
      have hobject := isRead_object hread (isMerged_of_nodup hkeys) hgap'
      rwa [← List.append_assoc, ← hbody, List.append_assoc] at hobject

theorem WrittenItems.exists_items : {body : List Char} → {items : List Value} →
    WrittenItems body items → {gap : List Char} → AllBlank gap → items ≠ [] →
    ∃ (first : Item) (others : List Item),
      gap ++ body = first.text ++ furtherText Item.text others ∧
      items = (first :: others).map Item.value ∧
      ∀ item ∈ first :: others, IsRead text item.slice item.value
  | _, _, .nil, _, _, hne => absurd rfl hne
  | _, _, @WrittenItems.single slice value hvalue, gap, hgap, _ =>
    ⟨⟨gap, slice, value, hgap⟩, [], by simp [Item.text, furtherText], rfl,
      List.forall_mem_singleton.2 hvalue.isRead⟩
  | _, _, @WrittenItems.cons slice gap' body value next items hvalue hgap' hitems,
      gap, hgap, _ => by
    obtain ⟨first, others, hbody, hitems, hread⟩ :=
      hitems.exists_items hgap' (List.cons_ne_nil next items)
    refine ⟨⟨gap, slice, value, hgap⟩, first :: others, ?_, ?_,
      List.forall_mem_cons.2 ⟨hvalue.isRead, hread⟩⟩
    · simp [Item.text, hbody]
    · rw [List.map_cons, ← hitems]

theorem WrittenMembers.exists_members : {body : List Char} →
    {members : List (CodePoints × Value)} → WrittenMembers body members →
    {gap : List Char} → AllBlank gap → members ≠ [] →
    ∃ (first : Member) (others : List Member),
      gap ++ body = first.text ++ furtherText Member.text others ∧
      members = (first :: others).map Member.value ∧
      ∀ member ∈ first :: others, IsRead text member.item.slice member.item.value
  | _, _, .nil, _, _, hne => absurd rfl hne
  | _, _, @WrittenMembers.single key colonGap itemGap slice name value hkey hcolon hitem hvalue,
      gap, hgap, _ =>
    ⟨⟨gap, key, colonGap, name, ⟨itemGap, slice, value, hitem⟩, hgap, hkey, hcolon⟩, [],
      by simp [Member.text, Member.slice, Item.text, furtherText], rfl,
      List.forall_mem_singleton.2 hvalue.isRead⟩
  | _, _, @WrittenMembers.cons key colonGap itemGap slice gap' body name value next members hkey
      hcolon hitem hvalue hgap' hmembers, gap, hgap, _ => by
    obtain ⟨first, others, hbody, hmembers, hread⟩ :=
      hmembers.exists_members hgap' (List.cons_ne_nil next members)
    refine ⟨⟨gap, key, colonGap, name, ⟨itemGap, slice, value, hitem⟩, hgap, hkey, hcolon⟩,
      first :: others, ?_, ?_, List.forall_mem_cons.2 ⟨hvalue.isRead, hread⟩⟩
    · simp [Member.text, Member.slice, Item.text, hbody]
    · rw [List.map_cons, ← hmembers]
      rfl

end

/-- However a value is written, reading gives it back. -/
theorem parse_of_written (text : Text) (value : Value)
    (hwritten : WrittenDocument text.toList value) : parse text = .ok value := by
  obtain ⟨gap, slice, hsplit, hgap, hvalue⟩ := hwritten
  exact hvalue.isRead.parse hsplit hgap

/-- The key is written in escapes, and blanks stand in front, inside and at the end. -/
theorem parse_of_written_object :
    parse #[' ', '\x7b', '\x22', '\\', 'u', '0', '0', '6', 'A', '\\', 'n', '\x22', ' ', ':', '[',
        '-', '7', ',', '\t', 'n', 'u', 'l', 'l', ']', '\x7d', '\n'] =
      .ok (.object [(.ofString "j\n", .array [.number (.integer (-7)), .null])]) := by
  have hnone : AllBlank [] := List.forall_mem_nil _
  have hspace : AllBlank [' '] := List.forall_mem_singleton.2 (by decide)
  have htab : AllBlank ['\t'] := List.forall_mem_singleton.2 (by decide)
  have hline : AllBlank ['\n'] := List.forall_mem_singleton.2 (by decide)
  have hletter : WrittenPoint ['\\', 'u', '0', '0', '6', 'A'] (.ofChar 'j') :=
    .hexadecimal (by decide) (by decide)
  have hfeed : WrittenPoint ['\\', 'n'] (.ofChar '\n') := .escape rfl
  have hkey : WrittenString ['\x22', '\\', 'u', '0', '0', '6', 'A', '\\', 'n', '\x22']
      (.ofString "j\n") := ⟨_, rfl, .cons hletter (.cons hfeed .nil)⟩
  have hseven : (toString (-7 : Int)).toList = ['-', '7'] := toList_toString_negSucc 6
  have hnumber : Written (['-', '7'] ++ []) (.number (.integer (-7))) :=
    hseven ▸ Written.integer (n := -7) (by decide) hnone
  have hitems : WrittenItems ['-', '7', ',', '\t', 'n', 'u', 'l', 'l']
      [.number (.integer (-7)), .null] := .cons hnumber htab (.single (.null hnone))
  have hmembers := WrittenMembers.single hkey hspace hnone (.array hnone hitems hnone)
  exact parse_of_written _ _ ⟨[' '], _, rfl, hspace, .object (by decide) hnone hmembers hline⟩

end ParserCombinators.Json
