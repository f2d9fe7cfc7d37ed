import ParserCombinators.Proofs.Json.Members
import ParserCombinators.Proofs.Json.Number
import ParserCombinators.Proofs.Json.Quoted

/-!
# The grammar of JSON as a set of rules

`Derives` are the rules for a value with the blanks after it. The items of an array and the members
of an object keep the blanks that come after the bracket or the comma in front of them, and an
object holds its members merged. A document is a value after any blanks.
-/

namespace ParserCombinators

/-- A run of blanks, which may be empty. -/
abbrev Character.AllBlank (gap : List Char) : Prop := ∀ c ∈ gap, isBlank c = true

namespace Json

open Character

/-- An item of an array, with the blanks in front of it. -/
structure Item where
  gap : List Char
  slice : List Char
  value : Value
  gap_blank : AllBlank gap

def Item.text (item : Item) : List Char := item.gap ++ item.slice

/-- A member of an object: a key, a colon and an item. -/
structure Member where
  gap : List Char
  key : List Char
  colonGap : List Char
  name : CodePoints
  item : Item
  gap_blank : AllBlank gap
  key_written : WrittenString key name
  colonGap_blank : AllBlank colonGap

def Member.slice (member : Member) : List Char :=
  member.key ++ (member.colonGap ++ ':' :: member.item.text)

def Member.text (member : Member) : List Char := member.gap ++ member.slice

def Member.value (member : Member) : CodePoints × Value := (member.name, member.item.value)

/-- All but the first of the entries, each after a comma. -/
def furtherText {α : Type} (text : α → List Char) (others : List α) : List Char :=
  others.flatMap fun entry ↦ ',' :: text entry

@[simp]
theorem furtherText_cons {α : Type} (text : α → List Char) (entry : α) (others : List α) :
    furtherText text (entry :: others) = ',' :: (text entry ++ furtherText text others) := by
  rw [furtherText, List.flatMap_cons]
  rfl

inductive Word : String → Value → Prop
  | true : Word "true" (.boolean true)
  | false : Word "false" (.boolean false)
  | null : Word "null" .null

inductive Derives : Language Value
  | string {slice gap : List Char} {points : CodePoints} :
      WrittenString slice points → AllBlank gap → Derives (slice ++ gap) (.string points)
  | number (numeral : Numeral) {gap : List Char} :
      AllBlank gap → Derives (numeral.text ++ gap) (.number numeral.value)
  | word {word : String} {value : Value} {gap : List Char} :
      Word word value → AllBlank gap → Derives (word.toList ++ gap) value
  | emptyArray {gap gap' : List Char} :
      AllBlank gap → AllBlank gap' → Derives ('[' :: (gap ++ ']' :: gap')) (.array [])
  | array {first : Item} {others : List Item} {gap : List Char} :
      (∀ item ∈ first :: others, Derives item.slice item.value) → AllBlank gap →
      Derives ('[' :: (first.text ++ (furtherText Item.text others ++ ']' :: gap)))
        (.array ((first :: others).map Item.value))
  | emptyObject {gap gap' : List Char} :
      AllBlank gap → AllBlank gap' → Derives ('\x7b' :: (gap ++ '\x7d' :: gap')) (.object [])
  | object {first : Member} {others : List Member} {merged : List (CodePoints × Value)}
      {gap : List Char} :
      (∀ member ∈ first :: others, Derives member.item.slice member.item.value) →
      IsMerged ((first :: others).map Member.value) merged → AllBlank gap →
      Derives ('\x7b' :: (first.text ++ (furtherText Member.text others ++ '\x7d' :: gap)))
        (.object merged)

/-- What a whole text derives. -/
def Document : Language Value := fun slice value ↦
  ∃ gap body, slice = gap ++ body ∧ AllBlank gap ∧ Derives body value

/-- No integer is too long to be read. -/
def HasShortRuns (slice : List Char) : Prop :=
  ∀ run, run <:+: slice → (∀ c ∈ run, isDigit c = true) → run.length ≤ 4300

theorem HasShortRuns.of_suffix {slice left : List Char} (hruns : HasShortRuns slice)
    (hleft : left <:+ slice) : HasShortRuns left :=
  fun run hrun ↦ hruns run (hrun.trans hleft.isInfix)

end Json

end ParserCombinators
