import ParserCombinators.Expression.Grammar
import ParserCombinators.Introduction
import ParserCombinators.Json.Grammar
import ParserCombinators.Parser.Cells
import ParserCombinators.Session.Recipe

/-!
# Building parsers from recipes

A recipe is built at once, with its parts from left to right, and the first part that cannot be
built is a fault. Only what follows a value in a binding is built when the value is known.
-/

namespace ParserCombinators.Session

/-- A parser whose values are of the common type. -/
abbrev AnyParser := Parser Cell Value Value

namespace ReadyMade

def build : ReadyMade → AnyParser
  | item => Parser.item.map .ofChar
  | digit => Parser.digit.map .ofChar
  | letter => Parser.letter.map .ofChar
  | blank => Parser.blank.map .ofChar
  | blanks => Parser.blanks.map fun values ↦ .list (values.map .ofChar)
  | integer => Parser.integer.map .ofNat
  | identifier => Parser.identifier.map .ofString
  | expression spaced => (Expression.grammar spaced).map .expression
  | sumOfTwo => Introduction.sumOfTwo.map .ofNat
  | keyValue => Introduction.keyValue.map ofPair
  | keyValues => Introduction.keyValues.map fun pairs ↦ .list (pairs.map ofPair)
  | jsonDigits => Json.digits.map .ofChars
  | jsonFraction => Json.fraction.map .ofChars
  | jsonExponent => Json.exponent.map .ofChars
  | jsonNumberText => Json.numberText.map .ofChars
  | jsonNumber => Json.number.map .number
  | jsonPlain => Json.plain.map .text
  | jsonSimpleEscape => Json.simpleEscape.map .text
  | jsonHexDigit => Json.hexDigit.map .ofChar
  | jsonUnicodeEscape => Json.unicodeEscape.map .text
  | jsonString => Json.string.map .text
  | jsonValue => Json.value.map .ofJson
  | jsonArray => (Json.array Json.value).map fun items ↦ .list (Value.ofItems items)
  | jsonMember => (Json.member Json.value).map fun entry ↦ .tuple [.text entry.1, .ofJson entry.2]
  | jsonObject => (Json.object Json.value).map fun members ↦ .dictionary (Value.ofMembers members)
  | jsonDocument => Json.document.map .ofJson
where
  ofPair (pair : String × Nat) : Value := .tuple [.ofString pair.1, .ofNat pair.2]

end ReadyMade

def CharacterTest.accepts : CharacterTest → Char → Bool
  | any => fun _ ↦ true
  | none => fun _ ↦ false
  | digit => Character.isDigit
  | letter => Character.isLetter
  | blank => Character.isBlank
  | among characters => characters.contains
  | outside characters => fun c ↦ !characters.contains c

/-- The parser for a text of one code point; no text holds a surrogate. -/
def character (points : CodePoints) : Except Fault AnyParser :=
  match points with
  | [point] =>
    match point.toChar? with
    | some c => .ok ((Parser.char c).map .ofChar)
    | none => .ok .fail
  | _ => .error (.notOneCharacter (some points))

def skipCharacter (points : CodePoints) : Except Fault AnyParser :=
  (character points).map fun parser ↦ parser.map fun _ ↦ .nothing

/-- A chain can only apply a value that is a function. -/
def combining : Value → Value → Value → Except Fault Value
  | .function combiner => combiner.apply
  | value => fun _ _ ↦ .error (.mismatch (.noFunction value.kind))

def chain (term operator : AnyParser) : AnyParser := .chainLeft term (operator.map combining)

def joinedText (inner : AnyParser) : AnyParser :=
  .convert (.many1 inner) fun values ↦ Function.joined (.list values)

def items (inner : Parser Cell Value (List Value)) : AnyParser := inner.map .list

/-- The characters that are still wanted, after the values already read. -/
def countedItems (read : List Value) : Nat → Script Cell Value Value
  | 0 => .finish (.ok (.list read))
  | wanted + 1 => .step .item fun c ↦ countedItems (read ++ [.ofChar c]) wanted

def counted (value : Value) : AnyParser :=
  match value.toInteger? with
  | some n => .sequence none (countedItems [] n.toNat)
  | none => .raise (.mismatch (.noCount value.kind))

/-- Something else that has length one passes for a character, and matches none. -/
def sameCharacter : Value → AnyParser
  | .text points =>
    match character points with
    | .ok parser => parser
    | .error fault => .raise fault
  | value =>
    match value.items? with
    | some [_] => .fail
    | some _ => .raise (.notOneCharacter none)
    | none => .raise (.mismatch (.noLength value.kind))

def Finish.apply : Finish → List Value → Except Fault Value
  | values, read => .ok (.list read)
  | last, read => Value.elementAt read (-1)
  | constant value, _ => .ok value

/-- Whether a step is skipped after the values read so far. -/
def Skip.holds (skip : Skip) (read : List Value) : Except Fault Bool :=
  (Value.elementAt read skip.index).map (·.agrees skip.agreesWith)

def script (finish : Finish) (steps : List (Option Skip × AnyParser)) (read : List Value) :
    Script Cell Value Value :=
  match steps with
  | [] => .finish (finish.apply read)
  | (none, parser) :: rest => .step parser fun value ↦ script finish rest (read ++ [value])
  | (some skip, parser) :: rest =>
    match skip.holds read with
    | .ok true => script finish rest read
    | .ok false => .step parser fun value ↦ script finish rest (read ++ [value])
    | .error fault => .raise fault

mutual

/-- The kind of the first list or dictionary in a value, by which nothing can be looked up. -/
def changeableKind? : Value → Option String
  | .list items => some (Value.list items).kind
  | .dictionary members => some (Value.dictionary members).kind
  | .tuple items => firstChangeableKind? items
  | _ => none

def firstChangeableKind? : List Value → Option String
  | [] => none
  | value :: rest => (changeableKind? value).orElse fun _ ↦ firstChangeableKind? rest

end

def lookUp (entries : List (String × AnyParser)) (value : Value) : AnyParser :=
  match value with
  | .text points =>
    match entries.find? fun entry ↦ CodePoints.ofString entry.1 == points with
    | some (_, parser) => parser
    | none => .fail
  | _ =>
    match changeableKind? value with
    | some kind => .raise (.mismatch (.noLookUp kind))
    | none => .fail

mutual

/-- The parser of a recipe, given the parsers that have names. -/
def Recipe.build (names : String → Except Fault AnyParser) : Recipe → Except Fault AnyParser
  | .readyMade parser => .ok parser.build
  | .named name => names name
  | .fail => .ok .fail
  | .succeed value => .ok (.succeed value)
  | .satisfy test => .ok ((Parser.satisfy test.accepts).map .ofChar)
  | .character text => character text
  | .skipCharacter text => skipCharacter text
  | .punctuation text => (skipCharacter text).map .lexeme
  | .literal text => .ok ((Parser.literal text).map .ofString)
  | .reserved word => .ok ((Json.reserved word).map .ofJson)
  | .choice alternatives => do
    match ← buildAll names alternatives with
    | [] => .error .emptyChoice
    | first :: others => return .firstOf first others
  | .keepRight first second => return .keepRight (← first.build names) (← second.build names)
  | .keepLeft first second => return .keepLeft (← first.build names) (← second.build names)
  | .pair first second => do
    let left ← first.build names
    let right ← second.build names
    return (Parser.pair left right).map fun values ↦ .tuple [values.1, values.2]
  | .between opening inner closing =>
    return .between (← opening.build names) (← inner.build names) (← closing.build names)
  | .many inner => return items (.many (← inner.build names))
  | .many1 inner => return items (.many1 (← inner.build names))
  | .chainLeft term operator => return chain (← term.build names) (← operator.build names)
  | .stringOf inner => return joinedText (← inner.build names)
  | .lexeme inner => return .lexeme (← inner.build names)
  | .skipBlanks inner => return .skipBlanks (← inner.build names)
  | .optional inner => return .orElse (← inner.build names) (.succeed (.text []))
  | .separatedBy item separator =>
    return items (Json.separatedBy (← item.build names) (← separator.build names))
  | .convert inner function => return .convert (← inner.build names) function.apply
  | .bind first next => return .bind (← first.build names) (← next.build names)
  | .trace tag inner => return .trace tag (← inner.build names)
  | .sequence steps finish label =>
    return .sequence label (script finish (← buildSteps names steps) [])

def Continuation.build (names : String → Except Fault AnyParser) :
    Continuation → Except Fault (Value → AnyParser)
  | .same => .ok sameCharacter
  | .succeed => .ok fun value ↦ .succeed (.list [value])
  | .fail => .ok fun _ ↦ .fail
  | .count => .ok counted
  | .always recipe => do
    let parser ← recipe.build names
    return fun _ ↦ parser
  | .table entries => return lookUp (← buildTable names entries)

def buildAll (names : String → Except Fault AnyParser) : List Recipe → Except Fault (List AnyParser)
  | [] => .ok []
  | recipe :: rest => return (← recipe.build names) :: (← buildAll names rest)

def buildSteps (names : String → Except Fault AnyParser) :
    List (Option Skip × Recipe) → Except Fault (List (Option Skip × AnyParser))
  | [] => .ok []
  | (skip, recipe) :: rest => return (skip, ← recipe.build names) :: (← buildSteps names rest)

def buildTable (names : String → Except Fault AnyParser) :
    List (String × Recipe) → Except Fault (List (String × AnyParser))
  | [] => .ok []
  | (key, recipe) :: rest => return (key, ← recipe.build names) :: (← buildTable names rest)

end

end ParserCombinators.Session
