import ParserCombinators.Json.Value
import ParserCombinators.Number.Reading
import ParserCombinators.Parser.Lexical

/-!
# The grammar of JSON

Every token takes the blanks after it. Numbers are matched as text first and converted at the end;
they may have leading zeros and digits of any script. Strings are read in pieces: plain characters
in bulk, escapes of a code point by four hexadecimal digits, and escapes by a single character.
-/

namespace ParserCombinators.Json

variable {κ ρ α β : Type}

def punctuation (c : Char) : Parser κ ρ Unit := .lexeme (.skipChar c)

def reservedWords : List (String × Value) :=
  [("true", .boolean true), ("false", .boolean false), ("null", .null)]

def reservedValue (word : String) : Except Fault Value :=
  match reservedWords.lookup word with
  | some value => .ok value
  | none => .error (.unknownWord word)

/-- A word that is not reserved is noticed only when it is read. -/
def reserved (word : String) : Parser κ ρ Value :=
  .convert (.lexeme (.literal word)) fun _ ↦ reservedValue word

/-! ## Numbers -/

def optional (inner : Parser κ ρ (List Char)) : Parser κ ρ (List Char) :=
  .orElse inner (.succeed [])

def single (inner : Parser κ ρ Char) : Parser κ ρ (List Char) := inner.map fun c ↦ [c]

def digits : Parser κ ρ (List Char) := .many1 .digit

def fraction : Parser κ ρ (List Char) :=
  (Parser.pair (.char '.') digits).map fun parts ↦ parts.1 :: parts.2

def isExponentMark (c : Char) : Bool := c == 'e' || c == 'E'

def isSign (c : Char) : Bool := c == '+' || c == '-'

def exponent : Parser κ ρ (List Char) :=
  (Parser.pair (.pair (.satisfy isExponentMark) (optional (single (.satisfy isSign)))) digits).map
    fun parts ↦ parts.1.1 :: parts.1.2 ++ parts.2

def numberText : Parser κ ρ (List Char) :=
  .sequence none <|
    .step (optional (single (.char '-'))) fun sign ↦
    .step digits fun whole ↦
    .step (optional fraction) fun fractional ↦
    .step (optional exponent) fun power ↦
    .finish (.ok (sign ++ whole ++ fractional ++ power))

def isFloatMark (c : Char) : Bool := c == '.' || isExponentMark c

/-- A numeral with a point or an exponent is a double, any other one an integer. -/
def numberValue (numeral : List Char) : Except Fault Number :=
  if numeral.any isFloatMark then
    match Reading.float? numeral with
    | some x => .ok (.float x)
    | none => .error (.malformedNumber (String.ofList numeral))
  else (Reading.integer numeral).map .integer

def number : Parser κ ρ Number := .lexeme (.convert numberText numberValue)

/-! ## Strings -/

def escapes : List (Char × Char) :=
  [('b', '\x08'), ('t', '\t'), ('n', '\n'), ('f', '\x0c'), ('r', '\r'), ('\x22', '\x22'),
   ('/', '/'), ('\\', '\\')]

def isPlain (c : Char) : Bool := c != '\\' && c != '\x22'

def plain : Parser κ ρ CodePoints := (Parser.many1 (.satisfy isPlain)).map CodePoints.ofChars

def escapedChar (c : Char) : Except Fault CodePoints :=
  match escapes.lookup c with
  | some escaped => .ok (CodePoints.ofChars [escaped])
  | none => .error (.unknownWord c.toString)

def simpleEscape : Parser κ ρ CodePoints :=
  .convert (.keepRight (.skipChar '\\') (.satisfy fun c ↦ (escapes.lookup c).isSome)) escapedChar

def hexValue? (c : Char) : Option Nat :=
  if '0' ≤ c ∧ c ≤ '9' then some (c.toNat - '0'.toNat)
  else if 'a' ≤ c ∧ c ≤ 'f' then some (c.toNat - 'a'.toNat + 10)
  else if 'A' ≤ c ∧ c ≤ 'F' then some (c.toNat - 'A'.toNat + 10)
  else none

def hexDigit : Parser κ ρ Char := .satisfy fun c ↦ (hexValue? c).isSome

def hexNumber (digits : List Char) : Nat :=
  digits.foldl (fun total c ↦ total * 16 + (hexValue? c).getD 0) 0

/-- The code point that hexadecimal digits name. Other characters make no number, and a number
beyond the last code point names none. -/
def hexPoint (digits : List Char) : Except Fault CodePoint :=
  if h : (digits ≠ [] ∧ digits.all fun c ↦ (hexValue? c).isSome) ∧ hexNumber digits < 0x110000 then
    .ok ⟨hexNumber digits, h.2⟩
  else .error (.notAnInteger (CodePoints.ofChars digits))

/-- As many hexadecimal digits as are still wanted, after the ones already read. -/
def hexDigits (read : List Char) : Nat → Script κ ρ CodePoints
  | 0 => .finish ((hexPoint read).map fun point ↦ [point])
  | wanted + 1 => .step hexDigit fun c ↦ hexDigits (read ++ [c]) wanted

def unicodeEscape : Parser κ ρ CodePoints :=
  .sequence none (.step (.literal "\\u") fun _ ↦ hexDigits [] 4)

def string : Parser κ ρ CodePoints :=
  .lexeme ((Parser.between (.skipChar '\x22') (.many (.firstOf plain [unicodeEscape, simpleEscape]))
    (.skipChar '\x22')).map List.flatten)

/-! ## Values -/

/-- Zero or more, with separators in between; a separator at the end is left unread. -/
def separatedBy (item : Parser κ ρ α) (separator : Parser κ ρ β) : Parser κ ρ (List α) :=
  .orElse
    (.sequence none <|
      .step item fun first ↦
      .step (.many (.keepRight separator item)) fun rest ↦
      .finish (.ok (first :: rest)))
    (.succeed [])

def array (value : Parser κ ρ Value) : Parser κ ρ (List Value) :=
  .between (punctuation '[') (separatedBy value (punctuation ',')) (punctuation ']')

def member (value : Parser κ ρ Value) : Parser κ ρ (CodePoints × Value) :=
  .pair (.keepLeft string (punctuation ':')) value

def object (value : Parser κ ρ Value) : Parser κ ρ (List (CodePoints × Value)) :=
  (Parser.between (punctuation '\x7b') (separatedBy (member value) (punctuation ','))
    (punctuation '\x7d')).map membersOf

/-- The rule that arrays and objects refer back to. -/
def valueRule : Parser Unit Value Value :=
  .firstOf (string.map .string)
    [number.map .number, (object (.forwarding ())).map .object, (array (.forwarding ())).map .array,
     reserved "true", reserved "false", reserved "null"]

def value : Parser κ ρ Value := .recursive valueRule

def document : Parser κ ρ Value := .skipBlanks value

/-- How much of a text that is no JSON its fault shows. -/
def shownLength : Nat := 20

/-- The value of the longest prefix that is a document. -/
def parse (text : Text) : Except Fault Value :=
  match (document.run text).outcome with
  | .success result _ => .ok result
  | .raised fault => .error fault
  | .failure | .endless => .error (.notJson (String.ofList (text.toList.take shownLength)))

end ParserCombinators.Json
