import ParserCombinators.Fault.Mismatch
import ParserCombinators.Text.CodePoint
import ParserCombinators.Text.Quoted

/-!
# Faults

A parser that does not match merely fails. A fault is something else: a mistake in how a grammar was
put together, or a value that an operation is not defined on. Each constructor is one cause.
-/

namespace ParserCombinators

inductive Fault
  /-- A forwarding parser ran before its cell was assigned. -/
  | unassignedReference (label : Option String)
  | reassignedReference (label : Option String)
  /-- Something that is no parser was to be put into a cell; a text is kept for the message. -/
  | notAParser (shown : Option String)
  | emptyChoice
  /-- A parser for one character was asked for with something of another length; a text is kept. -/
  | notOneCharacter (text : Option CodePoints)
  | unboundVariable (name : String)
  | unknownWord (word : String)
  | unknownName (name : String)
  | divisionByZero
  | floatDivisionByZero
  | unknownOperator (symbol : String)
  | quotientTooLarge
  | integerTooLarge
  /-- An integer from a double that is infinite, or that is no number. -/
  | infiniteInteger
  | undefinedInteger
  /-- A sequence cannot be repeated so often, or a text, or anything that is to fit into memory. -/
  | countTooLarge
  | textTooLong
  | outOfMemory
  /-- A plain text stands where an expression belongs. -/
  | notAnExpression (text : String)
  | notJson (start : String)
  | notAnInteger (text : CodePoints)
  /-- An integer has too many digits to be written out. -/
  | integerTooLong
  /-- A numeral has too many digits to be read as an integer. -/
  | numeralTooLong (digits : Nat)
  | malformedBinding (text : String)
  | malformedNumber (text : String)
  | missingBinding
  | mismatch (found : Mismatch)
  /-- There is no element at the place that a sequence of the given kind was asked for. -/
  | missingElement (kind : String)
  | missingKey
  deriving DecidableEq, Repr

namespace Fault

/-- Integers of more decimal digits than this are neither written out nor read from a numeral. -/
def digitLimit : Nat := 4300

/-- How much of a quoted text the message about a bad integer shows. -/
def shownLength : Nat := 200

def digitLimitText (detail : String) : String :=
  "Exceeds the limit (4300 digits) for integer string conversion" ++ detail ++
    "; use sys.set_int_max_str_digits() to increase the limit"

def message : Fault → Option CodePoints
  | unassignedReference label => label.map CodePoints.ofString
  | reassignedReference label => label.map CodePoints.ofString
  | notAParser shown => shown.map CodePoints.ofString
  | emptyChoice => wording "A choice among nothing is better written as fail()."
  | notOneCharacter text => text
  | unboundVariable name => wording name
  | unknownWord word => wording word
  | unknownName name => wording name
  | divisionByZero => wording "division by zero"
  | floatDivisionByZero => wording "float division by zero"
  | unknownOperator symbol =>
    wording (quoted (CodePoints.ofString symbol) ++ " is not a valid BinaryOp")
  | quotientTooLarge => wording "integer division result too large for a float"
  | integerTooLarge => wording "int too large to convert to float"
  | infiniteInteger => wording "cannot convert float infinity to integer"
  | undefinedInteger => wording "cannot convert float NaN to integer"
  | countTooLarge => wording "cannot fit 'int' into an index-sized integer"
  | textTooLong => wording "repeated string is too long"
  | outOfMemory => none
  | notAnExpression text => wording text
  | notJson _ => wording "Not JSON"
  | notAnInteger text =>
    wording ("invalid literal for int() with base 10: " ++
      String.ofList ((Quoted.encodeChars text).take shownLength))
  | integerTooLong => wording (digitLimitText "")
  | numeralTooLong digits => wording (digitLimitText s!": value has {digits} digits")
  | malformedBinding text =>
    wording ("expected NAME=VALUE, got " ++ quoted (CodePoints.ofString text))
  | malformedNumber text => wording (quoted (CodePoints.ofString text) ++ " is not a number")
  | missingBinding => wording "not enough values to unpack (expected 2, got 0)"
  | mismatch found => wording found.message
  | missingElement kind => wording (kind ++ " index out of range")
  | missingKey => none
where
  wording (text : String) : Option CodePoints := some (CodePoints.ofString text)

end Fault

end ParserCombinators
