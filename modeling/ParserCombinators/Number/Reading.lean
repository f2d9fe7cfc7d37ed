import ParserCombinators.Character.Blank
import ParserCombinators.Character.Digit
import ParserCombinators.Number.Basic

/-!
# Reading numerals

A numeral may stand between blanks, has at most one sign, takes the digits of any script, and allows
single underscores between digits. An integer has digits only; a double may have a point, an
exponent, or be spelled `inf`, `infinity` or `nan` in letters of either case.
-/

namespace ParserCombinators.Reading

/-- The four information separators are no blanks here. -/
def isMargin (c : Char) : Bool := Character.isBlank c && !Character.isInformationSeparator c

def trim (characters : List Char) : List Char :=
  (characters.dropWhile isMargin).reverse.dropWhile isMargin |>.reverse

/-- The sign, true for minus, and what follows it. -/
def takeSign : List Char → Bool × List Char
  | '-' :: rest => (true, rest)
  | '+' :: rest => (false, rest)
  | rest => (false, rest)

/-- A longest run of digits with single underscores between them; a run that starts or ends with an
underscore, or has two in a row, is malformed. -/
inductive DigitRun
  | malformed
  | digits (values : List Nat) (rest : List Char)

def takeDigits (afterUnderscore : Bool) : List Char → DigitRun
  | [] => if afterUnderscore then .malformed else .digits [] []
  | c :: rest =>
    match Character.digitValue? c with
    | some value =>
      match takeDigits false rest with
      | .digits values remainder => .digits (value :: values) remainder
      | .malformed => .malformed
    | none =>
      if c == '_' then
        if afterUnderscore then .malformed else takeDigits true rest
      else if afterUnderscore then .malformed
      else .digits [] (c :: rest)

/-- The digits at the front, of which there may be none; an underscore in front is left unread. -/
def leadingDigits : List Char → DigitRun
  | '_' :: rest => .digits [] ('_' :: rest)
  | characters => takeDigits false characters

def valueOf (digits : List Nat) : Nat := digits.foldl (fun total digit ↦ 10 * total + digit) 0

def signed (negative : Bool) (magnitude : Nat) : Int :=
  if negative then -(magnitude : Int) else magnitude

/-- The limit on digits counts leading zeros, and is looked at before what follows the digits. -/
def integer (characters : List Char) : Except Fault Int :=
  let malformed := Fault.notAnInteger (CodePoints.ofChars characters)
  let (negative, unsigned) := takeSign (trim characters)
  match leadingDigits unsigned with
  | .malformed => .error malformed
  | .digits values rest =>
    if values.isEmpty then .error malformed
    else if Fault.digitLimit < values.length then .error (.numeralTooLong values.length)
    else if rest.isEmpty then .ok (signed negative (valueOf values))
    else .error malformed

/-- The value of an exponent mark with its digits, zero if there is no mark. -/
def exponentPart : List Char → Option (Int × List Char)
  | [] => some (0, [])
  | mark :: rest =>
    if mark == 'e' || mark == 'E' then
      let (negative, unsigned) := takeSign rest
      match leadingDigits unsigned with
      | .digits (first :: others) remainder =>
        some (signed negative (valueOf (first :: others)), remainder)
      | _ => none
    else none

/-- The digits after a point, none if there is no point. -/
def fractionPart : List Char → DigitRun
  | '.' :: rest => leadingDigits rest
  | rest => .digits [] rest

def decimal? (negative : Bool) (characters : List Char) : Option Float :=
  match leadingDigits characters with
  | .malformed => none
  | .digits whole afterWhole =>
    match fractionPart afterWhole with
    | .malformed => none
    | .digits fraction afterFraction =>
      if whole.isEmpty && fraction.isEmpty then none
      else match exponentPart afterFraction with
        | some (exponent, []) =>
          let shifted := exponent - fraction.length
          some (Binary64.ofDecimal negative (valueOf (whole ++ fraction)) shifted)
        | _ => none

def float? (characters : List Char) : Option Float :=
  let (negative, unsigned) := takeSign (trim characters)
  let word := String.ofList (unsigned.map Char.toLower)
  if word == "inf" || word == "infinity" then some (Binary64.infinity negative)
  else if word == "nan" then some Binary64.notANumber
  else decimal? negative unsigned

end ParserCombinators.Reading
