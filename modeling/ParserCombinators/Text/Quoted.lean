import ParserCombinators.Character.Printable
import ParserCombinators.Text.CodePoint

/-!
# Quoted texts

A quoted text stands between single quotes, or between double quotes when it holds a single quote
and no double one. The quote in use and the backslash get a backslash in front; tab, line feed and
carriage return have short escapes; every other unprintable code point is written in hexadecimal
digits.
-/

namespace ParserCombinators.Quoted

/-- The lower-case hexadecimal digits of a number, with leading zeros up to the given width. -/
def hexadecimal (width code : Nat) : List Char :=
  let digits := Nat.toDigits 16 code
  List.replicate (width - digits.length) '0' ++ digits

/-- Two digits while they suffice, then four, then eight. -/
def hexadecimalEscape (code : Nat) : List Char :=
  if code ≤ 0xFF then '\\' :: 'x' :: hexadecimal 2 code
  else if code ≤ 0xFFFF then '\\' :: 'u' :: hexadecimal 4 code
  else '\\' :: 'U' :: hexadecimal 8 code

def escape (quote : Char) (point : CodePoint) : List Char :=
  if point.val = quote.toNat then ['\\', quote]
  else if point.val = '\\'.toNat then ['\\', '\\']
  else if point.val = '\t'.toNat then ['\\', 't']
  else if point.val = '\n'.toNat then ['\\', 'n']
  else if point.val = '\r'.toNat then ['\\', 'r']
  else match point.toChar? with
    | some c => if Character.isPrintable point.val then [c] else hexadecimalEscape point.val
    | none => hexadecimalEscape point.val

def singleQuote : Char := '\x27'

def doubleQuote : Char := '\x22'

def quoteOf (points : CodePoints) : Char :=
  if points.contains (.ofChar singleQuote) && !points.contains (.ofChar doubleQuote) then
    doubleQuote
  else singleQuote

def encodeChars (points : CodePoints) : List Char :=
  let quote := quoteOf points
  quote :: points.flatMap (escape quote) ++ [quote]

end ParserCombinators.Quoted

namespace ParserCombinators

/-- The text in quotes, as it appears in messages. -/
def quoted (points : CodePoints) : String := String.ofList (Quoted.encodeChars points)

end ParserCombinators
