import ParserCombinators.Text.Basic
import ParserCombinators.Text.Strip

/-!
# Pictures of where parsing stopped

Two lines: the text behind a margin, and carets under what was left over. Tabs of the consumed part
are repeated in the second line, so that the carets stay in their columns.
-/

namespace ParserCombinators.CommandLine

def margin : List Char := [' ', '>', '>', '>', ' ']

/-- The first characters of a text, up to a position; a negative one is counted from the end. -/
def consumed (characters : List Char) (position : Int) : List Char :=
  characters.take (if position < 0 then position + characters.length else position).toNat

def indent (characters : List Char) : List Char :=
  characters.map fun c ↦ if c == '\t' then '\t' else ' '

/-- There is at least one caret, also where nothing is left over. -/
def caretCount (shown : List Char) (position : Int) : Nat :=
  max 1 ((shown.length : Int) - position).toNat

/-- A parser that did not match consumed nothing. -/
def stoppingPoint (source : String) (stop : Option Int) (caption : String) : String :=
  let characters := source.toList
  let position := stop.getD 0
  let shown := stripEnd characters
  String.ofList
    (margin ++ shown ++ '\n' :: indent (margin ++ consumed characters position) ++
      List.replicate (caretCount shown position) '^' ++ ' ' :: caption.toList)

end ParserCombinators.CommandLine
