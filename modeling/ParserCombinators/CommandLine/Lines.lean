import ParserCombinators.Text.Strip

/-!
# Lines of input

The usable lines come before the first one that says `quit`, stripped of blanks, without the empty
ones.
-/

namespace ParserCombinators.CommandLine

/-- The pieces between line feeds. -/
def splitLines : List Char → List (List Char)
  | [] => [[]]
  | c :: rest =>
    match splitLines rest with
    | [] => [[c]]
    | line :: lines => if c == '\n' then [] :: line :: lines else (c :: line) :: lines

/-- In letters of either case; no letters but those of the Latin alphabet have these as lower case.
-/
def isQuit (line : List Char) : Bool := line.map Char.toLower == ['q', 'u', 'i', 't']

/-- Nothing is looked at after the line that says `quit`. -/
def usableLines : List (List Char) → List (List Char)
  | [] => []
  | line :: rest =>
    let text := strip line
    if isQuit text then []
    else if text.isEmpty then usableLines rest
    else text :: usableLines rest

def linesOf (input : String) : List String :=
  (usableLines (splitLines input.toList)).map String.ofList

end ParserCombinators.CommandLine
