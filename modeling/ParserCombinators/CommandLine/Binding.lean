import ParserCombinators.Number.Reading
import ParserCombinators.Parser.Lexical

/-!
# Bindings of variables

A binding is written as a name, an equals sign and a number, which is an integer if it can be read
as one and else a double.
-/

namespace ParserCombinators.CommandLine

def bindingName {κ ρ : Type} : Parser κ ρ String := .keepLeft .identifier (.skipChar '=')

/-- An integer numeral over the limit on digits is read as a double. -/
def readNumber (characters : List Char) : Except Fault Number :=
  match Reading.integer characters with
  | .ok n => .ok (.integer n)
  | .error _ =>
    match Reading.float? characters with
    | some x => .ok (.float x)
    | none => .error (.malformedNumber (String.ofList characters))

def readBinding (source : String) : Except Fault (String × Number) :=
  let text := Text.ofString source
  match (bindingName.run text).outcome with
  | .success name position => (readNumber (text.suffixFrom position)).map fun value ↦ (name, value)
  | _ => .error (.malformedBinding source)

end ParserCombinators.CommandLine
