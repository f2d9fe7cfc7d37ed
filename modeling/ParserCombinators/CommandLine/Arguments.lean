import ParserCombinators.Character.Digit
import ParserCombinators.CommandLine.Binding
import ParserCombinators.Text.Quoted

/-!
# Arguments of the command

Options may be mixed with the expressions. A long option may be shortened as long as it stays unique
and takes its value after an equals sign; short options can be written together, the last one with
its value attached. After `--` everything is an expression. Only the first run of expressions is
taken; what comes in later runs is refused, together with unknown options, after everything else has
been looked at.
-/

namespace ParserCombinators.CommandLine

inductive Switch
  | help
  | spaces
  | evaluate
  | binding
  | complete
  deriving DecidableEq, Repr

namespace Switch

def all : List Switch := [help, spaces, evaluate, binding, complete]

def short : Switch → Char
  | help => 'h'
  | spaces => 's'
  | evaluate => 'e'
  | binding => 'l'
  | complete => 'c'

def long : Switch → String
  | help => "--help"
  | spaces => "--spaces"
  | evaluate => "--evaluate"
  | binding => "--let"
  | complete => "--complete"

/-- The name of the option in messages. -/
def shown (switch : Switch) : String := String.ofList ['-', switch.short] ++ "/" ++ switch.long

def ofShort? (c : Char) : Option Switch := all.find? fun switch ↦ switch.short == c

/-- The options whose long names begin with the given characters. -/
def ofLong (start : List Char) : List Switch :=
  all.filter fun switch ↦ start.isPrefixOf switch.long.toList

end Switch

/-- A word of the command line by itself. -/
inductive Word
  | plain (text : String)
  | separator
  /-- An option, spelled long or short, with what is attached to it. -/
  | switch (switch : Switch) (long : Bool) (attached : Option (List Char))
  | unknown (text : String)
  deriving DecidableEq, Repr

/-- Why nothing is to be done with the arguments. -/
inductive Refusal
  | help
  | usage (message : String)
  deriving DecidableEq, Repr

def quotedChars (characters : List Char) : String := quoted (.ofChars characters)

def argumentError (switch : Switch) (message : String) : Refusal :=
  .usage ("argument " ++ switch.shown ++ ": " ++ message)

def ignoredArgument (switch : Switch) (attached : List Char) : Refusal :=
  argumentError switch ("ignored explicit argument " ++ quotedChars attached)

/-! ## Words -/

def allDigits (characters : List Char) : Bool :=
  !characters.isEmpty && characters.all Character.isDigit

/-- Digits, or a point with digits after it and perhaps before it, behind a minus sign; a line feed
at the end is overlooked. -/
def looksNegative (characters : List Char) : Bool :=
  match characters with
  | '-' :: rest =>
    let numeral := if rest.getLast? == some '\n' then rest.dropLast else rest
    allDigits numeral ||
      match numeral.dropWhile Character.isDigit with
      | '.' :: fraction => allDigits fraction
      | _ => false
  | _ => false

/-- What stands before the first equals sign and what stands after it. -/
def splitAtEquals (characters : List Char) : List Char × Option (List Char) :=
  match characters.span (· != '=') with
  | (name, _ :: value) => (name, some value)
  | (name, []) => (name, none)

/-- A word that begins with a minus sign but names no option. -/
def withoutSwitch (characters : List Char) : Word :=
  if looksNegative characters || characters.contains ' ' then .plain (String.ofList characters)
  else .unknown (String.ofList characters)

def ambiguity (characters : List Char) (matching : List Switch) : Refusal :=
  .usage ("ambiguous option: " ++ String.ofList characters ++ " could match " ++
    ", ".intercalate (matching.map Switch.long))

def longWord (characters : List Char) : Except Refusal Word :=
  let (name, attached) := splitAtEquals characters
  match Switch.ofLong name with
  | [] => .ok (withoutSwitch characters)
  | [switch] => .ok (.switch switch true attached)
  | matching => .error (ambiguity characters matching)

/-- An equals sign right after a short option is dropped. -/
def shortWord (letter : Char) (rest : List Char) : Word :=
  match Switch.ofShort? letter with
  | none => withoutSwitch ('-' :: letter :: rest)
  | some switch =>
    match rest with
    | [] => .switch switch false none
    | '=' :: value => .switch switch false (some value)
    | _ => .switch switch false (some rest)

def readWord (text : String) : Except Refusal Word :=
  match text.toList with
  | '-' :: '-' :: rest => longWord ('-' :: '-' :: rest)
  | '-' :: letter :: rest => .ok (shortWord letter rest)
  | _ => .ok (.plain text)

/-- Every word after the first separator is plain. -/
def readWords : List String → Except Refusal (List Word)
  | [] => .ok []
  | text :: rest =>
    if text == "--" then .ok (.separator :: rest.map .plain)
    else do
      let word ← readWord text
      return word :: (← readWords rest)

/-! ## Options -/

structure Options where
  spaced : Bool
  evaluated : Bool
  complete : Bool
  bindings : List (String × Number)
  expressions : List String

/-- Whether the run of expressions that counts is still to come, going on, or over. -/
inductive Stage
  | before
  | within
  | past
  deriving DecidableEq, Repr

/-- What the words so far amount to. An option for a binding whose attached value is `--` has none.
-/
structure Progress where
  spaced : Bool
  evaluated : Bool
  complete : Bool
  bindings : List (Option (String × Number))
  expressions : List String
  extras : List String
  stage : Stage

namespace Progress

def start : Progress := ⟨false, false, false, [], [], [], .before⟩

/-- An option ends a run of expressions. -/
def interrupted (progress : Progress) : Progress :=
  match progress.stage with
  | .within => { progress with stage := .past }
  | _ => progress

/-- The separator itself is no expression, but is refused like one after the run that counts. -/
def plain (progress : Progress) (text : String) (counts : Bool) : Progress :=
  match progress.stage with
  | .past => { progress with extras := progress.extras ++ [text] }
  | _ =>
    let expressions := if counts then progress.expressions ++ [text] else progress.expressions
    { progress with expressions, stage := .within }

def unknown (progress : Progress) (text : String) : Progress :=
  { progress.interrupted with extras := progress.extras ++ [text] }

def flag (progress : Progress) : Switch → Except Refusal Progress
  | .help => .error .help
  | .spaces => .ok { progress with spaced := true }
  | .evaluate => .ok { progress with evaluated := true }
  | .complete => .ok { progress with complete := true }
  | .binding => .ok progress

def bound (progress : Progress) (value : String) : Except Refusal Progress :=
  if value == "--" then .ok { progress with bindings := progress.bindings ++ [none] }
  else match readBinding value with
    | .ok binding => .ok { progress with bindings := progress.bindings ++ [some binding] }
    | .error fault =>
      let message := (fault.message.bind CodePoints.toString?).getD ""
      .error (argumentError .binding message)

end Progress

/-- How a group of options ends. -/
inductive GroupEnd
  | complete
  /-- The binding stands in the same word. -/
  | value (text : String)
  /-- The binding is the next word. -/
  | wanted

/-- The short options written together behind a first one. -/
def expandGroup (first : Switch) : List Char → Except Refusal (List Switch × GroupEnd)
  | [] => .ok (if first = .binding then ([], .wanted) else ([first], .complete))
  | letter :: rest =>
    if first = .binding then .ok ([], .value (String.ofList (letter :: rest)))
    else match Switch.ofShort? letter with
      | none => .error (ignoredArgument first (letter :: rest))
      | some next => (expandGroup next rest).map fun (others, ending) ↦ (first :: others, ending)

def expand (switch : Switch) (long : Bool) (attached : Option (List Char)) :
    Except Refusal (List Switch × GroupEnd) :=
  match attached with
  | none => expandGroup switch []
  | some value =>
    if switch = .binding then .ok ([], .value (String.ofList value))
    else if long || value.isEmpty then .error (ignoredArgument switch value)
    else expandGroup switch value

/-- The words are worked off in order, so the first refusal wins. -/
def follow (progress : Progress) : List Word → Except Refusal Progress
  | [] => .ok progress
  | .plain text :: rest => follow (progress.plain text true) rest
  | .separator :: rest => follow (progress.plain "--" false) rest
  | .unknown text :: rest => follow (progress.unknown text) rest
  | .switch switch long attached :: rest => do
    let (flags, ending) ← expand switch long attached
    let flagged := flags.foldlM Progress.flag progress.interrupted
    match ending with
    | .complete => follow (← flagged) rest
    | .value text => follow (← (← flagged).bound text) rest
    | .wanted =>
      match rest with
      | .plain text :: others => follow (← (← flagged).bound text) others
      | _ => .error (argumentError .binding "expected one argument")

/-- The arguments asked for are known, or a binding without a value follows the given bindings. -/
inductive Request
  | options (options : Options)
  | missingBinding (before : List (String × Number))

def requestOf (progress : Progress) : Request :=
  let given := progress.bindings.takeWhile Option.isSome
  let bindings := given.filterMap id
  if given.length < progress.bindings.length then .missingBinding bindings
  else .options
    ⟨progress.spaced, progress.evaluated, progress.complete, bindings, progress.expressions⟩

def readArguments (arguments : List String) : Except Refusal Request := do
  let progress ← follow Progress.start (← readWords arguments)
  if progress.extras.isEmpty then return requestOf progress
  else throw (.usage ("unrecognized arguments: " ++ " ".intercalate progress.extras))

end ParserCombinators.CommandLine
