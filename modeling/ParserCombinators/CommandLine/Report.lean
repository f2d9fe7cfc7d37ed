import ParserCombinators.CommandLine.Arguments
import ParserCombinators.CommandLine.Lines
import ParserCombinators.CommandLine.StoppingPoint
import ParserCombinators.CommandLine.Usage
import ParserCombinators.Expression.Evaluation
import ParserCombinators.Expression.Grammar
import ParserCombinators.Expression.Rendering

/-!
# What the command prints

Every expression is printed with all its parentheses, and on demand with its value. Text that does
not parse, text left over, missing variables and divisions by zero are complained about, and the
status tells whether any expression was at fault. Numbers that are too large end the command on the
spot.
-/

namespace ParserCombinators.CommandLine

/-- What was written to the two streams, with the warnings that were given apart from them. -/
structure Written where
  output : String
  errors : String
  warnings : List String
  deriving DecidableEq, Repr

namespace Written

def nothing : Written := ⟨"", "", []⟩

def append (first second : Written) : Written :=
  ⟨first.output ++ second.output, first.errors ++ second.errors, first.warnings ++ second.warnings⟩

instance : Append Written := ⟨append⟩

def toOutput (text : String) : Written := ⟨text, "", []⟩

def toErrors (text : String) : Written := ⟨"", text, []⟩

end Written

/-- What was written, and the status, or the fault that nothing handles. -/
structure Report where
  written : Written
  ending : Except Fault Nat

namespace Report

def finished (written : Written) (status : Nat) : Report := ⟨written, .ok status⟩

/-- A report after something that was written before it. -/
def after (written : Written) (report : Report) : Report :=
  ⟨written ++ report.written, report.ending⟩

end Report

def complaint (text : String) (stop : Option Int) (message caption : String) : Written :=
  .toErrors (message ++ "\n" ++ stoppingPoint text stop caption ++ "\n")

def quotedString (text : String) : String := quoted (.ofString text)

/-- The value of an expression on a line by itself. The arrow is already written when a value turns
out to be too long. -/
def reportValue (tree : Expression) (environment : Environment Number) : Report :=
  match tree.evaluate environment with
  | .ok value =>
    match value.text with
    | .ok text => .finished (.toOutput (" --> " ++ text ++ "\n")) 0
    | .error fault => ⟨.toOutput " --> ", .error fault⟩
  | .error (.unboundVariable name) =>
    .finished (.toErrors ("No such variable " ++ quotedString name ++ ".\n")) 1
  | .error .divisionByZero | .error .floatDivisionByZero =>
    .finished (.toErrors "Division by zero.\n") 1
  | .error fault => ⟨.nothing, .error fault⟩

def reportTree (options : Options) (environment : Environment Number) (tree : Expression) :
    Report :=
  match tree.render with
  | .error fault => ⟨.nothing, .error fault⟩
  | .ok text =>
    let written := Written.toOutput (text ++ "\n")
    if options.evaluated then .after written (reportValue tree environment) else .finished written 0

/-- The report on one expression. -/
def process (options : Options) (environment : Environment Number) (text : String) : Report :=
  match (Expression.parse options.spaced (.ofString text)).outcome with
  | .success tree position =>
    if position < text.length then
      if options.complete then
        let message := "Unconsumed text after the expression."
        .finished (complaint text (some position) message "stopped here") 1
      else
        let note := s!"Note: only the first {position} character(s) were parsed."
        .after (complaint text (some position) note "ignored") (reportTree options environment tree)
    else reportTree options environment tree
  | _ =>
    let message := "Not an expression: " ++ quotedString text
    .finished (complaint text none message "nothing parses here") 1

/-- The status is that of the worst expression. -/
def processAll (options : Options) (environment : Environment Number) : List String → Report
  | [] => .finished .nothing 0
  | text :: rest =>
    let first := process options environment text
    match first.ending with
    | .error _ => first
    | .ok status =>
      let others := processAll options environment rest
      ⟨first.written ++ others.written, others.ending.map (max status)⟩

def repetitionWarning (name : String) (value : Number) : String :=
  "variable " ++ quotedString name ++ " given more than once; using " ++ value.digits

/-- A warning for each binding of a name that an earlier one has bound. -/
def repetitionWarnings (bound : List String) : List (String × Number) → List String
  | [] => []
  | (name, value) :: rest =>
    let others := repetitionWarnings (name :: bound) rest
    if bound.contains name then repetitionWarning name value :: others else others

def warningsOf (bindings : List (String × Number)) : Written :=
  ⟨"", "", repetitionWarnings [] bindings⟩

/-- The report on the expressions of the options, or else on the lines of the input. -/
def runOptions (options : Options) (input : String) : Report :=
  let texts := if options.expressions.isEmpty then linesOf input else options.expressions
  .after (warningsOf options.bindings) (processAll options (.ofBindings options.bindings) texts)

/-- The whole command: its arguments and its input to its report. -/
def command (arguments : List String) (input : String) : Report :=
  match readArguments arguments with
  | .ok (.options options) => runOptions options input
  | .ok (.missingBinding before) => ⟨warningsOf before, .error .missingBinding⟩
  | .error .help => .finished (.toOutput help) 0
  | .error (.usage message) => .finished (.toErrors (usageError message)) 2

/-- Whether the expressions are to come from the input. -/
def readsInput (arguments : List String) : Bool :=
  match readArguments arguments with
  | .ok (.options options) => options.expressions.isEmpty
  | _ => false

end ParserCombinators.CommandLine
