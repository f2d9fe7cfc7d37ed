import ParserCombinators.Session.Building

/-!
# Sessions

A session puts a grammar together step by step: cells and parsers get names, rules are put into
cells, and parsers are run in between. A step that meets a fault changes nothing.
-/

namespace ParserCombinators

structure Session : Type 1 where
  parsers : List (String × Session.AnyParser)
  names : List (String × Cell)
  cells : Cells Value

namespace Session

/-- What is to be put into a cell: a parser by its recipe, or something else, of which a text is
kept. -/
inductive Content
  | recipe (recipe : Recipe)
  | other (shown : Option String)

inductive Step
  | forward (name : String) (label : Option String)
  | define (name : String) (recipe : Recipe)
  | assign (name : String) (content : Content)
  | isAssigned (name : String)
  | describe (name : String)
  | run (recipe : Recipe) (text : Text) (position : Int)

inductive Answer
  | done
  | assigned (value : Bool)
  | described (text : String)
  | ran (run : Run Value)

def empty : Session := ⟨[], [], Cells.empty⟩

/-- The newest parser of a name. -/
def parserNamed (session : Session) (name : String) : Except Fault AnyParser :=
  match session.parsers.find? (·.1 == name) with
  | some (_, parser) => .ok parser
  | none => .error (.unknownName name)

def cellNamed (session : Session) (name : String) : Except Fault Cell :=
  match session.names.lookup name with
  | some cell => .ok cell
  | none => .error (.unknownName name)

def forward (session : Session) (name : String) (label : Option String) : Session :=
  let (cell, cells) := session.cells.forward label
  ⟨(name, .forwarding cell) :: session.parsers, (name, cell) :: session.names, cells⟩

def define (session : Session) (name : String) (recipe : Recipe) : Except Fault Session := do
  let parser ← recipe.build session.parserNamed
  return { session with parsers := (name, parser) :: session.parsers }

/-- The parser is built before the cell is looked at. -/
def assign (session : Session) (name : String) (content : Content) : Except Fault Session := do
  let assignee ← match content with
    | .recipe recipe => (recipe.build session.parserNamed).map Assignee.parser
    | .other shown => .ok (.other shown)
  match session.cellNamed name with
  | .ok cell =>
    let cells ← session.cells.assign cell assignee
    return { session with cells }
  | .error fault => .error fault

def run (session : Session) (recipe : Recipe) (text : Text) (position : Int) : Run Value :=
  match recipe.build session.parserNamed with
  | .ok parser => session.cells.runAt parser text position
  | .error fault => .raised fault

def change (session : Session) : Except Fault Session → Except Fault Answer × Session
  | .ok changed => (.ok .done, changed)
  | .error fault => (.error fault, session)

/-- The answer to a step and the session after it. -/
def take (session : Session) : Step → Except Fault Answer × Session
  | .forward name label => (.ok .done, session.forward name label)
  | .define name recipe => session.change (session.define name recipe)
  | .assign name content => session.change (session.assign name content)
  | .isAssigned name =>
    ((session.cellNamed name).map fun cell ↦ .assigned (session.cells.isAssigned cell), session)
  | .describe name =>
    ((session.cellNamed name).map fun cell ↦ .described (session.cells.describe cell), session)
  | .run recipe text position => (.ok (.ran (session.run recipe text position)), session)

/-- The answers to the steps in order. -/
def takeAll (session : Session) : List Step → List (Except Fault Answer)
  | [] => []
  | step :: rest =>
    let (answer, next) := session.take step
    answer :: next.takeAll rest

end Session

end ParserCombinators
