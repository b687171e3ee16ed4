import ModuleLang.Parsing.Context
import ModuleLang.Tree.SourceTree

/-!
Productions. A production returns nothing when the text has no such thing at the
current place; what is wrong has then been reported. Productions that are only
tried out run on a fork. Nodes made on a dropped fork stay in the arena, though
no other node refers to them.
-/

namespace ModuleLang

structure ParserState where
  tree : SourceTree
  context : ParsingContext

abbrev Parser := EStateM InternalError ParserState

namespace Parser

def onTree {α : Type} (action : SourceTree.Action α) : Parser α := fun state =>
  match action.run state.tree with
  | .ok value tree => .ok value { state with tree }
  | .error error tree => .error error { state with tree }

def context : Parser ParsingContext := return (← get).context

def setContext (context : ParsingContext) : Parser Unit :=
  modify fun state => { state with context }

def move (step : ParsingContext → ParsingContext) : Parser Unit :=
  modify fun state => { state with context := step state.context }

def current : Parser Token := return (← context).current

def advance : Parser Unit := move ParsingContext.advance

def skipLines : Parser Unit := move ParsingContext.skipLines

/-- Bound on the number of tokens that productions may still move past, plus
one. -/
def remaining : Parser Nat := return (← context).cursor.remaining

def previousEnd : Parser Position := return (← context).cursor.previousEnd

def reportHere (kind : DiagnosticKind) : Parser Unit := move (ParsingContext.reportHere kind)

def report (kind : DiagnosticKind) (span : Span) : Parser Unit :=
  move (ParsingContext.report kind span)

/-- Moves past the current token if it is a given punctuation. -/
def accept (mark : Punctuation) : Parser Bool := do
  if (← context).atPunctuation mark then
    advance
    return true
  else return false

/-- Moves past a given punctuation, or reports that it is missing. -/
def expect (mark : Punctuation) (missing : DiagnosticKind) : Parser Unit := do
  if !(← accept mark) then reportHere missing

/-- Moves past a word and returns it. -/
def word? : Parser (Option String) := do
  match (← current).kind.word? with
  | some name =>
      advance
      return some name
  | none => return none

/-- Runs a production on a fork, which is merged if it succeeds and dropped if
it does not. -/
def attempt {α : Type} (production : Parser (Option α)) : Parser (Option α) := do
  let parent ← context
  setContext parent.fork
  match ← production with
  | some value =>
      move parent.merge
      return some value
  | none =>
      setContext parent
      return none

/-- Makes a node that spans from `start` to the last token moved past. -/
def finish (kind : NodeKind NodeId) (start : Position) : Parser NodeId := do
  let stop ← previousEnd
  onTree (SourceTree.create kind (.reaching start stop))

def kind? (node : NodeId) : Parser (Option (NodeKind NodeId)) :=
  return (← get).tree.arena.kind? node

end Parser

end ModuleLang
