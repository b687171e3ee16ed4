import ModuleLang.Token.Cursor
import ModuleLang.Tree.InternalError

/-!
What a production reads from and reports to: a cursor, the diagnostics reported
so far and the file they belong to. A fork starts at the same place with no
diagnostics. Merging a fork adopts its place and appends its diagnostics;
dropping it leaves the parent as it was.
-/

namespace ModuleLang

structure ParsingContext where
  cursor : Cursor
  diagnostics : List Diagnostic
  fileName : String

namespace ParsingContext

def ofSequence (sequence : TokenSequence) (fileName : String) : ParsingContext :=
  ⟨.ofSequence sequence, [], fileName⟩

def fork (context : ParsingContext) : ParsingContext := { context with diagnostics := [] }

def merge (context child : ParsingContext) : ParsingContext :=
  { context with
    cursor := context.cursor.restore child.cursor.position
    diagnostics := context.diagnostics ++ child.diagnostics }

def current (context : ParsingContext) : Token := context.cursor.current

/-- Moves past the current token and the blanks and comments behind it. -/
def advance (context : ParsingContext) : ParsingContext :=
  { context with cursor := context.cursor.advanceInline }

def skipInline (context : ParsingContext) : ParsingContext :=
  { context with cursor := context.cursor.skipInline }

def skipLines (context : ParsingContext) : ParsingContext :=
  { context with cursor := context.cursor.skipLines }

/-- Moves to the first token, from the current one on, that stops it. -/
def skipUntil (stops : TokenKind → Bool) (context : ParsingContext) : ParsingContext :=
  { context with cursor := context.cursor.skipWhile fun kind => !stops kind }

def atKeyword (reserved : Keyword) (context : ParsingContext) : Bool :=
  context.current.kind == .keyword reserved

def atOperator (spelt : Operator) (context : ParsingContext) : Bool :=
  context.current.kind == .operator spelt

def atPunctuation (mark : Punctuation) (context : ParsingContext) : Bool :=
  context.current.kind == .punctuation mark

/-- Tokens that a statement may end in front of. -/
def endsStatement (kind : TokenKind) : Bool :=
  kind == .endOfStatement || kind == .endOfLine || kind == .endOfFile ||
    kind == .punctuation .closeBrace

def atStatementEnd (context : ParsingContext) : Bool := endsStatement context.current.kind

def report (kind : DiagnosticKind) (span : Span) (context : ParsingContext) : ParsingContext :=
  { context with
    diagnostics := context.diagnostics ++ [⟨kind, span, context.fileName⟩] }

/-- Reports at the current token. -/
def reportHere (kind : DiagnosticKind) (context : ParsingContext) : ParsingContext :=
  context.report kind context.current.span

end ParsingContext

end ModuleLang
