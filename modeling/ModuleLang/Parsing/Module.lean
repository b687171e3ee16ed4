import ModuleLang.Parsing.Declaration

/-!
Parsed texts: a whole module, or a single expression. The diagnostics about
lexemes come before those about the grammar.
-/

namespace ModuleLang

namespace ParserState

/-- Nothing read yet. -/
def initial (sequence : TokenSequence) (fileName : String) : ParserState :=
  ⟨.empty, .ofSequence sequence fileName⟩

end ParserState

/-- A module as the parser leaves it. -/
structure ParsedModule where
  tree : SourceTree
  root : NodeId
  diagnostics : List Diagnostic
  fileName : String

namespace ParsedModule

def ofText (text fileName : String) : Except InternalError ParsedModule :=
  let tokenized := Tokenized.ofText text fileName
  match Parser.root.run (.initial tokenized.sequence fileName) with
  | .ok root state =>
      .ok ⟨state.tree, root, tokenized.diagnostics ++ state.context.diagnostics, fileName⟩
  | .error error _ => .error error

end ParsedModule

/-- An expression that was parsed by itself. -/
structure ParsedExpression where
  tree : SourceTree
  /-- None if the text has no expression. -/
  root : Option NodeId
  diagnostics : List Diagnostic

namespace ParsedExpression

/-- File name in the diagnostics of a single expression. -/
def fileName : String := "<expression>"

/-- One expression; what follows it is reported. -/
def production : Parser (Option NodeId) := do
  Parser.skipLines
  let some root ← Parser.expression 0 | return none
  Parser.skipLines
  if !(← Parser.context).cursor.atEnd then Parser.reportHere .expectedEndOfStatement
  return some root

def ofText (text : String) : Except InternalError ParsedExpression :=
  let tokenized := Tokenized.ofText text fileName
  match production.run (.initial tokenized.sequence fileName) with
  | .ok root state =>
      .ok ⟨state.tree, root, tokenized.diagnostics ++ state.context.diagnostics⟩
  | .error error _ => .error error

end ParsedExpression

end ModuleLang
