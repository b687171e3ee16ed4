import ModuleLang.Parsing.Expression

/-!
Statements and bodies. A statement that fails leaves its reports on a dropped
fork, and the body around it reports an invalid statement. In a block the
failing statement is then passed over token by token, and a run of failures is
reported once. The productions take the production for statements as a
parameter; `statement` ties them together as `expression` does for expressions.
-/

namespace ModuleLang.Parser

/-- Moves past the end of a simple statement. Whatever else stands before the
end is reported once and passed over. -/
def endStatement : Parser Unit := do
  if !(← context).atStatementEnd then
    let start := (← current).span.start
    move (ParsingContext.skipUntil ParsingContext.endsStatement)
    report .expectedEndOfStatement (.reaching start (← previousEnd))
  if (← current).kind == .endOfStatement then advance

/-- `type name` or `type name := value` -/
def definition : Parser (Option NodeId) := do
  let start := (← current).span.start
  let some type ← type | return none
  let some name ← word? | return none
  let definition ← finish (.definition (some type) name) start
  if (← context).atStatementEnd then return some definition
  if !(← context).atOperator .assign then return none
  advance
  let some value ← expression 0 | return none
  return some (← finish (.assign .assign definition value) start)

/-- Nodes that can be assigned to. -/
def isAssignable : NodeKind NodeId → Bool
  | .member _ | .memberAccess .. | .indexAccess .. => true
  | _ => false

/-- The assignment that a token means. -/
def assignment? : TokenKind → Option AssignOperator
  | .operator spelt => AssignOperator.ofOperator? spelt
  | _ => none

/-- `target := value` and the compound forms -/
def assignment : Parser (Option NodeId) := do
  let start := (← current).span.start
  let some target ← expression Operator.leadingPower | return none
  if !((← kind? target).any isAssignable) then return none
  match assignment? (← current).kind with
  | none => return none
  | some operator =>
      advance
      let some value ← expression 0 | return none
      return some (← finish (.assign operator target value) start)

/-- Expressions that are statements by themselves: calls, constructions and
steps. -/
def standsAlone : NodeKind NodeId → Bool
  | .call .. | .construct .. => true
  | .unary operator _ => operator.isStep
  | _ => false

def expressionStatement : Parser (Option NodeId) := do
  let some expression ← expression 0 | return none
  if (← kind? expression).any standsAlone then return some expression else return none

/-- A definition, an assignment or an expression, in this order, with its end. -/
def simpleStatement : Parser (Option NodeId) := do
  let node ← do
    match ← attempt definition with
    | some node => pure (some node)
    | none =>
        match ← attempt assignment with
        | some node => pure (some node)
        | none => attempt expressionStatement
  if node.isSome then endStatement
  return node

/-- A predicate, in parentheses or bare. A missing closing parenthesis is
reported and the predicate is kept. -/
def predicate : Parser (Option NodeId) := do
  if !(← accept .openParen) then expression 0
  else
    skipLines
    let some predicate ← expression 0 | return none
    skipLines
    expect .closeParen .expectedCloseParen
    return some predicate

/-- `return` or `return value` -/
def returnStatement : Parser (Option NodeId) := do
  let start := (← current).span.start
  advance
  if (← context).atStatementEnd then
    let node ← finish (.returnFrom none) start
    endStatement
    return some node
  let some value ← expression 0 | return none
  let node ← finish (.returnFrom (some value)) start
  endStatement
  return some node

/-- `break` or `continue` -/
def jump (kind : NodeKind NodeId) : Parser (Option NodeId) := do
  let start := (← current).span.start
  advance
  let node ← finish kind start
  endStatement
  return some node

section Productions

variable (statement : Parser (Option NodeId))

/-- Statements of a block behind those already read, up to the closing brace.
`failing` tells whether the statement before failed. -/
def blockFrom : (budget : Nat) → (failing : Bool) → List NodeId → Parser (List NodeId)
  | 0, _, _ => throw .exhausted
  | budget + 1, failing, statements => do
      skipLines
      if ← accept .closeBrace then return statements
      match (← current).kind with
      | .endOfFile =>
          reportHere (.expectedToken "\x7d")
          return statements
      | .endOfStatement =>
          advance
          blockFrom budget failing statements
      | _ =>
          match ← attempt statement with
          | some node => blockFrom budget false (statements ++ [node])
          | none =>
              if !failing then reportHere .invalidStatement
              advance
              blockFrom budget true statements

/-- Statements between braces. A missing closing brace is reported and the
statements are kept. -/
def block : Parser (Option NodeId) := do
  let start := (← current).span.start
  advance
  let statements ← blockFrom statement (← remaining) false []
  return some (← finish (.body statements) start)

/-- A body of one statement. -/
def singleBody : Parser (Option NodeId) := do
  let start := (← current).span.start
  match ← attempt statement with
  | some node => return some (← finish (.body [node]) start)
  | none =>
      reportHere .invalidStatement
      return none

/-- A block, a semicolon for an empty body, or one statement, which may stand on
a later row if that is indented deeper. -/
def body : Parser (Option NodeId) := do
  let here ← context
  let ahead := here.fork.skipLines
  if ahead.atPunctuation .openBrace then
    setContext (here.merge ahead)
    block statement
  else
    match here.current.kind with
    | .endOfStatement =>
        let start := here.current.span.start
        advance
        return some (← finish (.body []) start)
    | .endOfLine | .endOfFile =>
        if ahead.cursor.atEnd || ahead.cursor.indentation ≤ here.cursor.indentation then
          reportHere (.expectedToken "\x7b")
          let place ← previousEnd
          return some (← onTree (SourceTree.create (.body []) (.point place)))
        else
          setContext (here.merge ahead)
          singleBody statement
    | _ => singleBody statement

/-- `if (predicate) body` or `if (predicate) body else body` -/
def condition : Parser (Option NodeId) := do
  let start := (← current).span.start
  advance
  let some predicate ← predicate | return none
  let some thenBody ← body statement | return none
  let here ← context
  let ahead := here.fork.skipLines
  if ahead.atKeyword .elseWord then
    setContext (here.merge ahead)
    advance
    let some elseBody ← body statement | return none
    return some (← finish (.condition predicate thenBody (some elseBody)) start)
  else return some (← finish (.condition predicate thenBody none) start)

/-- `while (predicate) body` -/
def whileLoop : Parser (Option NodeId) := do
  let start := (← current).span.start
  advance
  let some predicate ← predicate | return none
  let some body ← body statement | return none
  return some (← finish (.loop predicate body) start)

/-- One statement. -/
def anyStatement : Parser (Option NodeId) := do
  match (← current).kind with
  | .keyword .ifWord => condition statement
  | .keyword .whileWord => whileLoop statement
  | .keyword .returnWord => returnStatement
  | .keyword .breakWord => jump .breakLoop
  | .keyword .continueWord => jump .continueLoop
  | .punctuation .openBrace => block statement
  | _ => simpleStatement

end Productions

def statementWithin : (budget : Nat) → Parser (Option NodeId)
  | 0 => throw .exhausted
  | budget + 1 => anyStatement (statementWithin budget)

def statement : Parser (Option NodeId) := do statementWithin (← remaining)

end ModuleLang.Parser
