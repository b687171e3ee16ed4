import ModuleLang.Parsing.Type

/-!
Expressions, by binding power. An operand is followed by what is written behind
it (members, indexers, steps) and then by binary operators that bind tighter
than the caller allows. The productions take the production for expressions as a
parameter; `expression` ties them together, each nested expression with one unit
of budget less. A nested expression always begins at a later token, so the
number of remaining tokens is budget enough.
-/

namespace ModuleLang.Parser

section Productions

variable (expression : (minimum : Nat) → Parser (Option NodeId))

/-- Arguments behind those already read, up to the closing parenthesis. A
missing parenthesis is reported and the arguments are kept. -/
def argumentsFrom : (budget : Nat) → List NodeId → Parser (Option (List NodeId))
  | 0, _ => throw .exhausted
  | budget + 1, arguments => do
      let some argument ← expression 0 | return none
      let arguments := arguments ++ [argument]
      skipLines
      if ← accept .comma then
        skipLines
        argumentsFrom budget arguments
      else
        expect .closeParen .expectedCloseParen
        return some arguments

/-- `(a, b, ...)` -/
def arguments : Parser (Option (List NodeId)) := do
  if !(← accept .openParen) then
    reportHere (.expectedToken "(")
    return none
  skipLines
  if ← accept .closeParen then return some []
  argumentsFrom expression (← remaining) []

/-- `new T(arguments)` or `new T[length]` -/
def construction : Parser (Option NodeId) := do
  let start := (← current).span.start
  advance
  let typeStart := (← current).span.start
  let some name ← word?
    | do
      reportHere .expectedTypeName
      return none
  let type ← finish (.typeRef name []) typeStart
  if ← accept .openBracket then
    let some length ← expression 0 | return none
    expect .closeBracket .expectedCloseBracket
    return some (← finish (.newArray type length) start)
  let some arguments ← arguments expression | return none
  return some (← finish (.construct type arguments) start)

/-- Tokens that can only begin an operand. -/
def beginsOperand : TokenKind → Bool
  | .word _ | .literal _ | .punctuation .openParen => true
  | _ => false

/-- `(type) operand`, if the type is built in or the token behind the
parenthesis can only begin an operand. -/
def cast : Parser (Option NodeId) := do
  let start := (← current).span.start
  advance
  let some target ← type | return none
  if !(← accept .closeParen) then return none
  let builtin ← namesBuiltin target
  if !builtin && !beginsOperand (← current).kind then return none
  let some inner ← expression Operator.leadingPower | return none
  return some (← finish (.cast target inner none) start)

/-- `( expression )`. A missing closing parenthesis is reported and the
expression is kept. -/
def parenthesized : Parser (Option NodeId) := do
  advance
  skipLines
  let some inner ← expression 0 | return none
  skipLines
  expect .closeParen .expectedCloseParen
  return some inner

/-- A literal, a name, a call, a construction, an operator in front of its
operand, a cast or an expression in parentheses. -/
def operand : Parser (Option NodeId) := do
  let token ← current
  let start := token.span.start
  match token.kind with
  | .literal value =>
      advance
      return some (← finish (.literal value) start)
  | .word name =>
      advance
      if (← context).atPunctuation .openParen then
        let some arguments ← arguments expression | return none
        return some (← finish (.call name arguments) start)
      else return some (← finish (.member name) start)
  | .keyword .newWord => construction expression
  | .operator spelt =>
      match UnaryOperator.leading? spelt with
      | some operator =>
          advance
          let some operand ← expression Operator.leadingPower | return none
          return some (← finish (.unary operator operand) start)
      | none =>
          reportHere .expectedExpression
          return none
  | .punctuation .openParen =>
      match ← attempt (cast expression) with
      | some cast => return some cast
      | none => parenthesized expression
  | _ =>
      reportHere .expectedExpression
      return none

/-- Members, indexers and steps behind `target`. -/
def trailing : (budget : Nat) → (start : Position) → (target : NodeId) → Parser (Option NodeId)
  | 0, _, _ => throw .exhausted
  | budget + 1, start, target => do
      match (← current).kind with
      | .punctuation .dot =>
          advance
          let some name ← word?
            | do
              reportHere (.expectedToken "member name")
              return none
          trailing budget start (← finish (.memberAccess target name) start)
      | .punctuation .openBracket =>
          advance
          let some index ← expression 0 | return none
          expect .closeBracket .expectedCloseBracket
          trailing budget start (← finish (.indexAccess target index) start)
      | .operator spelt =>
          match UnaryOperator.trailing? spelt with
          | some operator =>
              advance
              trailing budget start (← finish (.unary operator target) start)
          | none => return some target
      | _ => return some target

/-- A binary operator that binds tighter than `minimum`, with its power. -/
def tighter? (minimum : Nat) : TokenKind → Option (BinaryOperator × Nat)
  | .operator spelt => do
      let power ← spelt.bindingPower?
      if power ≤ minimum then none
      else return (← BinaryOperator.ofOperator? spelt, power)
  | _ => none

/-- Binary operators behind `left`, as long as they bind tighter than
`minimum`. -/
def binaries (minimum : Nat) :
    (budget : Nat) → (start : Position) → (left : NodeId) → Parser (Option NodeId)
  | 0, _, _ => throw .exhausted
  | budget + 1, start, left => do
      match tighter? minimum (← current).kind with
      | none => return some left
      | some (operator, power) =>
          advance
          skipLines
          let some right ← expression power | return none
          binaries minimum budget start (← finish (.binary operator left right) start)

/-- An operand and what follows it. -/
def operation (minimum : Nat) : Parser (Option NodeId) := do
  let start := (← current).span.start
  let some first ← operand expression | return none
  let some left ← trailing expression (← remaining) start first | return none
  binaries expression minimum (← remaining) start left

end Productions

def expressionWithin : (budget minimum : Nat) → Parser (Option NodeId)
  | 0, _ => throw .exhausted
  | budget + 1, minimum => operation (expressionWithin budget) minimum

/-- An expression whose binary operators all bind tighter than `minimum`. -/
def expression (minimum : Nat) : Parser (Option NodeId) := do
  expressionWithin (← remaining) minimum

end ModuleLang.Parser
