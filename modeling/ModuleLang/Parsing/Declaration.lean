import ModuleLang.Parsing.Statement

/-!
Module definitions, imports and functions, and the root that holds them. Items
are independent of each other: one that fails is passed over up to the next
keyword that begins an item.
-/

namespace ModuleLang.Parser

/-- Segments of a module path behind those already read. -/
def pathFrom : (budget : Nat) → List String → Parser (Option ModulePath)
  | 0, _ => throw .exhausted
  | budget + 1, segments => do
      let some segment ← word?
        | do
          reportHere .expectedModuleName
          return none
      let segments := segments ++ [segment]
      if ← accept .dot then pathFrom budget segments else return some ⟨segments⟩

/-- A keyword, a module path and the end of the line: `module a.b;` or
`use a.b;` -/
def pathItem (kind : ModulePath → NodeKind NodeId) : Parser (Option NodeId) := do
  let start := (← current).span.start
  advance
  let some path ← pathFrom (← remaining) [] | return none
  let node ← finish (kind path) start
  endStatement
  return some node

/-- `type name` -/
def parameter : Parser (Option NodeId) := do
  let start := (← current).span.start
  let some type ← type | return none
  let some name ← word? | return none
  return some (← finish (.parameter type name) start)

/-- Parameters behind those already read. A parameter that fails ends the list
without a result; a missing closing parenthesis is reported and the list kept. -/
def parametersFrom : (budget : Nat) → List NodeId → Parser (Option (List NodeId))
  | 0, _ => throw .exhausted
  | budget + 1, parameters => do
      match ← attempt parameter with
      | none =>
          reportHere .expectedParameter
          return none
      | some parameter =>
          let parameters := parameters ++ [parameter]
          skipLines
          if ← accept .comma then
            skipLines
            parametersFrom budget parameters
          else
            expect .closeParen .expectedCloseParen
            return some parameters

/-- `(type a, type b, ...)` -/
def parameters : Parser (Option (List NodeId)) := do
  if !(← accept .openParen) then
    reportHere (.expectedToken "(")
    return none
  skipLines
  if ← accept .closeParen then return some []
  parametersFrom (← remaining) []

/-- A result type and a name in front of an opening parenthesis. -/
def typedHeader : Parser (Option (NodeId × String)) := do
  let some result ← type | return none
  let some name ← word? | return none
  if (← context).atPunctuation .openParen then return some (result, name) else return none

/-- The name of a function without a result type. It is not that of a built-in
type. -/
def plainHeader : Parser (Option String) := do
  match (← current).kind.word? with
  | some name =>
      if (Ty.builtin? name).isNone then
        advance
        return some name
      else
        reportHere .expectedFunctionName
        return none
  | none =>
      reportHere .expectedFunctionName
      return none

/-- Result type, if any, and name of a function. -/
def header : Parser (Option (Option NodeId × String)) := do
  match ← attempt typedHeader with
  | some (result, name) => return some (some result, name)
  | none => return (← plainHeader).map fun name => (none, name)

/-- `fn type name(parameters) body` or `fn name(parameters) body` -/
def function : Parser (Option NodeId) := do
  let start := (← current).span.start
  advance
  let some (result, name) ← header | return none
  let some parameters ← parameters | return none
  let some body ← body statement | return none
  return some (← finish (.function result name parameters body) start)

/-- Where an item may begin, and the end of the file. -/
def startsItem (kind : TokenKind) : Bool :=
  kind == .keyword .fnWord || kind == .keyword .moduleWord || kind == .keyword .useWord ||
    kind == .endOfFile

/-- Passes over tokens that begin no item and reports the run once. -/
def skipRun : Parser Unit := do
  let start := (← current).span.start
  move (ParsingContext.skipUntil startsItem)
  report .unexpectedTopLevelToken (.reaching start (← previousEnd))

/-- Moves past an item that failed. -/
def recover (itemPosition : Nat) : Parser Unit := do
  if (← context).cursor.position == itemPosition then advance
  move (ParsingContext.skipUntil startsItem)

/-- Runs a production for an item and recovers if it fails. -/
def item (production : Parser (Option NodeId)) : Parser (List NodeId) := do
  let position := (← context).cursor.position
  match ← production with
  | some node => return [node]
  | none =>
      recover position
      return []

/-- Items of a file, by what they are. -/
structure Items where
  modules : List NodeId
  imports : List NodeId
  functions : List NodeId

/-- Items behind those already read. -/
def itemsFrom : (budget : Nat) → Items → Parser Items
  | 0, _ => throw .exhausted
  | budget + 1, items => do
      skipLines
      match (← current).kind with
      | .endOfFile => return items
      | .endOfStatement =>
          advance
          itemsFrom budget items
      | .keyword .moduleWord =>
          let found ← item (pathItem .moduleDef)
          itemsFrom budget { items with modules := items.modules ++ found }
      | .keyword .useWord =>
          let found ← item (pathItem .useDef)
          itemsFrom budget { items with imports := items.imports ++ found }
      | .keyword .fnWord =>
          let found ← item function
          itemsFrom budget { items with functions := items.functions ++ found }
      | _ =>
          skipRun
          itemsFrom budget items

/-- A whole file. -/
def root : Parser NodeId := do
  let items ← itemsFrom (← remaining) ⟨[], [], []⟩
  let stop := (← current).span.stop
  onTree (SourceTree.create (.root items.modules items.imports items.functions)
    (.reaching .start stop))

end ModuleLang.Parser
