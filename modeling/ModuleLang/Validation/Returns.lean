import ModuleLang.Validation.Basic

/-!
Ends of functions. A function with a result must return on every path through
its body; a loop counts as one that may not run at all, and a condition returns
if both of its bodies do. Statements behind a jump are never reached. A function
without a result gets the return that its text may leave out.
-/

namespace ModuleLang

namespace Arena

/-- Whether a statement returns on every path. Statements are looked at to a
depth; an arena's size is deep enough. -/
def statementReturns (arena : Arena) : (depth : Nat) → NodeId → Bool
  | 0, _ => false
  | depth + 1, statement =>
      let bodyReturns (body : NodeId) : Bool :=
        match arena.kind? body with
        | some (.body statements) => statements.any (statementReturns arena depth)
        | _ => false
      match arena.kind? statement with
      | some (.returnFrom _) => true
      | some (.condition _ thenBody (some elseBody)) =>
          bodyReturns thenBody && bodyReturns elseBody
      | some (.body _) => bodyReturns statement
      | _ => false

/-- Whether every path through a body returns. -/
def bodyReturns (arena : Arena) (body : NodeId) : Bool :=
  match arena.kind? body with
  | some (.body statements) => statements.any (arena.statementReturns arena.size)
  | _ => false

def isJump (arena : Arena) (statement : NodeId) : Bool :=
  match arena.kind? statement with
  | some (.returnFrom _) | some .breakLoop | some .continueLoop => true
  | _ => false

/-- Statements of a body behind its first jump. -/
def unreachable (arena : Arena) (body : NodeId) : List NodeId :=
  match arena.kind? body with
  | some (.body statements) =>
      (statements.dropWhile fun statement => !arena.isJump statement).drop 1
  | _ => []

end Arena

namespace ModuleRoot

variable (root : ModuleRoot)

/-- Reports the unreachable statements of one body together. -/
def unreachableFindings (body : NodeId) : Action (List Diagnostic) := do
  let tree ← get
  match tree.arena.unreachable body with
  | [] => return []
  | statements =>
      let found ← SourceTree.ofExcept
        (tree.spans.reportRange root.fileName statements .unreachableCode)
      return [found]

def functionReturnFindings (function : NodeId) : Action (List Diagnostic) := do
  match ← kind? function with
  | some (.function result _ _ body) =>
      let arena := (← get).arena
      let missing ←
        if result.isSome && !arena.bodyReturns body then
          pure [← root.finding function .notAllPathsReturn]
        else pure []
      let bodies ← (arena.descendants body).mapM root.unreachableFindings
      return missing ++ bodies.flatten
  | _ => throw (.unexpectedNode function "FuncDef")

/-- Functions that may end without their result, and statements that are never
reached. -/
def returnFindings : Action (List Diagnostic) := root.inFunctions root.functionReturnFindings

/-- Ends a body with a return, unless it ends with one. -/
def completeBody (body : NodeId) : Action Unit := do
  match ← kind? body with
  | some (.body statements) =>
      let last ← match statements.getLast? with
        | some statement => kind? statement
        | none => pure none
      match last with
      | some (.returnFrom _) => return
      | _ =>
          let span ← SourceTree.ofExcept ((← get).spans.span body)
          let node ← SourceTree.create (.returnFrom none) (.point span.stop)
          SourceTree.setKind body (.body (statements ++ [node]))
  | _ => throw (.unexpectedNode body "Body")

def completeFunction (function : NodeId) : Action Unit := do
  match ← kind? function with
  | some (.function none _ _ body) => completeBody body
  | some (.function ..) => return
  | _ => throw (.unexpectedNode function "FuncDef")

/-- Ends every function without a result with a return. Nothing is reported. -/
def completeReturns : Action (List Diagnostic) := do
  (← root.functions).forM completeFunction
  return []

end ModuleRoot

end ModuleLang
