import ModuleLang.Tree.SourceTree

/-!
What checks of a whole module share: the module that they look at and the
diagnostics that they find in it.
-/

namespace ModuleLang

/-- The root of a module and the file that it was read from. -/
structure ModuleRoot where
  node : NodeId
  fileName : String
deriving DecidableEq

namespace ModuleRoot

abbrev Action := SourceTree.Action

def kind? (node : NodeId) : Action (Option (NodeKind NodeId)) :=
  return (← get).arena.kind? node

variable (root : ModuleRoot)

/-- A diagnostic at a node. -/
def finding (node : NodeId) (kind : DiagnosticKind) : Action Diagnostic := do
  SourceTree.ofExcept ((← get).spans.report root.fileName node kind)

def functions : Action (List NodeId) := do
  match ← kind? root.node with
  | some (.root _ _ functions) => return functions
  | _ => throw (.unexpectedNode root.node "Root")

/-- What a check finds in each function, in the order of the functions. -/
def inFunctions (check : NodeId → Action (List Diagnostic)) : Action (List Diagnostic) := do
  return (← (← root.functions).mapM check).flatten

end ModuleRoot

end ModuleLang
