import ModuleLang.Validation.Basic

/-!
Names that are given twice. A module says its name once, at its top, and no
function has that name; imports, functions and the parameters of a function
differ from each other. Of repeated functions and parameters all are reported, of
repeated module definitions and imports all but the first.
-/

namespace ModuleLang.ModuleRoot

/-- Nodes with their names. `expected` names what a node without a name should
have been. -/
def named (expected : String) (nodes : List NodeId) : Action (List (NodeId × String)) :=
  nodes.mapM fun node => do
    match (← get).arena.name? node with
    | some name => return (node, name)
    | none => throw (.unexpectedNode node expected)

/-- The entries whose name occurs more than once among all entries. -/
def repeated (entries : List (NodeId × String)) : List (NodeId × String) :=
  entries.filter fun entry => 1 < (entries.map Prod.snd).count entry.2

variable (root : ModuleRoot)

/-- Where a missing module definition is reported: the start of the text. -/
def missingModule : Action Diagnostic := do
  let span ← SourceTree.ofExcept ((← get).spans.span root.node)
  return ⟨.moduleMissing, .point span.start, root.fileName⟩

/-- Functions named as the last segment of a module path. -/
def clashes (path : ModulePath) (functions : List NodeId) : Action (List Diagnostic) := do
  match path.segments.getLast? with
  | none => return []
  | some own =>
      let arena := (← get).arena
      let clashing := functions.filter fun function => arena.name? function == some own
      clashing.mapM fun function => root.finding function (.memberNamedAsModule own)

def definitionFindings (functions : List NodeId) : (modules : List NodeId) →
    Action (List Diagnostic)
  | [] => return [← root.missingModule]
  | first :: others => do
      let extra ← others.mapM fun other => root.finding other .duplicateModule
      match ← kind? first with
      | some (.moduleDef path) => return extra ++ (← root.clashes path functions)
      | _ => throw (.unexpectedNode first "ModuleDef")

/-- Imports of paths that were seen before. -/
def importFindings : (seen : List ModulePath) → List NodeId → Action (List Diagnostic)
  | _, [] => return []
  | seen, node :: nodes => do
      match ← kind? node with
      | some (.useDef path) =>
          if seen.contains path then
            let found ← root.finding node (.duplicateImport path.text)
            return found :: (← importFindings seen nodes)
          else importFindings (path :: seen) nodes
      | _ => throw (.unexpectedNode node "Import")

/-- Findings about the module's name and its imports. -/
def moduleNameFindings : Action (List Diagnostic) := do
  match ← kind? root.node with
  | some (.root modules imports functions) =>
      let definitions ← root.definitionFindings functions modules
      return definitions ++ (← root.importFindings [] imports)
  | _ => throw (.unexpectedNode root.node "Root")

def functionParameterFindings (function : NodeId) : Action (List Diagnostic) := do
  match ← kind? function with
  | some (.function _ _ parameters _) =>
      let entries ← named "Parameter" parameters
      (repeated entries).mapM fun entry => root.finding entry.1 (.duplicateParameter entry.2)
  | _ => throw (.unexpectedNode function "FuncDef")

/-- Parameters that share their name with another one of their function. -/
def parameterFindings : Action (List Diagnostic) :=
  root.inFunctions root.functionParameterFindings

/-- Functions that share their name with another one. -/
def memberFindings : Action (List Diagnostic) := do
  let entries ← named "FuncDef" (← root.functions)
  (repeated entries).mapM fun entry => root.finding entry.1 (.duplicateMember entry.2)

end ModuleLang.ModuleRoot
