import ModuleLang.Host
import ModuleLang.Tree.SourceTree
import ModuleLang.Typing.Scope

/-!
The state in which types are inferred, and the nodes that inference adds: type
references, default values and widening casts. An added node has the span of the
node that it was added for. Inference that fails leaves the tree as far as it
had come.
-/

namespace ModuleLang

/-- What is known outside the functions. -/
structure Environment where
  fileName : String
  host : Host
  /-- Functions of the module. -/
  functions : List Signature

structure InferenceState where
  tree : SourceTree
  scopes : Scopes
  /-- Result type of the current function: `void` for none, and unknown where the
  declared type was not found, so that returns are not checked. -/
  result : Option Ty
  /-- Number of loops around the current statement. -/
  loopDepth : Nat
  /-- Definitions that were reported as duplicates. -/
  duplicates : List NodeId
  diagnostics : List Diagnostic

namespace InferenceState

def initial (tree : SourceTree) : InferenceState := ⟨tree, .empty, none, 0, [], []⟩

end InferenceState

abbrev Inference := EStateM InternalError InferenceState

namespace Inference

def onTree {α : Type} (action : SourceTree.Action α) : Inference α := fun state =>
  match action.run state.tree with
  | .ok value tree => .ok value { state with tree }
  | .error error tree => .error error { state with tree }

/-- The diagnostics of an inference, as an action on the tree. -/
def diagnose (inference : Inference Unit) : SourceTree.Action (List Diagnostic) := fun tree =>
  match inference.run (.initial tree) with
  | .ok _ state => .ok state.diagnostics state.tree
  | .error error state => .error error state.tree

def kind? (node : NodeId) : Inference (Option (NodeKind NodeId)) :=
  return (← get).tree.arena.kind? node

def type? (node : NodeId) : Inference (Option Ty) := return (← get).tree.arena.type? node

def setType (node : NodeId) (type : Option Ty) : Inference Unit :=
  onTree (SourceTree.setType node type)

def scopes : Inference Scopes := return (← get).scopes

def onScopes (step : Scopes → Scopes) : Inference Unit :=
  modify fun state => { state with scopes := step state.scopes }

/-- Adds a node with the span of `origin`. -/
def add (kind : NodeKind NodeId) (origin : NodeId) : Inference NodeId := do
  let node ← onTree (SourceTree.alloc kind)
  onTree (SourceTree.onSpans (SpanTable.copy origin node))
  return node

/-- Adds the written form of a type. -/
def addTypeRef (type : Ty) (origin : NodeId) : Inference NodeId := do
  let (base, ranks) := type.layers
  let node ← onTree (SourceTree.alloc (.typeRef base.text ranks))
  setType node (some type)
  onTree (SourceTree.onSpans (SpanTable.copy origin node))
  return node

/-- Adds the value that a variable starts with: the zero of its type, a newly
constructed host value, or `null`. -/
def addDefault (type : Ty) (origin : NodeId) : Inference NodeId :=
  match Literal.zero? type, type with
  | some zero, _ => add (.literal zero) origin
  | none, .named _ => do
      let written ← addTypeRef type origin
      let node ← onTree (SourceTree.alloc (.construct written []))
      setType node (some type)
      onTree (SourceTree.onSpans (SpanTable.copy origin node))
      return node
  | none, _ => add (.literal .null) origin

/-- Puts a widening cast between `parent` and its child. -/
def insertCast (parent child : NodeId) (target : Ty) : Inference Unit := do
  let source ← type? child
  let written ← addTypeRef target child
  let node ← add (.cast written child source) child
  onTree (SourceTree.replaceChild parent child node "parent of the widened operand")
  setType node (some target)

variable (environment : Environment)

def report (node : NodeId) (kind : DiagnosticKind) : Inference Unit := do
  let found ← SourceTree.ofExcept ((← get).tree.spans.report environment.fileName node kind)
  modify fun state => { state with diagnostics := state.diagnostics ++ [found] }

/-- Reports both definitions of a name, each one at most once. -/
def reportDuplicate (earlier later : NodeId) (name : String) : Inference Unit :=
  [earlier, later].forM fun node => do
    if !(← get).duplicates.contains node then
      modify fun state => { state with duplicates := node :: state.duplicates }
      report environment node (.duplicateVariable name)

/-- Resolves a written type. Built-in types come before those of the host. -/
def resolveType (node : NodeId) : Inference (Option Ty) := do
  match ← kind? node with
  | some (.typeRef name ranks) =>
      match Ty.builtin? name <|> environment.host.type? name with
      | none =>
          report environment node (.typeNotFound name)
          return none
      | some base =>
          let type := base.layered ranks
          setType node (some type)
          return some type
  | _ => throw (.unexpectedNode node "TypeRef")

end Inference

end ModuleLang
