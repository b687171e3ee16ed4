import ModuleLang.Tree.Arena
import ModuleLang.Tree.SpanTable

/-!
An arena together with the spans of its nodes, and the actions that stages build
it with. What an action had done before it failed stays done.
-/

namespace ModuleLang

structure SourceTree where
  arena : Arena
  spans : SpanTable
deriving Inhabited

namespace SourceTree

def empty : SourceTree := ⟨.empty, .empty⟩

abbrev Action := EStateM InternalError SourceTree

/-- Carries an action out on the span table. -/
def onSpans {α : Type} (action : SpanTable.Action α) : Action α := fun tree =>
  match action.run tree.spans with
  | .ok value spans => .ok value { tree with spans }
  | .error error spans => .error error { tree with spans }

/-- The value of a fallible computation. -/
def ofExcept {σ α : Type} : Except InternalError α → EStateM InternalError σ α
  | .ok value => pure value
  | .error error => throw error

def alloc (kind : NodeKind NodeId) : Action NodeId :=
  modifyGet fun tree =>
    let (id, arena) := tree.arena.alloc kind
    (id, { tree with arena })

/-- Adds a node with its span. -/
def create (kind : NodeKind NodeId) (span : Span) : Action NodeId := do
  let id ← alloc kind
  onSpans (SpanTable.add id span)
  return id

def setType (id : NodeId) (type : Option Ty) : Action Unit :=
  modify fun tree => { tree with arena := tree.arena.setType id type }

def setKind (id : NodeId) (kind : NodeKind NodeId) : Action Unit :=
  modify fun tree => { tree with arena := tree.arena.setKind id kind }

/-- Points the slot of `parent` that holds `old` at `new`. `expected` names what
`parent` should have been when there is no such slot. -/
def replaceChild (parent old new : NodeId) (expected : String) : Action Unit := do
  match (← get).arena.replaceChild? parent old new with
  | some arena => modify fun tree => { tree with arena }
  | none => throw (.unexpectedNode parent expected)

end SourceTree

end ModuleLang
