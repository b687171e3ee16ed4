import ModuleLang.Tree.Node

/-!
The nodes of one module, numbered in the order of their creation. Nodes refer to
each other by number; a change of the tree points a slot at another number and
leaves the old node in place. A pre-order lists a node before the nodes below
it, and the nodes below one slot before those of the next.
-/

namespace ModuleLang

structure Arena where
  nodes : Array Node
deriving DecidableEq

namespace Arena

def empty : Arena := ⟨#[]⟩

instance : Inhabited Arena := ⟨empty⟩

def size (arena : Arena) : Nat := arena.nodes.size

/-- Type that a node has from its creation: that of a literal. -/
def initialType : NodeKind NodeId → Option Ty
  | .literal value => some value.type
  | _ => none

/-- Adds a node. Its number is the former size. -/
def alloc (arena : Arena) (kind : NodeKind NodeId) : NodeId × Arena :=
  (⟨arena.size⟩, ⟨arena.nodes.push ⟨kind, initialType kind⟩⟩)

def node? (arena : Arena) (id : NodeId) : Option Node := arena.nodes[id.index]?

def kind? (arena : Arena) (id : NodeId) : Option (NodeKind NodeId) := (arena.node? id).map Node.kind

/-- Adding a node leaves the others as they are. -/
theorem node?_alloc (arena : Arena) (kind : NodeKind NodeId) (id : NodeId) :
    (arena.alloc kind).2.node? id =
      if id.index = arena.size then some ⟨kind, initialType kind⟩ else arena.node? id :=
  Array.getElem?_push

theorem size_alloc (arena : Arena) (kind : NodeKind NodeId) :
    (arena.alloc kind).2.size = arena.size + 1 := by
  simp [alloc, size]

/-- Type of a node, while it is known. -/
def type? (arena : Arena) (id : NodeId) : Option Ty := (arena.node? id).bind Node.type

def setType (arena : Arena) (id : NodeId) (type : Option Ty) : Arena :=
  ⟨arena.nodes.modify id.index fun node => { node with type }⟩

def setKind (arena : Arena) (id : NodeId) (kind : NodeKind NodeId) : Arena :=
  ⟨arena.nodes.modify id.index fun node => { node with kind }⟩

theorem size_setType (arena : Arena) (id : NodeId) (type : Option Ty) :
    (arena.setType id type).size = arena.size := by
  simp [setType, size]

theorem size_setKind (arena : Arena) (id : NodeId) (kind : NodeKind NodeId) :
    (arena.setKind id kind).size = arena.size := by
  simp [setKind, size]

/-- Typing a node changes no tree. -/
theorem kind?_setType (arena : Arena) (id other : NodeId) (type : Option Ty) :
    (arena.setType id type).kind? other = arena.kind? other := by
  simp only [kind?, node?, setType, Array.getElem?_modify]
  split
  · simp [Function.comp_def]
  · rfl

theorem type?_setKind (arena : Arena) (id other : NodeId) (kind : NodeKind NodeId) :
    (arena.setKind id kind).type? other = arena.type? other := by
  simp only [type?, node?, setKind, Array.getElem?_modify]
  split
  · cases arena.nodes[other.index]? <;> rfl
  · rfl

def children (arena : Arena) (id : NodeId) : List NodeId :=
  ((arena.kind? id).map NodeKind.children).getD []

def name? (arena : Arena) (id : NodeId) : Option String := (arena.kind? id).bind NodeKind.name?

/-- Points the first slot of `parent` that holds `old` at `new`; fails if there
is no such slot. -/
def replaceChild? (arena : Arena) (parent old new : NodeId) : Option Arena :=
  ((arena.kind? parent).bind (NodeKind.replaceChild? old new)).map (arena.setKind parent)

/-- Number of nodes on all paths of at most `depth` nodes down from a node. -/
def extent (arena : Arena) : (depth : Nat) → NodeId → Nat
  | 0, _ => 0
  | depth + 1, id => 1 + ((arena.children id).map (extent arena depth)).sum

/-- Takes nodes off a stack, last in first out, and puts their children on it. -/
def unwind (arena : Arena) : (budget : Nat) → (stack : List NodeId) → List NodeId
  | 0, _ => []
  | _ + 1, [] => []
  | budget + 1, id :: stack => id :: unwind arena budget (arena.children id ++ stack)

/-- A node and the nodes below it in pre-order. A path that is longer than the
arena would meet a node twice and is not followed. -/
def descendants (arena : Arena) (root : NodeId) : List NodeId :=
  arena.unwind (arena.extent arena.size root) [root]

/-- Computes a value from a node and the values of its children, from the leaves
up. There is none if a slot refers to no node or a path is longer than `depth`. -/
def foldWithin {value : Type} (arena : Arena)
    (step : NodeId → NodeKind value → Option Ty → value) : (depth : Nat) → NodeId → Option value
  | 0, _ => none
  | depth + 1, id => do
      let node ← arena.node? id
      let kind ← node.kind.mapM (foldWithin arena step depth)
      return step id kind node.type

/-- Computes a value from the leaves of a finite tree up to its root. -/
def fold? {value : Type} (arena : Arena) (step : NodeId → NodeKind value → Option Ty → value)
    (root : NodeId) : Option value :=
  arena.foldWithin step arena.size root

end Arena

end ModuleLang
