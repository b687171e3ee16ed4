import ModuleLang.Tree.Node

/-!
Names that are visible in a function. Every body opens a frame that sees the
names of the frames around it and closes without leaving them visible. What a
closed frame declared, itself or in frames inside it, stays known to the frame
around it as declared in a nested body: there such a name cannot be declared
again, while bodies beside each other may each declare it.
-/

namespace ModuleLang

inductive BindingKind
  | parameter
  /-- Declared in a body. -/
  | inner
deriving DecidableEq

/-- What a visible name stands for. -/
structure Binding where
  /-- Unknown where it could not be found out. -/
  type : Option Ty
  /-- The node that declares the name. -/
  node : NodeId
  kind : BindingKind
deriving DecidableEq

/-- In every table the first entry of a name counts. Declarations are put in
front; what nested frames declared is put behind. -/
structure Frame where
  /-- Names declared here or around this frame. -/
  visible : List (String × Binding)
  /-- Names declared here. -/
  declared : List (String × NodeId)
  /-- Names declared in closed frames inside this one. -/
  nested : List (String × NodeId)
deriving DecidableEq

namespace Frame

def empty : Frame := ⟨[], [], []⟩

/-- A frame inside another one. -/
def inside (frame : Frame) : Frame := { empty with visible := frame.visible }

def declare (name : String) (binding : Binding) (frame : Frame) : Frame :=
  { frame with
    visible := (name, binding) :: frame.visible
    declared := (name, binding.node) :: frame.declared }

/-- The frame around `closed`, once that is closed. Of several nested
declarations of a name the one that was closed first counts. -/
def absorb (frame closed : Frame) : Frame :=
  { frame with nested := frame.nested ++ closed.declared ++ closed.nested }

end Frame

/-- The frames that are open, with the innermost apart from those around it. -/
structure Scopes where
  top : Frame
  outer : List Frame
deriving DecidableEq

namespace Scopes

/-- One frame, which holds the parameters of a function. -/
def empty : Scopes := ⟨.empty, []⟩

instance : Inhabited Scopes := ⟨empty⟩

def depth (scopes : Scopes) : Nat := scopes.outer.length + 1

def push (scopes : Scopes) : Scopes := ⟨scopes.top.inside, scopes.top :: scopes.outer⟩

/-- Closes the innermost frame. The last one is never closed. -/
def pop (scopes : Scopes) : Scopes :=
  match scopes.outer with
  | [] => scopes
  | parent :: outer => ⟨parent.absorb scopes.top, outer⟩

def declare (name : String) (binding : Binding) (scopes : Scopes) : Scopes :=
  { scopes with top := scopes.top.declare name binding }

def lookup (name : String) (scopes : Scopes) : Option Binding := scopes.top.visible.lookup name

/-- The node that declared a name in a closed frame inside the innermost one. -/
def nested (name : String) (scopes : Scopes) : Option NodeId := scopes.top.nested.lookup name

/-- Nothing that happens in a frame stays visible behind it. -/
theorem lookup_pop_declare_push (name other : String) (binding : Binding) (scopes : Scopes) :
    ((scopes.push.declare other binding).pop).lookup name = scopes.lookup name := rfl

theorem lookup_declare_self (name : String) (binding : Binding) (scopes : Scopes) :
    (scopes.declare name binding).lookup name = some binding := by
  simp [lookup, declare, Frame.declare]

end Scopes

end ModuleLang
