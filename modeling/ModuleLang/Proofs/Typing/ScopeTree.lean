import Mathlib.Data.List.Basic
import ModuleLang.Typing.Scope

/-!
Scopes against the tree of frames. The tree writes down everything that was
declared, frame by frame and in the order of time, and looks names up in it by
searching. The three tables of a frame are shown to answer as that search does,
after any sequence of opened frames, closed frames and declarations: what is
visible is found from the innermost frame outwards, and what closed frames hand
on is found in the frame that was closed first.
-/

namespace ModuleLang

/-- What can happen to scopes. -/
inductive ScopeOperation
  | push
  | pop
  | declare (name : String) (binding : Binding)

def Scopes.apply (scopes : Scopes) : ScopeOperation → Scopes
  | .push => scopes.push
  | .pop => scopes.pop
  | .declare name binding => scopes.declare name binding

/-- A frame with its declarations and the closed frames directly inside it, both
in the order of time. -/
inductive ScopeTree
  | frame (declared : List (String × Binding)) (closed : List ScopeTree)

namespace ScopeTree

def empty : ScopeTree := .frame [] []

def declared : ScopeTree → List (String × Binding)
  | .frame declared _ => declared

def closed : ScopeTree → List ScopeTree
  | .frame _ closed => closed

def declare (name : String) (binding : Binding) (tree : ScopeTree) : ScopeTree :=
  .frame (tree.declared ++ [(name, binding)]) tree.closed

def absorb (tree inner : ScopeTree) : ScopeTree :=
  .frame tree.declared (tree.closed ++ [inner])

/-- The last declaration of a name that was made in the frame itself. -/
def latest? (name : String) (tree : ScopeTree) : Option Binding :=
  tree.declared.reverse.lookup name

mutual

/-- The node that declares a name inside the closed frames: in the one that was
closed first among those that hold the name. -/
def nested? (name : String) : ScopeTree → Option NodeId
  | .frame _ closed => firstHeld? name closed

/-- A frame that holds a name answers with its own last declaration, or else
with what its closed frames answer. -/
def firstHeld? (name : String) : List ScopeTree → Option NodeId
  | [] => none
  | tree :: later =>
    (((tree.latest? name).map Binding.node).or (tree.nested? name)).or (firstHeld? name later)

end

/-- A name is declared in a frame, or at any depth inside it. -/
inductive Holds (name : String) : ScopeTree → Prop
  | own {tree : ScopeTree} {binding : Binding} :
      (name, binding) ∈ tree.declared → Holds name tree
  | inside {tree inner : ScopeTree} : inner ∈ tree.closed → Holds name inner → Holds name tree

variable {name : String}

theorem latest_declare (other : String) (binding : Binding) (tree : ScopeTree) :
    (tree.declare other binding).latest? name =
      if name == other then some binding else tree.latest? name := by
  unfold latest? declare
  simp only [declared, List.reverse_append, List.reverse_singleton, List.singleton_append,
    List.lookup_cons]
  cases name == other <;> rfl

theorem latest_absorb (tree inner : ScopeTree) :
    (tree.absorb inner).latest? name = tree.latest? name := rfl

theorem nested_eq (tree : ScopeTree) : tree.nested? name = firstHeld? name tree.closed := by
  cases tree with
  | frame declared closed => rw [nested?, ScopeTree.closed]

theorem nested_declare (other : String) (binding : Binding) (tree : ScopeTree) :
    (tree.declare other binding).nested? name = tree.nested? name := by
  rw [nested_eq, nested_eq]
  rfl

theorem first_held_append (earlier later : List ScopeTree) :
    firstHeld? name (earlier ++ later) = (firstHeld? name earlier).or (firstHeld? name later) := by
  induction earlier with
  | nil => rw [List.nil_append, firstHeld?, Option.none_or]
  | cons tree rest ih => rw [List.cons_append, firstHeld?, firstHeld?, ih, ← Option.or_assoc]

theorem first_held_singleton (tree : ScopeTree) :
    firstHeld? name [tree] = ((tree.latest? name).map Binding.node).or (tree.nested? name) := by
  rw [firstHeld?, firstHeld?, Option.or_none]

theorem nested_absorb (tree inner : ScopeTree) :
    (tree.absorb inner).nested? name =
      (tree.nested? name).or (((inner.latest? name).map Binding.node).or (inner.nested? name)) := by
  rw [nested_eq, nested_eq]
  change firstHeld? name (tree.closed ++ [inner]) = _
  rw [first_held_append, first_held_singleton]

theorem latest_is_some {tree : ScopeTree} :
    (tree.latest? name).isSome ↔ ∃ binding, (name, binding) ∈ tree.declared := by
  unfold latest?
  rw [List.lookup_isSome_iff]
  constructor
  · intro found
    rcases found with ⟨entry, member, same⟩
    rw [eq_of_beq same]
    exact ⟨entry.2, List.mem_reverse.mp member⟩
  · intro declared
    rcases declared with ⟨binding, member⟩
    exact ⟨(name, binding), List.mem_reverse.mpr member, beq_self_eq_true name⟩

theorem holds_iff {tree : ScopeTree} :
    Holds name tree ↔
      (∃ binding, (name, binding) ∈ tree.declared) ∨ ∃ inner ∈ tree.closed, Holds name inner := by
  constructor
  · intro holds
    cases holds with
    | own member => exact .inl ⟨_, member⟩
    | inside member holds => exact .inr ⟨_, member, holds⟩
  · intro found
    rcases found with ⟨binding, member⟩ | ⟨inner, member, holds⟩
    · exact .own member
    · exact .inside member holds

mutual

/-- The search inside the closed frames succeeds for the names that these hold. -/
theorem nested_is_some (name : String) :
    ∀ tree : ScopeTree, (tree.nested? name).isSome ↔ ∃ inner ∈ tree.closed, Holds name inner
  | .frame _ closed => by
      rw [nested?]
      exact first_held_is_some name closed

theorem first_held_is_some (name : String) :
    ∀ trees : List ScopeTree, (firstHeld? name trees).isSome ↔ ∃ tree ∈ trees, Holds name tree
  | [] => by simp [firstHeld?]
  | tree :: later => by
      have own := nested_is_some name tree
      have rest := first_held_is_some name later
      rw [firstHeld?, Option.isSome_or, Option.isSome_or, Option.isSome_map, Bool.or_eq_true,
        Bool.or_eq_true, latest_is_some, own, rest, ← holds_iff, List.exists_mem_cons_iff]

end

/-- The frame that was closed first among those that hold the name answers. -/
theorem nested_of_first {tree first : ScopeTree} {earlier later : List ScopeTree}
    (closed : tree.closed = earlier ++ first :: later)
    (without : ∀ other ∈ earlier, ¬ Holds name other) (holds : Holds name first) :
    tree.nested? name = ((first.latest? name).map Binding.node).or (first.nested? name) := by
  have none_earlier : firstHeld? name earlier = none := by
    rw [← Option.not_isSome_iff_eq_none, first_held_is_some]
    intro found
    rcases found with ⟨other, member, held⟩
    exact without other member held
  have answers : (((first.latest? name).map Binding.node).or (first.nested? name)).isSome := by
    rw [← first_held_singleton, first_held_is_some]
    exact ⟨first, List.mem_singleton.mpr rfl, holds⟩
  rw [nested_eq, closed, first_held_append, none_earlier, Option.none_or, firstHeld?]
  exact Option.or_of_isSome answers

end ScopeTree

/-- The frames that are open, as they were written down. -/
structure ScopePath where
  innermost : ScopeTree
  /-- From the inside outwards. -/
  around : List ScopeTree

namespace ScopePath

def empty : ScopePath := ⟨.empty, []⟩

def depth (path : ScopePath) : Nat := path.around.length + 1

def apply (path : ScopePath) : ScopeOperation → ScopePath
  | .push => ⟨.empty, path.innermost :: path.around⟩
  | .pop =>
    match path.around with
    | [] => path
    | parent :: around => ⟨parent.absorb path.innermost, around⟩
  | .declare name binding => { path with innermost := path.innermost.declare name binding }

/-- The last declaration of a name in the first open frame that has one,
searched from the innermost frame outwards. -/
def search? (name : String) (path : ScopePath) : Option Binding :=
  (path.innermost :: path.around).findSome? (ScopeTree.latest? name)

end ScopePath

/-- The tables of a frame answer as the tree of the frame and the trees of the
frames around it. -/
structure Frame.Follows (frame : Frame) (tree : ScopeTree) (around : List ScopeTree) : Prop where
  visible : ∀ name, frame.visible.lookup name = (tree :: around).findSome? (ScopeTree.latest? name)
  declared : ∀ name, frame.declared.lookup name = (tree.latest? name).map Binding.node
  nested : ∀ name, frame.nested.lookup name = tree.nested? name

/-- Every open frame follows its tree. -/
inductive Frame.AllFollow : List Frame → List ScopeTree → Prop
  | nil : AllFollow [] []
  | cons {frame : Frame} {frames : List Frame} {tree : ScopeTree} {trees : List ScopeTree} :
      frame.Follows tree trees → AllFollow frames trees →
        AllFollow (frame :: frames) (tree :: trees)

def Scopes.Follow (scopes : Scopes) (path : ScopePath) : Prop :=
  Frame.AllFollow (scopes.top :: scopes.outer) (path.innermost :: path.around)

namespace Frame

theorem AllFollow.length_eq {frames : List Frame} {trees : List ScopeTree}
    (follow : AllFollow frames trees) : frames.length = trees.length := by
  induction follow with
  | nil => rfl
  | cons first rest ih => rw [List.length_cons, List.length_cons, ih]

variable {frame closed : Frame} {tree inner : ScopeTree} {around : List ScopeTree}

theorem Follows.inside (follows : frame.Follows tree around) :
    frame.inside.Follows .empty (tree :: around) where
  visible name := follows.visible name
  declared _ := rfl
  nested name := by
    rw [ScopeTree.nested_eq]
    rfl

theorem Follows.declare (follows : frame.Follows tree around) (name : String) (binding : Binding) :
    (frame.declare name binding).Follows (tree.declare name binding) around where
  visible other := by
    have before := follows.visible other
    rw [List.findSome?_cons] at before ⊢
    rw [ScopeTree.latest_declare, Frame.declare, List.lookup_cons, before]
    cases other == name <;> rfl
  declared other := by
    rw [ScopeTree.latest_declare, Frame.declare, List.lookup_cons, follows.declared other]
    cases other == name <;> rfl
  nested other := by
    rw [ScopeTree.nested_declare]
    exact follows.nested other

theorem Follows.absorb {wider : List ScopeTree} (follows : frame.Follows tree around)
    (inside : closed.Follows inner wider) :
    (frame.absorb closed).Follows (tree.absorb inner) around where
  visible name := by
    have before := follows.visible name
    rw [List.findSome?_cons] at before ⊢
    rw [ScopeTree.latest_absorb]
    exact before
  declared name := by
    rw [ScopeTree.latest_absorb]
    exact follows.declared name
  nested name := by
    rw [ScopeTree.nested_absorb, Frame.absorb, List.lookup_append, List.lookup_append,
      follows.nested name, inside.declared name, inside.nested name, Option.or_assoc]

end Frame

namespace Scopes

theorem follow_empty : Follow .empty .empty := by
  apply Frame.AllFollow.cons _ Frame.AllFollow.nil
  constructor
  · intro name
    rfl
  · intro name
    rfl
  · intro name
    rw [ScopeTree.nested_eq]
    rfl

variable {scopes : Scopes} {path : ScopePath}

theorem Follow.apply (follow : scopes.Follow path) (operation : ScopeOperation) :
    (scopes.apply operation).Follow (path.apply operation) := by
  rcases scopes with ⟨top, outer⟩
  rcases path with ⟨innermost, around⟩
  cases follow with
  | cons first rest =>
      cases operation with
      | push => exact .cons first.inside (.cons first rest)
      | declare name binding => exact .cons (first.declare name binding) rest
      | pop =>
          cases rest with
          | nil => exact .cons first .nil
          | cons second others => exact .cons (second.absorb first) others

theorem Follow.run (follow : scopes.Follow path) (operations : List ScopeOperation) :
    (operations.foldl Scopes.apply scopes).Follow (operations.foldl ScopePath.apply path) := by
  induction operations generalizing scopes path with
  | nil => exact follow
  | cons operation rest ih => exact ih (follow.apply operation)

theorem Follow.depth_eq (follow : scopes.Follow path) : scopes.depth = path.depth :=
  Frame.AllFollow.length_eq follow

theorem Follow.lookup_eq (follow : scopes.Follow path) (name : String) :
    scopes.lookup name = path.search? name := by
  cases follow with
  | cons first rest => exact first.visible name

theorem Follow.nested_eq (follow : scopes.Follow path) (name : String) :
    scopes.nested name = path.innermost.nested? name := by
  cases follow with
  | cons first rest => exact first.nested name

theorem pop_of_depth_one (alone : scopes.depth = 1) : scopes.pop = scopes := by
  rcases scopes with ⟨top, outer⟩
  cases outer with
  | nil => rfl
  | cons parent rest => simp [depth] at alone

/-- After every sequence of operations a name is looked up as a search from the
innermost open frame outwards finds it, and the last frame stays open. A name is
known from closed frames exactly when one inside the innermost open frame holds
it, at any depth. Among the frames directly inside, the one that was closed first
answers for it: with its own last declaration, or else as it answered itself. -/
theorem follows_tree (operations : List ScopeOperation) (name : String) :
    let scopes := operations.foldl Scopes.apply .empty
    let path := operations.foldl ScopePath.apply .empty
    scopes.depth = path.depth ∧ scopes.lookup name = path.search? name ∧
      (path.depth = 1 → scopes.apply .pop = scopes) ∧
      ((scopes.nested name).isSome ↔
        ∃ inner ∈ path.innermost.closed, inner.Holds name) ∧
      scopes.nested name = path.innermost.nested? name ∧
      ∀ earlier first later, path.innermost.closed = earlier ++ first :: later →
        (∀ other ∈ earlier, ¬ other.Holds name) → first.Holds name →
          scopes.nested name =
            ((first.latest? name).map Binding.node).or (first.nested? name) := by
  intro scopes path
  have follow : scopes.Follow path := follow_empty.run operations
  have answer := follow.nested_eq name
  refine ⟨follow.depth_eq, follow.lookup_eq name, ?_, ?_, answer, ?_⟩
  · intro alone
    exact pop_of_depth_one (follow.depth_eq.trans alone)
  · rw [answer]
    exact ScopeTree.nested_is_some name path.innermost
  · intro earlier first later closed without holds
    rw [answer]
    exact ScopeTree.nested_of_first closed without holds

/-- A frame answers with its own declaration, though one inside it was closed
before that declaration was made. -/
example (deep own : Binding) :
    ([.push, .push, .declare "a" deep, .pop, .declare "a" own, .pop].foldl apply empty).nested "a" =
      some own.node := rfl

end Scopes

end ModuleLang
