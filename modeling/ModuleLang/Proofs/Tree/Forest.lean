import Mathlib.Data.List.Nodup
import Mathlib.Data.List.Perm.Subperm
import Mathlib.Logic.Relation
import ModuleLang.Tree.Arena

/-!
What a node holds after a change of an arena, and reachability. In a forest every node
is younger than its children and has at most one parent, so what lies below two children
of one node is disjoint. A visit of one child then cannot disturb another.
-/

namespace ModuleLang

theorem NodeId.ext {first second : NodeId} (same : first.index = second.index) : first = second := by
  cases first
  cases second
  simpa using same

namespace Arena

theorem kind_of_node {arena other : Arena} {id : NodeId}
    (same : arena.node? id = other.node? id) : arena.kind? id = other.kind? id := by
  unfold kind?
  rw [same]

theorem type_of_node {arena other : Arena} {id : NodeId}
    (same : arena.node? id = other.node? id) : arena.type? id = other.type? id := by
  unfold type?
  rw [same]

theorem node_bound {arena : Arena} {id : NodeId} : (arena.node? id).isSome ↔ id.index < arena.size := by
  simp [node?, size]

theorem kind_bound {arena : Arena} {id : NodeId} {kind : NodeKind NodeId}
    (found : arena.kind? id = some kind) : id.index < arena.size := by
  rw [← node_bound]
  unfold kind? at found
  obtain ⟨node, same, -⟩ := Option.map_eq_some_iff.mp found
  rw [same]
  rfl

theorem kind_exists {arena : Arena} {id : NodeId} (bound : id.index < arena.size) :
    ∃ kind, arena.kind? id = some kind := by
  obtain ⟨node, found⟩ := Option.isSome_iff_exists.mp (node_bound.mpr bound)
  exact ⟨node.kind, by simp [kind?, found]⟩

theorem children_of_kind {arena : Arena} {id : NodeId} {kind : NodeKind NodeId}
    (found : arena.kind? id = some kind) : arena.children id = kind.children := by
  simp [children, found]

theorem child_of_kind {arena : Arena} {id child : NodeId} {kind : NodeKind NodeId}
    (found : arena.kind? id = some kind) (inside : child ∈ kind.children) :
    child ∈ arena.children id := by
  rw [children_of_kind found]
  exact inside

theorem kind_of_child {arena : Arena} {parent child : NodeId}
    (inside : child ∈ arena.children parent) :
    ∃ kind, arena.kind? parent = some kind ∧ child ∈ kind.children := by
  unfold children at inside
  cases found : arena.kind? parent with
  | none => simp [found] at inside
  | some kind => exact ⟨kind, rfl, by simpa [found] using inside⟩

/-- There are no more nodes than the arena is large. -/
theorem length_le_size {arena : Arena} {nodes : List NodeId} (distinct : nodes.Nodup)
    (bounded : ∀ node ∈ nodes, node.index < arena.size) : nodes.length ≤ arena.size := by
  have apart : (nodes.map NodeId.index).Nodup :=
    distinct.map fun first second same => by cases first; cases second; exact congrArg _ same
  have known : nodes.map NodeId.index ⊆ List.range arena.size := by
    intro index inside
    obtain ⟨node, member, rfl⟩ := List.mem_map.mp inside
    exact List.mem_range.mpr (bounded node member)
  simpa using (List.subperm_of_subset apart known).length_le

theorem kind_alloc (arena : Arena) (kind : NodeKind NodeId) (id : NodeId) :
    (arena.alloc kind).2.kind? id = if id.index = arena.size then some kind else arena.kind? id := by
  unfold kind?
  rw [node?_alloc]
  split <;> rfl

theorem node_set_type (arena : Arena) (id other : NodeId) (type : Option Ty) :
    (arena.setType id type).node? other =
      if id = other then (arena.node? other).map fun node => { node with type }
      else arena.node? other := by
  unfold setType node?
  rw [Array.getElem?_modify]
  by_cases same : id = other
  · simp [same]
  · have different : id.index ≠ other.index := fun equal => same (NodeId.ext equal)
    simp [same, different]

theorem node_set_kind (arena : Arena) (id other : NodeId) (kind : NodeKind NodeId) :
    (arena.setKind id kind).node? other =
      if id = other then (arena.node? other).map fun node => { node with kind }
      else arena.node? other := by
  unfold setKind node?
  rw [Array.getElem?_modify]
  by_cases same : id = other
  · simp [same]
  · have different : id.index ≠ other.index := fun equal => same (NodeId.ext equal)
    simp [same, different]

theorem kind_set_kind {arena : Arena} {id : NodeId} (bound : id.index < arena.size)
    (kind : NodeKind NodeId) : (arena.setKind id kind).kind? id = some kind := by
  obtain ⟨node, found⟩ := Option.isSome_iff_exists.mp (node_bound.mpr bound)
  unfold kind?
  rw [node_set_kind, if_pos rfl, found]
  rfl

theorem type_set_type {arena : Arena} {id : NodeId} (bound : id.index < arena.size)
    (type : Option Ty) : (arena.setType id type).type? id = type := by
  obtain ⟨node, found⟩ := Option.isSome_iff_exists.mp (node_bound.mpr bound)
  unfold type?
  rw [node_set_type, if_pos rfl, found]
  rfl

theorem set_type_of_new (arena : Arena) (kind : NodeKind NodeId) (type : Option Ty) :
    (arena.alloc kind).2.setType ⟨arena.size⟩ type = ⟨arena.nodes.push ⟨kind, type⟩⟩ := by
  unfold setType alloc size
  congr 1
  apply Array.ext_getElem?
  intro index
  rw [Array.getElem?_modify, Array.getElem?_push, Array.getElem?_push]
  by_cases same : index = arena.nodes.size
  · simp [same]
  · have different : arena.nodes.size ≠ index := fun equal => same equal.symm
    simp [same, different]

/-- A node is below another one, or the same. -/
def Reachable (arena : Arena) : NodeId → NodeId → Prop :=
  Relation.ReflTransGen fun parent child => child ∈ arena.children parent

theorem Reachable.of_child {arena : Arena} {parent child : NodeId}
    (inside : child ∈ arena.children parent) : arena.Reachable parent child :=
  Relation.ReflTransGen.single inside

theorem Reachable.below_child {arena : Arena} {parent child node : NodeId}
    (inside : child ∈ arena.children parent) (below : arena.Reachable child node) :
    arena.Reachable parent node :=
  Relation.ReflTransGen.head inside below

/-- What lies below a node is the node or lies below one of its children. -/
theorem reachable_cases {arena : Arena} {root node : NodeId} (below : arena.Reachable root node) :
    node = root ∨ ∃ child ∈ arena.children root, arena.Reachable child node := by
  obtain same | ⟨child, inside, rest⟩ := Relation.ReflTransGen.cases_head below
  · exact Or.inl same.symm
  · exact Or.inr ⟨child, inside, rest⟩

/-- The nodes from a root on form a tree: no node stands in two slots, and none
lies below itself. -/
structure IsTree (arena : Arena) (root : NodeId) : Prop where
  distinct : ∀ node, arena.Reachable root node → (arena.children node).Nodup
  single : ∀ first second child, arena.Reachable root first → arena.Reachable root second →
    child ∈ arena.children first → child ∈ arena.children second → first = second
  acyclic : ∀ parent child, arena.Reachable root parent → child ∈ arena.children parent →
    ¬ arena.Reachable child parent

namespace IsTree

variable {arena : Arena} {root : NodeId} (tree : arena.IsTree root)

include tree

/-- So do the nodes from one of them on. -/
theorem below {id : NodeId} (above : arena.Reachable root id) : arena.IsTree id where
  distinct node inside := tree.distinct node (above.trans inside)
  single first second child left right :=
    tree.single first second child (above.trans left) (above.trans right)
  acyclic parent child inside := tree.acyclic parent child (above.trans inside)

/-- Two nodes above one node lie above each other. -/
theorem ancestors_linear {first second node : NodeId} (reached : arena.Reachable root first)
    (also : arena.Reachable root second) (left : arena.Reachable first node)
    (right : arena.Reachable second node) :
    arena.Reachable first second ∨ arena.Reachable second first := by
  induction left with
  | refl => exact Or.inr right
  | @tail middle node path inside ih =>
      obtain same | ⟨parent, above, last⟩ := Relation.ReflTransGen.cases_tail right
      · subst same
        exact Or.inl (Relation.ReflTransGen.tail path inside)
      · have same := tree.single _ _ _ (reached.trans path) (also.trans above) inside last
        subst same
        exact ih above

/-- Nothing lies below two children of one node. -/
theorem siblings_disjoint {parent first second node : NodeId}
    (above : arena.Reachable root parent) (left : first ∈ arena.children parent)
    (right : second ∈ arena.children parent) (belowFirst : arena.Reachable first node)
    (belowSecond : arena.Reachable second node) : first = second := by
  -- One of the two would be above the other, and then so would their parent.
  have descends : ∀ {upper lower : NodeId}, upper ∈ arena.children parent →
      lower ∈ arena.children parent → arena.Reachable upper lower → lower = upper := by
    intro upper lower upperChild lowerChild path
    obtain same | ⟨middle, along, last⟩ := Relation.ReflTransGen.cases_tail path
    · exact same
    · have reached : arena.Reachable root middle := (above.tail upperChild).trans along
      have same := tree.single _ _ _ reached above last lowerChild
      subst same
      exact absurd along (tree.acyclic _ _ above upperChild)
  obtain path | path := tree.ancestors_linear (above.tail left) (above.tail right) belowFirst
    belowSecond
  · exact (descends left right path).symm
  · exact descends right left path

end IsTree

structure Forest (arena : Arena) : Prop where
  /-- Children are made before their parents. -/
  below : ∀ {parent child}, child ∈ arena.children parent → child.index < parent.index
  distinct : ∀ parent, (arena.children parent).Nodup
  single : ∀ {first second child}, child ∈ arena.children first →
    child ∈ arena.children second → first = second

namespace Forest

variable {arena : Arena} (forest : arena.Forest)

include forest

theorem distinct_of_kind {id : NodeId} {kind : NodeKind NodeId}
    (found : arena.kind? id = some kind) : kind.children.Nodup := by
  rw [← children_of_kind found]
  exact forest.distinct id

theorem index_le {root node : NodeId} (below : arena.Reachable root node) :
    node.index ≤ root.index := by
  induction below with
  | refl => exact Nat.le_refl _
  | tail _ inside ih => exact Nat.le_trans (Nat.le_of_lt (forest.below inside)) ih

theorem parent_not_below {parent child : NodeId} (inside : child ∈ arena.children parent) :
    ¬ arena.Reachable child parent := by
  intro below
  have upper := forest.index_le below
  have lower := forest.below inside
  omega

/-- Two nodes above one node lie above each other. -/
theorem ancestors_linear {first second node : NodeId} (left : arena.Reachable first node)
    (right : arena.Reachable second node) :
    arena.Reachable first second ∨ arena.Reachable second first := by
  induction left with
  | refl => exact Or.inr right
  | @tail middle node path inside ih =>
      obtain same | ⟨parent, above, last⟩ := Relation.ReflTransGen.cases_tail right
      · subst same
        exact Or.inl (Relation.ReflTransGen.tail path inside)
      · have same := forest.single inside last
        subst same
        exact ih above

theorem is_tree (root : NodeId) : arena.IsTree root where
  distinct node _ := forest.distinct node
  single _ _ _ _ _ := forest.single
  acyclic _ _ _ := forest.parent_not_below

theorem siblings_disjoint {parent first second node : NodeId}
    (left : first ∈ arena.children parent) (right : second ∈ arena.children parent)
    (belowFirst : arena.Reachable first node) (belowSecond : arena.Reachable second node) :
    first = second :=
  (forest.is_tree parent).siblings_disjoint .refl left right belowFirst belowSecond

end Forest

end Arena

end ModuleLang
